/-
  DfcFlipper.Storage.Resources — what a load and a save hold, and for how long
  (dfc_text_codec_open, dfc_text_codec_close, dfc_credential_read_whole_file,
  dfc_credential_file_load and dfc_credential_write_file in dfc_credential_storage.c).

  Here each function also leaves the trace of its acquisitions, uses and releases: of the
  plugin manager, the storage file, the source buffer (`raw`), the text buffer (`text`) and
  the binary copy (`octets`). The pointers of the C functions are kept as they are, since
  which of them is NULL at the end, and whether `octets` is `raw`, decides what is freed.
  The results are those of the functions without a trace (`fileLoadTraced_result`,
  `writeFileTraced_result`).

  `storage_file_alloc` is unchecked in the source: it does not fail.

  `resources_returned`: on every exit, what was acquired is released once and not used
  afterwards; the binary copy is acquired with plugin and source gone, the target file
  opened with the plugin gone.
-/

import DfcFlipper.Lib.Lifetime
import DfcFlipper.Storage.Load
import DfcFlipper.Storage.Save

namespace DfcFlipper.Storage

open DfcFlipper.Lib.Bytes DfcFlipper.Lib.Lifetime

variable {n : Nat} {β : Type}

/-! ## Resources and pointers -/

inductive Resource where
  | plugin
  | file
  | source
  | text
  | copy
  deriving DecidableEq

instance Resource.fintype : Fintype Resource where
  elems := {.plugin, .file, .source, .text, .copy}
  complete r := by cases r <;> decide

inductive Operation where
  | loadSingle
  | getCount
  | getEntryPoint
  | bind
  | statusName
  | parse
  | write
  | open
  | size
  | read
  | close
  | look
  | encode
  | decode
  deriving DecidableEq

abbrev Ev := Event Resource Operation

/-- `NULL`, or what it points to. -/
abbrev Pointer := Option Resource

/-- `free`, and the same of a manager: nothing happens to `NULL`. -/
def freeOf (p : Pointer) : List Ev := p.toList.map .release

def usesOf (p : Pointer) (op : Operation) : List Ev := p.toList.map (.use · op)

/-! ## The functions -/

structure Opening where
  opened : Bool
  /-- `codec->manager`. -/
  manager : Pointer
  trace : List Ev

/-- `dfc_text_codec_open`. -/
def textCodecOpenTraced (d : PluginDevice) : Opening :=
  if !d.managerAlloc then ⟨false, none, []⟩
  else
    let loaded : List Ev := [.acquire .plugin, .use .plugin .loadSingle]
    if !d.loadSingle then ⟨false, none, loaded ++ freeOf (some .plugin)⟩
    else
      let counted := loaded ++ [.use .plugin .getCount]
      if d.count ≠ 1 then ⟨false, none, counted ++ freeOf (some .plugin)⟩
      else
        let entered := counted ++ [.use .plugin .getEntryPoint]
        if !d.entryPoint then ⟨false, none, entered ++ freeOf (some .plugin)⟩
        else ⟨true, some .plugin, entered ++ [.use .plugin .bind]⟩

/-- `dfc_credential_read_whole_file`. -/
def readWholeFileTraced (d : LoadDevice) (files : Files) (path : Path) : Except LoadStatus Octets × List Ev :=
  let opened : List Ev := [.acquire .file, .use .file .open]
  let closed : List Ev := [.use .file .close, .release .file]
  match (if d.openRead then files path else none) with
  | none => (.error .openFailed, opened ++ closed)
  | some contents =>
    let size := contents.length
    let sized := opened ++ [.use .file .size]
    if size = 0 then (.error .malformedFile, sized ++ closed)
    else if size > flipperCredentialMaxSize then (.error .capacity, sized ++ closed)
    else if hasHeapFor d.readHeap size (loadHeapReserve path) = false then (.error .capacity, sized ++ closed)
    else if d.mallocRaw = false then (.error .capacity, sized ++ closed)
    else
      let read := sized ++ [.acquire .source, .use .file .read, .use .source .write]
      let buffer := contents.take d.delivers
      if buffer.length ≠ size then (.error .openFailed, read ++ freeOf (some .source) ++ closed)
      else (.ok buffer, read ++ closed)

/-- The pointers of `dfc_credential_file_load`. -/
structure Locals where
  manager : Pointer
  raw : Pointer
  octets : Pointer

structure Compiling (n : Nat) (β : Type) where
  result : Credential n β × Except LoadStatus Octets
  locals : Locals
  trace : List Ev

/-- `dfc_credential_file_load`, up to the binary octets; `raw` is the source. -/
def binaryOctetsTraced (K : Codec n β) (d : LoadDevice) (c : Credential n β) (raw : Octets) : Compiling n β :=
  let looked : List Ev := [.use .source .look]
  if raw.headD 0 = binaryFirstOctet then ⟨(c, .ok raw), ⟨none, some .source, some .source⟩, looked⟩
  else
    let o := textCodecOpenTraced d.plugin
    let tried := looked ++ o.trace
    if o.opened = false then ⟨(c, .error .codecUnavailable), ⟨o.manager, some .source, none⟩, tried⟩
    else
      let parsed := K.parse c raw
      let ran := tried ++ usesOf o.manager .parse ++ [.use .source .parse]
      if parsed.1 ≠ .ok then
        ⟨(parsed.2, .error (statusFor parsed.1)), ⟨o.manager, some .source, none⟩, ran ++ usesOf o.manager .statusName⟩
      else
        -- dfc_text_codec_close
        let closed := ran ++ freeOf o.manager
        let size := K.encodedSize parsed.2
        if size.1 ≠ .ok then ⟨(parsed.2, .error (statusFor size.1)), ⟨none, some .source, none⟩, closed⟩
        else
          let freed := closed ++ freeOf (some .source)
          if hasHeapFor d.encodeHeap size.2 binaryLoadHeapReserve = false then
            ⟨(parsed.2, .error .capacity), ⟨none, none, none⟩, freed⟩
          else if d.mallocOctets = false then ⟨(parsed.2, .error .capacity), ⟨none, none, none⟩, freed⟩
          else
            let encoded := K.encode parsed.2 size.2
            let copied := freed ++ [.acquire .copy, .use .copy .encode]
            if encoded.1 ≠ .ok then
              ⟨(parsed.2, .error (statusFor encoded.1)), ⟨none, none, some .copy⟩, copied⟩
            else ⟨(parsed.2, .ok encoded.2), ⟨none, none, some .copy⟩, copied⟩

/-- What the end of `dfc_credential_file_load` frees, in its order. -/
def Locals.owned (l : Locals) : List Resource :=
  (if l.octets ≠ none ∧ l.octets ≠ l.raw then l.octets.toList else []) ++ l.raw.toList ++ l.manager.toList

/-- `dfc_credential_file_load`. -/
def fileLoadTraced (K : Codec n β) (d : LoadDevice) (files : Files) (c : Credential n β) (path : Path)
    (selectedName : Name n) : Loading n β × List Ev :=
  let r := readWholeFileTraced d files path
  match r.1 with
  | .error st => (⟨false, st, c⟩, r.2)
  | .ok raw =>
    let b := binaryOctetsTraced K d c raw
    match b.result with
    | (c', .error st) => (⟨false, st, K.clear c'⟩, r.2 ++ b.trace ++ b.locals.owned.map .release)
    | (c', .ok octets) =>
      let checked := decodeAndCheck K c' octets
      let tr := r.2 ++ b.trace ++ usesOf b.locals.octets .decode ++ b.locals.owned.map .release
      if checked.2 = .ok then (⟨true, .ok, { checked.1 with name := Name.copy n selectedName.chars }⟩, tr)
      else (⟨false, checked.2, K.clear checked.1⟩, tr)

structure Rendering where
  rendered : Option Octets
  manager : Pointer
  text : Pointer
  trace : List Ev

/-- The codec's part of `dfc_credential_write_file`. -/
def renderTextTraced (K : TextExport n β) (d : SaveDevice) (c : Credential n β) : Rendering :=
  let o := textCodecOpenTraced d.plugin
  if o.opened = false then ⟨none, o.manager, none, o.trace⟩
  else
    let measured := K.measure c
    let tried := o.trace ++ usesOf o.manager .write
    if measured.1 ≠ .capacity ∧ measured.1 ≠ .ok then ⟨none, o.manager, none, tried ++ usesOf o.manager .statusName⟩
    else if measured.2 > flipperCredentialMaxSize then ⟨none, o.manager, none, tried⟩
    else if d.mallocText = false then ⟨none, o.manager, none, tried⟩
    else
      let rendered := K.render c (measured.2 + 1)
      let ran := tried ++ [.acquire .text] ++ usesOf o.manager .write ++ [.use .text .write]
      if rendered.1 ≠ .ok then ⟨none, o.manager, some .text, ran ++ usesOf o.manager .statusName⟩
      -- dfc_text_codec_close
      else ⟨some rendered.2, none, some .text, ran ++ freeOf o.manager⟩

/-- `dfc_credential_write_file`. -/
def writeFileTraced (K : TextExport n β) (d : SaveDevice) (files : Files) (c : Credential n β) (path : Path) :
    Written × List Ev :=
  let r := renderTextTraced K d c
  let before : List Ev := .acquire .file :: r.trace
  let closed : List Ev := freeOf r.text ++ freeOf r.manager ++ [.use .file .close, .release .file]
  match r.rendered with
  | none => (⟨false, files, some canNotSave⟩, before ++ closed)
  | some text =>
    let opened := before ++ [.use .file .open]
    if d.openWrite = false then (⟨false, files, some canNotSave⟩, opened ++ closed)
    else
      let wrote := opened ++ [.use .file .write] ++ usesOf r.text .read
      let stored := text.take d.accepts
      if stored.length ≠ text.length then
        (⟨false, Function.update files path (some stored), some canNotSave⟩, wrote ++ closed)
      else (⟨true, Function.update files path (some stored), none⟩, wrote ++ closed)

/-! ## The same functions -/

section Result

variable (K : Codec n β) (E : TextExport n β) (d : LoadDevice) (ds : SaveDevice) (files : Files) (c : Credential n β)
  (path : Path)

theorem textCodecOpenTraced_opened (d : PluginDevice) : (textCodecOpenTraced d).opened = textCodecOpen d := by
  simp only [textCodecOpenTraced, textCodecOpen]
  repeat' split
  all_goals rfl

theorem readWholeFileTraced_result : (readWholeFileTraced d files path).1 = readWholeFile d files path := by
  simp only [readWholeFileTraced, readWholeFile]
  cases (if d.openRead then files path else none) with
  | none => rfl
  | some contents =>
    dsimp only
    repeat' split
    all_goals rfl

theorem binaryOctetsTraced_result (raw : Octets) : (binaryOctetsTraced K d c raw).result = binaryOctets K d c raw := by
  simp only [binaryOctetsTraced, binaryOctets, textCodecOpenTraced_opened]
  repeat' split
  all_goals rfl

theorem fileLoadTraced_result (name : Name n) : (fileLoadTraced K d files c path name).1 = fileLoad K d files c path name := by
  simp only [fileLoadTraced, fileLoad, readWholeFileTraced_result]
  cases readWholeFile d files path with
  | error st => rfl
  | ok raw =>
    simp only [binaryOctetsTraced_result]
    rcases binaryOctets K d c raw with ⟨c', _ | octets⟩
    · rfl
    · dsimp only
      split
      · rfl
      · rfl

theorem renderTextTraced_rendered : (renderTextTraced E ds c).rendered = renderText E ds c := by
  simp only [renderTextTraced, renderText, textCodecOpenTraced_opened]
  repeat' split
  all_goals rfl

theorem writeFileTraced_result : (writeFileTraced E ds files c path).1 = writeFile E ds files c path := by
  simp only [writeFileTraced, writeFile, renderTextTraced_rendered]
  cases renderText E ds c with
  | none => rfl
  | some text =>
    dsimp only
    repeat' split
    all_goals rfl

end Result

/-! ## Phases along the way -/

def phasesAt (plugin file source text copy : Phase) : Phases Resource
  | .plugin => plugin
  | .file => file
  | .source => source
  | .text => text
  | .copy => copy

/-- The binary copy is acquired when plugin and source are gone. -/
def loadRule (φ : Phases Resource) (e : Ev) : Prop := e = .acquire .copy → φ .plugin = .released ∧ φ .source = .released

/-- The target file is opened when the plugin is gone. -/
def saveRule (φ : Phases Resource) (e : Ev) : Prop := e = .use .file .open → φ .plugin = .released

instance loadRule.decidable (φ : Phases Resource) (e : Ev) : Decidable (loadRule φ e) := inferInstanceAs (Decidable (_ → _))

instance saveRule.decidable (φ : Phases Resource) (e : Ev) : Decidable (saveRule φ e) := inferInstanceAs (Decidable (_ → _))

def fileHeld : Phases Resource := phasesAt .unborn .held .unborn .unborn .unborn

/-- The rule says nothing about the plugin's own events. -/
structure Ignores (rule : Phases Resource → Ev → Prop) : Prop where
  acquire : ∀ φ, rule φ (.acquire .plugin)
  use : ∀ φ op, rule φ (.use .plugin op)
  release : ∀ φ, rule φ (.release .plugin)

theorem loadRule_ignores : Ignores loadRule := by
  constructor <;> simp [loadRule]

theorem saveRule_ignores : Ignores saveRule := by
  constructor <;> simp [saveRule]

/-- The codec is open and the manager held, or neither. -/
theorem textCodecOpenTraced_cases {rule : Phases Resource → Ev → Prop} (hr : Ignores rule) (d : PluginDevice)
    (file source text copy : Phase) :
    ((textCodecOpenTraced d).opened = true ∧ (textCodecOpenTraced d).manager = some .plugin ∧
      Passes rule (phasesAt .unborn file source text copy) (textCodecOpenTraced d).trace
        (phasesAt .held file source text copy)) ∨
    ((textCodecOpenTraced d).opened = false ∧ (textCodecOpenTraced d).manager = none ∧
      ∃ plugin, plugin ≠ .held ∧ Passes rule (phasesAt .unborn file source text copy) (textCodecOpenTraced d).trace
        (phasesAt plugin file source text copy)) := by
  let before := phasesAt .unborn file source text copy
  let held := phasesAt .held file source text copy
  have hload : Passes rule before [.acquire .plugin, .use .plugin .loadSingle] held := by
    refine ⟨⟨⟨rfl, hr.acquire _⟩, ⟨rfl, hr.use _ _⟩, trivial⟩, ?_⟩
    funext r
    cases r <;> rfl
  have huse : ∀ op, Passes rule held [.use .plugin op] held := fun op => ⟨⟨⟨rfl, hr.use _ _⟩, trivial⟩, rfl⟩
  have hfree : Passes rule held (freeOf (some .plugin)) (phasesAt .released file source text copy) := by
    refine ⟨⟨⟨rfl, hr.release _⟩, trivial⟩, ?_⟩
    funext r
    cases r <;> rfl
  have hcounted := hload.append (huse .getCount)
  have hentered := hcounted.append (huse .getEntryPoint)
  simp only [textCodecOpenTraced]
  split
  · exact Or.inr ⟨rfl, rfl, .unborn, by decide, Passes.nil⟩
  split
  · exact Or.inr ⟨rfl, rfl, .released, by decide, hload.append hfree⟩
  split
  · exact Or.inr ⟨rfl, rfl, .released, by decide, hcounted.append hfree⟩
  split
  · exact Or.inr ⟨rfl, rfl, .released, by decide, hentered.append hfree⟩
  · exact Or.inl ⟨rfl, rfl, hentered.append (huse .bind)⟩

/-! ## A load -/

def sourceRead : Phases Resource := phasesAt .unborn .released .held .unborn .unborn

theorem readWholeFileTraced_passes (d : LoadDevice) (files : Files) (path : Path) :
    (∃ raw, (readWholeFileTraced d files path).1 = .ok raw ∧
      Passes loadRule unborn (readWholeFileTraced d files path).2 sourceRead) ∨
    ∃ st, (readWholeFileTraced d files path).1 = .error st ∧ Orderly loadRule (readWholeFileTraced d files path).2 := by
  let fetched := phasesAt .unborn .held .held .unborn .unborn
  let closed := phasesAt .unborn .released .unborn .unborn .unborn
  have hopen : Passes loadRule unborn [.acquire .file, .use .file .open] fileHeld := by decide
  have hsize : Passes loadRule fileHeld [.use .file .size] fileHeld := by decide
  have hclose : Passes loadRule fileHeld [.use .file .close, .release .file] closed := by decide
  have hfetch : Passes loadRule fileHeld [.acquire .source, .use .file .read, .use .source .write] fetched := by decide
  have hfree : Passes loadRule fetched (freeOf (some .source)) (phasesAt .unborn .held .released .unborn .unborn) := by
    decide
  have hclose' : Passes loadRule (phasesAt .unborn .held .released .unborn .unborn) [.use .file .close, .release .file]
      (phasesAt .unborn .released .released .unborn .unborn) := by decide
  have hkeep : Passes loadRule fetched [.use .file .close, .release .file] sourceRead := by decide
  have hread := (hopen.append hsize).append hfetch
  have hunread : Orderly loadRule ([.acquire .file, .use .file .open] ++ [.use .file .size] ++
      [.use .file .close, .release .file] : List Ev) := ⟨closed, (hopen.append hsize).append hclose, by decide⟩
  simp only [readWholeFileTraced]
  cases (if d.openRead then files path else none) with
  | none => exact Or.inr ⟨_, rfl, closed, hopen.append hclose, by decide⟩
  | some contents =>
    dsimp only
    split
    · exact Or.inr ⟨_, rfl, hunread⟩
    split
    · exact Or.inr ⟨_, rfl, hunread⟩
    split
    · exact Or.inr ⟨_, rfl, hunread⟩
    split
    · exact Or.inr ⟨_, rfl, hunread⟩
    split
    · exact Or.inr ⟨_, rfl, _, (hread.append hfree).append hclose', by decide⟩
    · exact Or.inl ⟨_, rfl, hread.append hkeep⟩

structure Owned (l : Locals) (φ : Phases Resource) : Prop where
  nodup : l.owned.Nodup
  held : ∀ r, φ r = .held ↔ r ∈ l.owned

instance Owned.decidable (l : Locals) (φ : Phases Resource) : Decidable (Owned l φ) :=
  decidable_of_iff (l.owned.Nodup ∧ ∀ r, φ r = .held ↔ r ∈ l.owned) ⟨fun h => ⟨h.1, h.2⟩, fun h => ⟨h.nodup, h.held⟩⟩

/-- What the end of a load frees is what is held. -/
theorem Owned.frees {l : Locals} {φ : Phases Resource} (h : Owned l φ) :
    ∃ φ', Passes loadRule φ (l.owned.map .release) φ' ∧ Idle φ' := by
  refine ⟨_, passes_releases (fun φ r => by simp [loadRule]) h.nodup fun r hr => (h.held r).mpr hr, fun r => ?_⟩
  by_cases hr : r ∈ l.owned
  · simp [hr]
  · simpa [hr] using fun hheld => hr ((h.held r).mp hheld)

structure Tracked (b : Compiling n β) (φ : Phases Resource) : Prop where
  passes : Passes loadRule sourceRead b.trace φ
  owned : Owned b.locals φ
  octets : ∀ r, b.locals.octets = some r → φ r = .held

/-- The codec is closed and the source freed on the way, and the pointers with them. -/
theorem binaryOctetsTraced_passes (K : Codec n β) (d : LoadDevice) (c : Credential n β) (raw : Octets) :
    ∃ φ, Tracked (binaryOctetsTraced K d c raw) φ := by
  have hlook : Passes loadRule sourceRead ([.use .source .look] : List Ev) sourceRead := by decide
  have halias : Owned ⟨none, some .source, some .source⟩ sourceRead := by decide
  simp only [binaryOctetsTraced]
  split
  · refine ⟨sourceRead, hlook, halias, fun r hr => ?_⟩
    obtain rfl := Option.some.inj hr
    rfl
  rcases textCodecOpenTraced_cases loadRule_ignores d.plugin .released .held .unborn .unborn with
    ⟨ho, hm, hp⟩ | ⟨ho, hm, plugin, hne, hp⟩
  · rw [ho, hm, if_neg (by decide)]
    -- the phases of an open codec, of one closed, of a source freed and of a copy made
    let opened := phasesAt .held .released .held .unborn .unborn
    let closed := phasesAt .released .released .held .unborn .unborn
    let freed := phasesAt .released .released .released .unborn .unborn
    let copied := phasesAt .released .released .released .unborn .held
    have hparse : Passes loadRule opened (usesOf (some .plugin) .parse) opened := by decide
    have hsource : Passes loadRule opened [.use .source .parse] opened := by decide
    have hname : Passes loadRule opened (usesOf (some .plugin) .statusName) opened := by decide
    have hclose : Passes loadRule opened (freeOf (some .plugin)) closed := by decide
    have hfree : Passes loadRule closed (freeOf (some .source)) freed := by decide
    have hcopy : Passes loadRule freed [.acquire .copy, .use .copy .encode] copied := by decide
    have hran := ((hlook.append hp).append hparse).append hsource
    have hclosed := hran.append hclose
    have hfreed := hclosed.append hfree
    have hcopied := hfreed.append hcopy
    have hoc : Owned ⟨none, none, some .copy⟩ copied := by decide
    have hof : Owned ⟨none, none, none⟩ freed := by decide
    split
    · exact ⟨opened, hran.append hname, (by decide : Owned ⟨some .plugin, some .source, none⟩ opened), by simp⟩
    split
    · exact ⟨closed, hclosed, (by decide : Owned ⟨none, some .source, none⟩ closed), by simp⟩
    split
    · exact ⟨freed, hfreed, hof, by simp⟩
    split
    · exact ⟨freed, hfreed, hof, by simp⟩
    split
    all_goals
      refine ⟨copied, hcopied, hoc, fun r hr => ?_⟩
      obtain rfl := Option.some.inj hr
      rfl
  · rw [ho, hm, if_pos rfl]
    refine ⟨_, hlook.append hp, ?_, by simp⟩
    cases plugin with
    | unborn => exact (by decide : Owned ⟨none, some .source, none⟩ (phasesAt .unborn .released .held .unborn .unborn))
    | held => exact absurd rfl hne
    | released => exact (by decide : Owned ⟨none, some .source, none⟩ (phasesAt .released .released .held .unborn .unborn))

/-- A use through a pointer to what is held, or through `NULL`. -/
theorem passes_usesOf {rule : Phases Resource → Ev → Prop} {φ : Phases Resource} {p : Pointer} {op : Operation}
    (hp : ∀ r, p = some r → φ r = .held) (hr : ∀ r, p = some r → rule φ (.use r op)) : Passes rule φ (usesOf p op) φ := by
  cases p with
  | none => exact Passes.nil
  | some r => exact ⟨⟨⟨hp r rfl, hr r rfl⟩, trivial⟩, rfl⟩

theorem fileLoadTraced_orderly (K : Codec n β) (d : LoadDevice) (files : Files) (c : Credential n β) (path : Path)
    (name : Name n) : Orderly loadRule (fileLoadTraced K d files c path name).2 := by
  simp only [fileLoadTraced]
  rcases readWholeFileTraced_passes d files path with ⟨raw, he, hread⟩ | ⟨st, he, ho⟩
  · obtain ⟨φ, hoct, hown, huse⟩ := binaryOctetsTraced_passes K d c raw
    obtain ⟨φ', hfree, hidle⟩ := hown.frees
    have hdecode : Passes loadRule φ (usesOf (binaryOctetsTraced K d c raw).locals.octets .decode) φ :=
      passes_usesOf huse fun r _ => by simp [loadRule]
    rw [he]
    dsimp only
    rcases (binaryOctetsTraced K d c raw).result with ⟨c', _ | octets⟩
    · exact ⟨φ', (hread.append hoct).append hfree, hidle⟩
    · dsimp only
      split
      · exact ⟨φ', ((hread.append hoct).append hdecode).append hfree, hidle⟩
      · exact ⟨φ', ((hread.append hoct).append hdecode).append hfree, hidle⟩
  · rw [he]
    exact ho

/-! ## A save -/

/-- The text is there and the codec closed, or the pointers name what is left to free. -/
theorem renderTextTraced_passes (E : TextExport n β) (d : SaveDevice) (c : Credential n β) :
    ((∃ text, (renderTextTraced E d c).rendered = some text) ∧ (renderTextTraced E d c).manager = none ∧
      (renderTextTraced E d c).text = some .text ∧
      Passes saveRule fileHeld (renderTextTraced E d c).trace (phasesAt .released .held .unborn .held .unborn)) ∨
    ((renderTextTraced E d c).rendered = none ∧ ∃ φ φ', Passes saveRule fileHeld (renderTextTraced E d c).trace φ ∧
      Passes saveRule φ (freeOf (renderTextTraced E d c).text ++ freeOf (renderTextTraced E d c).manager ++
        [.use .file .close, .release .file]) φ' ∧ Idle φ') := by
  simp only [renderTextTraced]
  rcases textCodecOpenTraced_cases saveRule_ignores d.plugin .held .unborn .unborn .unborn with
    ⟨ho, hm, hp⟩ | ⟨ho, hm, plugin, hne, hp⟩
  · rw [ho, hm, if_neg (by decide)]
    let opened := phasesAt .held .held .unborn .unborn .unborn
    let filled := phasesAt .held .held .unborn .held .unborn
    have hwrite : Passes saveRule opened (usesOf (some .plugin) .write) opened := by decide
    have hname : Passes saveRule opened (usesOf (some .plugin) .statusName) opened := by decide
    have halloc : Passes saveRule opened [.acquire .text] filled := by decide
    have hrender : Passes saveRule filled (usesOf (some .plugin) .write) filled := by decide
    have hfill : Passes saveRule filled [.use .text .write] filled := by decide
    have hname' : Passes saveRule filled (usesOf (some .plugin) .statusName) filled := by decide
    have hclose : Passes saveRule filled (freeOf (some .plugin)) (phasesAt .released .held .unborn .held .unborn) := by
      decide
    have htried := hp.append hwrite
    have hran := ((htried.append halloc).append hrender).append hfill
    have hend : Passes saveRule opened (freeOf none ++ freeOf (some .plugin) ++ [.use .file .close, .release .file])
        (phasesAt .released .released .unborn .unborn .unborn) := by decide
    have hend' : Passes saveRule filled
        (freeOf (some .text) ++ freeOf (some .plugin) ++ [.use .file .close, .release .file])
        (phasesAt .released .released .unborn .released .unborn) := by decide
    split
    · exact Or.inr ⟨rfl, opened, _, htried.append hname, hend, by decide⟩
    split
    · exact Or.inr ⟨rfl, opened, _, htried, hend, by decide⟩
    split
    · exact Or.inr ⟨rfl, opened, _, htried, hend, by decide⟩
    split
    · exact Or.inr ⟨rfl, filled, _, hran.append hname', hend', by decide⟩
    · exact Or.inl ⟨⟨_, rfl⟩, rfl, rfl, hran.append hclose⟩
  · rw [ho, hm, if_pos rfl]
    have hend : ∀ ph, Passes saveRule (phasesAt ph .held .unborn .unborn .unborn)
        (freeOf none ++ freeOf none ++ [.use .file .close, .release .file])
        (phasesAt ph .released .unborn .unborn .unborn) := by
      intro ph
      cases ph <;> decide
    refine Or.inr ⟨rfl, _, _, hp, hend plugin, ?_⟩
    cases plugin with
    | unborn => decide
    | held => exact absurd rfl hne
    | released => decide

theorem writeFileTraced_orderly (E : TextExport n β) (d : SaveDevice) (files : Files) (c : Credential n β) (path : Path) :
    Orderly saveRule (writeFileTraced E d files c path).2 := by
  have halloc : Passes saveRule unborn ([.acquire .file] : List Ev) fileHeld := by decide
  simp only [writeFileTraced]
  rcases renderTextTraced_passes E d c with ⟨⟨text, hr⟩, hm, ht, hp⟩ | ⟨hr, φ, φ', hp, hend, hidle⟩
  · let rendered := phasesAt .released .held .unborn .held .unborn
    have hopen : Passes saveRule rendered [.use .file .open] rendered := by decide
    have hwrite : Passes saveRule rendered [.use .file .write] rendered := by decide
    have hread : Passes saveRule rendered (usesOf (some .text) .read) rendered := by decide
    have hend : Passes saveRule rendered (freeOf (some .text) ++ freeOf none ++ [.use .file .close, .release .file])
        (phasesAt .released .released .unborn .released .unborn) := by decide
    have hidle : Idle (phasesAt .released .released .unborn .released .unborn) := by decide
    have hopened := (halloc.append hp).append hopen
    rw [hr, hm, ht]
    dsimp only
    split
    · exact ⟨_, hopened.append hend, hidle⟩
    split
    · exact ⟨_, ((hopened.append hwrite).append hread).append hend, hidle⟩
    · exact ⟨_, ((hopened.append hwrite).append hread).append hend, hidle⟩
  · rw [hr]
    exact ⟨φ', (halloc.append hp).append hend, hidle⟩

/-! ## Every exit -/

structure Returns (tr : List Ev) : Prop where
  once : ∀ r, .acquire r ∈ tr → tr.count (.acquire r) = 1 ∧ tr.count (.release r) = 1
  between : ∀ pre r op, pre ++ [.use r op] <+: tr → .acquire r ∈ pre ∧ .release r ∉ pre

theorem returns_of_orderly {rule : Phases Resource → Ev → Prop} {tr : List Ev} (h : Orderly rule tr) : Returns tr where
  once _ ha := h.released_once ha
  between _ _ _ hp := h.used_while_held hp

/-- Every exit of a load and of a save returns what was acquired. -/
theorem resources_returned (K : Codec n β) (E : TextExport n β) (dl : LoadDevice) (ds : SaveDevice) (files : Files)
    (c : Credential n β) (path : Path) (name : Name n) :
    let load := fileLoadTraced K dl files c path name
    let save := writeFileTraced E ds files c path
    (load.1 = fileLoad K dl files c path name ∧ save.1 = writeFile E ds files c path) ∧
    (Returns load.2 ∧ Returns save.2) ∧
    (∀ pre, pre ++ [.acquire .copy] <+: load.2 → .release .plugin ∈ pre ∧ .release .source ∈ pre) ∧
    (∀ pre, pre ++ [.use .file .open] <+: save.2 → .release .plugin ∈ pre) := by
  intro load save
  have hload : Orderly loadRule load.2 := fileLoadTraced_orderly K dl files c path name
  have hsave : Orderly saveRule save.2 := writeFileTraced_orderly E ds files c path
  refine ⟨⟨fileLoadTraced_result K dl files c path name, writeFileTraced_result E ds files c path⟩,
    ⟨returns_of_orderly hload, returns_of_orderly hsave⟩, fun pre hp => ?_, fun pre hp => ?_⟩
  · obtain ⟨φ, hpass, hrule⟩ := hload.ruled hp
    exact ⟨release_mem hpass (hrule rfl).1, release_mem hpass (hrule rfl).2⟩
  · obtain ⟨φ, hpass, hrule⟩ := hsave.ruled hp
    exact release_mem hpass (hrule rfl)

end DfcFlipper.Storage
