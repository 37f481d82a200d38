/-
  DfcFlipper.Reader.Resources — what a read holds, and what it does with its keys
  (dfc_reader_alloc, dfc_reader_free, dfc_reader_clear_secure_messaging, dfc_state_machine
  and what it calls in dfc_reader.c).

  Each function also leaves the trace of what it acquires, uses and releases: the reader,
  its two buffers, the session, and two secrets, the session key on the stack of
  `dfc_reader_authenticate` and the key material in the session. A secret is acquired when
  it is written and released when it is overwritten with zeros. The results are those of
  the functions without a trace (`stateMachineTraced_result`).

  `read_returned`: on every exit, also when an allocation fails half way, what was acquired
  is released once and not used afterwards; the buffers and the session go before the
  reader that points to them, and no secret is left, the session's being overwritten
  before it is freed.
-/

import DfcFlipper.Lib.Lifetime
import DfcFlipper.Reader.Poller

namespace DfcFlipper.Reader

open DfcFlipper.Lib.Bytes DfcFlipper.Lib.Lifetime

/-! ## Resources -/

inductive Resource where
  | reader
  | txBuffer
  | rxBuffer
  | session
  /-- `session_key` on the stack. -/
  | sessionKey
  /-- What the session keeps of it. -/
  | keyMaterial
  deriving DecidableEq

instance Resource.fintype : Fintype Resource where
  elems := {.reader, .txBuffer, .rxBuffer, .session, .sessionKey, .keyMaterial}
  complete r := by cases r <;> decide

inductive Operation where
  | clear
  | reset
  | append
  | send
  | receive
  | look
  | derive
  | copy
  | mark
  | assert
  | applies
  | update
  | unwrap
  deriving DecidableEq

abbrev Ev := Event Resource Operation

/-! ## The functions -/

section Functions

variable {σ : Type} (C : Core σ) (card : Card)

/-- `dfc_reader_clear_secure_messaging`. -/
def clearSecureMessagingTraced : Option σ → List Ev
  | none => []
  | some _ => [.release .keyMaterial, .release .session]

/-- What the allocations of `dfc_reader_alloc` return. -/
structure Allocations where
  reader : Bool
  txBuffer : Bool
  rxBuffer : Bool

/-- `dfc_reader_alloc`: whether there is a reader. -/
def readerAllocTraced (a : Allocations) : Bool × List Ev :=
  if a.reader = false then (false, [])
  else
    let buffers : List Ev := [.acquire .reader, .use .reader .clear] ++
      (if a.txBuffer then [.acquire .txBuffer] else []) ++ (if a.rxBuffer then [.acquire .rxBuffer] else [])
    if a.txBuffer = false ∨ a.rxBuffer = false then
      (false, buffers ++ (if a.txBuffer then [.release .txBuffer] else []) ++
        (if a.rxBuffer then [.release .rxBuffer] else []) ++ [.release .reader])
    else (true, buffers)

/-- `dfc_reader_free`. -/
def readerFreeTraced (sm : Option σ) : List Ev :=
  [.release .txBuffer, .release .rxBuffer] ++ clearSecureMessagingTraced sm ++ [.release .reader]

/-- `dfc_reader_exchange`. -/
def exchangeTraced : List Ev := [.use .txBuffer .reset, .use .txBuffer .append, .use .txBuffer .send, .use .rxBuffer .receive]

/-- `dfc_reader_select_application`. -/
def selectApplicationTraced (r : DfcReader σ) (aid : Octets) : (NfcCommand × DfcReader σ) × List Ev :=
  let x := exchange card r (C.buildSelectApplicationFrame aid)
  match x.1 with
  | none => ((.commandStop, x.2), exchangeTraced)
  | some rx =>
    let looked := exchangeTraced ++ [.use .rxBuffer .look]
    if rx.length < 1 ∨ rx.headD 0 ≠ statusOk then ((.commandStop, x.2), looked) else ((.commandContinue, x.2), looked)

/-- `dfc_reader_authenticate`. -/
def authenticateTraced (random : Nat → Octets) (r : DfcReader σ) (keyNo cipher : UInt8) :
    (NfcCommand × DfcReader σ) × List Ev :=
  match r.credential.application with
  | none => ((.commandStop, r), [])
  | some app =>
    if keyNo.toNat ≥ app.numKeys then ((.commandStop, r), [])
    else
      match app.key keyNo.toNat with
      | none => ((.commandStop, r), [])
      | some key =>
        let blockSize := C.blockSizeForCipher cipher
        let x := exchange card r [cipher, keyNo]
        match x.1 with
        | none => ((.commandStop, x.2), exchangeTraced)
        | some rx =>
          let first := exchangeTraced ++ [.use .rxBuffer .look]
          if rx.length < 1 + blockSize ∨ rx.headD 0 ≠ cmdAdditionalFrame then ((.commandStop, x.2), first)
          else
            let encRndB := (rx.drop 1).take blockSize
            let rndB := (cbcDecrypt C cipher key (zeros blockSize) encRndB).1
            let rndA := random blockSize
            let iv := if cipher = cmdAuthenticateLegacy then zeros blockSize else encRndB
            let encrypted := cbcEncrypt C cipher key iv (rndA ++ C.rotateLeft rndB)
            let y := exchange card x.2 (cmdAdditionalFrame :: encrypted.1)
            match y.1 with
            | none => ((.commandStop, y.2), first ++ exchangeTraced)
            | some ry =>
              let second := first ++ exchangeTraced ++ [.use .rxBuffer .look]
              if ry.length < 1 + blockSize ∨ ry.headD 0 ≠ statusOk then ((.commandStop, y.2), second)
              else
                let encRndARot := (ry.drop 1).take blockSize
                let iv := if cipher = cmdAuthenticateLegacy then zeros blockSize else encrypted.2
                let rndARot := cbcDecrypt C cipher key iv encRndARot
                if rndARot.1 ≠ C.rotateLeft rndA then ((.commandStop, y.2), second)
                else
                  let sessionKey := C.deriveSessionKey cipher key rndA rndB
                  let initialIv := if cipher = cmdAuthenticateLegacy then none else some rndARot.2
                  let derived := second ++ [.acquire .sessionKey] ++ clearSecureMessagingTraced y.2.secureMessaging ++
                    [.use .sessionKey .copy]
                  match C.secureMessagingAlloc cipher sessionKey initialIv with
                  | none => ((.commandStop, ⟨y.2.credential, none, y.2.sent⟩), derived ++ [.release .sessionKey])
                  | some sm =>
                    ((.commandContinue, ⟨y.2.credential, some (C.asPcd sm), y.2.sent⟩),
                      derived ++ [.acquire .session, .acquire .keyMaterial, .use .session .mark, .release .sessionKey])

/-- `dfc_reader_read_file`, up to the payload. -/
def fetchTraced (r : DfcReader σ) (file : DfcFile) : (Option Octets × DfcReader σ) × List Ev :=
  match r.secureMessaging with
  | none => ((none, r), [.use .session .assert])
  | some sm =>
    let frame := C.buildReadDataFrame file.number 0 0
    let ev1 := C.appliesEv1 sm cmdReadData
    let sm := if ev1 then C.updateEv1Command sm cmdReadData (frame.drop 1) else sm
    let asked : List Ev := [.use .session .assert, .use .session .applies] ++
      (if ev1 then [.use .session .update] else []) ++ exchangeTraced
    let x := exchange card ⟨r.credential, some sm, r.sent⟩ frame
    match x.1 with
    | none => ((none, x.2), asked)
    | some rx =>
      let looked := asked ++ [.use .rxBuffer .look]
      if rx.length < 1 then ((none, x.2), looked)
      else
        let status := rx.headD 0
        if status ≠ statusOk then ((none, x.2), looked)
        else
          let wrapped := rx.drop 1
          let unwrapped := looked ++ [.use .session .unwrap, .use .rxBuffer .look]
          if ev1 then
            let u := C.unwrapEv1Response sm status wrapped
            let r : DfcReader σ := ⟨r.credential, some u.1, x.2.sent⟩
            match u.2 with
            | none => ((none, r), unwrapped)
            | some plain => if plain.length > C.maxFileData then ((none, r), unwrapped) else ((some plain, r), unwrapped)
          else
            let u := C.unwrap sm file.commSettings status wrapped
            let r : DfcReader σ := ⟨r.credential, some u.1, x.2.sent⟩
            if u.2.length = 0 ∧ wrapped.length > 0 ∧ file.commSettings ≠ .plain then ((none, r), unwrapped)
            else if u.2.length > C.maxFileData then ((none, r), unwrapped)
            else ((some u.2, r), unwrapped)

/-- `dfc_reader_read_file` of `files[i]`; the payload goes into the credential. -/
def readFileTraced (r : DfcReader σ) (file : DfcFile) (i : Nat) : (NfcCommand × DfcReader σ) × List Ev :=
  let f := fetchTraced C card r file
  match f.1.1 with
  | none => ((.commandStop, f.1.2), f.2)
  | some plain =>
    let k := commit C f.1.2.credential.pool i plain
    ((k.1, ⟨f.1.2.credential.setPool k.2, f.1.2.secureMessaging, f.1.2.sent⟩), f.2)

/-- The loop of `dfc_state_machine` over the files. -/
def readFilesTraced (ret : NfcCommand) (r : DfcReader σ) : List (DfcFile × Nat) → Reading σ × List Ev
  | [] => (⟨true, ret, r⟩, [])
  | (file, i) :: rest =>
    if file.appIndex ≠ 0 then readFilesTraced ret r rest
    else
      let x := readFileTraced C card r file i
      if x.1.1 = .commandStop then (⟨false, x.1.1, x.1.2⟩, x.2)
      else
        let y := readFilesTraced x.1.1 x.1.2 rest
        (y.1, x.2 ++ y.2)

/-- The body of `dfc_state_machine`. -/
def sessionTraced (random : Nat → Octets) (r : DfcReader σ) : Session σ × List Ev :=
  match r.credential.application with
  | none => (⟨.commandStop, [], r⟩, [])
  | some app =>
    let s := selectApplicationTraced C card r app.aid
    if s.1.1 = .commandStop then (⟨s.1.1, [], s.1.2⟩, s.2)
    else
      let a := authenticateTraced C card random s.1.2 0 app.authCommand
      if a.1.1 = .commandStop then (⟨a.1.1, [], a.1.2⟩, s.2 ++ a.2)
      else
        let f := readFilesTraced C card a.1.1 a.1.2 a.1.2.credential.files.zipIdx
        (if f.1.ok = false then ⟨f.1.ret, [], f.1.reader⟩ else ⟨f.1.ret, [.pollerSuccess], f.1.reader⟩,
          s.2 ++ a.2 ++ f.2)

/-- `dfc_state_machine`. -/
def stateMachineTraced (a : Allocations) (random : Nat → Octets) (c : Credential) : Outcome × List Ev :=
  let alloc := readerAllocTraced a
  if alloc.1 = false then (⟨.commandStop, [.pollerError], c⟩, alloc.2)
  else
    let x := sessionTraced C card random ⟨c, none, []⟩
    (⟨.commandStop, x.1.posts ++ (if x.1.ret = .commandStop then [.pollerError] else []), x.1.reader.credential⟩,
      alloc.2 ++ x.2 ++ readerFreeTraced x.1.reader.secureMessaging)

end Functions

/-! ## The same functions -/

section Result

variable {σ : Type} (C : Core σ) (card : Card)

theorem selectApplicationTraced_result (r : DfcReader σ) (aid : Octets) :
    (selectApplicationTraced C card r aid).1 = selectApplication C card r aid := by
  simp only [selectApplicationTraced, selectApplication]
  cases (exchange card r (C.buildSelectApplicationFrame aid)).1 with
  | none => rfl
  | some rx =>
    dsimp only
    split <;> rfl

theorem authenticateTraced_result (random : Nat → Octets) (r : DfcReader σ) (keyNo cipher : UInt8) :
    (authenticateTraced C card random r keyNo cipher).1 = authenticate C card random r keyNo cipher := by
  simp only [authenticateTraced, authenticate]
  cases r.credential.application with
  | none => rfl
  | some app =>
    dsimp only
    split
    · rfl
    cases app.key keyNo.toNat with
    | none => rfl
    | some key =>
      dsimp only
      generalize exchange card r [cipher, keyNo] = x
      rcases x with ⟨_ | rx, r₁⟩
      · rfl
      dsimp only
      split
      · rfl
      generalize exchange card r₁ _ = y
      rcases y with ⟨_ | ry, r₂⟩
      · rfl
      dsimp only
      split
      · rfl
      generalize cbcDecrypt C cipher key _ ((ry.drop 1).take _) = rot
      split
      · rfl
      generalize C.secureMessagingAlloc cipher _ _ = sm
      cases sm <;> rfl

theorem fetchTraced_result (r : DfcReader σ) (file : DfcFile) : (fetchTraced C card r file).1 = fetch C card r file := by
  simp only [fetchTraced, fetch]
  cases r.secureMessaging with
  | none => rfl
  | some sm =>
    dsimp only
    generalize (if C.appliesEv1 sm cmdReadData = true then _ else sm) = sm'
    generalize exchange card _ (C.buildReadDataFrame file.number 0 0) = x
    rcases x with ⟨_ | rx, r₁⟩
    · rfl
    dsimp only
    split
    · rfl
    split
    · rfl
    split
    · generalize C.unwrapEv1Response sm' _ _ = u
      rcases u with ⟨sm'', _ | plain⟩
      · rfl
      · dsimp only
        split <;> rfl
    · split
      · rfl
      · split <;> rfl

theorem readFileTraced_result (r : DfcReader σ) (file : DfcFile) (i : Nat) :
    (readFileTraced C card r file i).1 = readFile C card r file i := by
  simp only [readFileTraced, readFile, fetchTraced_result]
  cases (fetch C card r file).1 with
  | none => rfl
  | some plain => rfl

theorem readFilesTraced_result (ret : NfcCommand) (r : DfcReader σ) (files : List (DfcFile × Nat)) :
    (readFilesTraced C card ret r files).1 = readFiles C card ret r files := by
  induction files generalizing ret r with
  | nil => rfl
  | cons entry rest ih =>
    obtain ⟨file, i⟩ := entry
    simp only [readFilesTraced, readFiles, readFileTraced_result]
    split
    · exact ih ret r
    split
    · rfl
    · exact ih _ _

theorem sessionTraced_result (d : Device) (r : DfcReader σ) : (sessionTraced C card d.random r).1 = session C card d r := by
  simp only [sessionTraced, session]
  cases r.credential.application with
  | none => rfl
  | some app =>
    simp only [selectApplicationTraced_result, authenticateTraced_result, readFilesTraced_result]
    repeat' split
    all_goals rfl

/-- The reader is there when its three allocations are. -/
def Allocations.device (a : Allocations) (random : Nat → Octets) (uid : Option Octets) : Device :=
  ⟨a.reader && a.txBuffer && a.rxBuffer, random, uid⟩

theorem readerAllocTraced_result (a : Allocations) : (readerAllocTraced a).1 = (a.reader && a.txBuffer && a.rxBuffer) := by
  rcases a with ⟨_ | _, _ | _, _ | _⟩ <;> rfl

theorem stateMachineTraced_result (a : Allocations) (random : Nat → Octets) (uid : Option Octets) (c : Credential) :
    (stateMachineTraced C card a random c).1 = stateMachine C card (a.device random uid) c := by
  have hs : (sessionTraced C card random ⟨c, none, []⟩).1 = session C card (a.device random uid) ⟨c, none, []⟩ :=
    sessionTraced_result C card (a.device random uid) ⟨c, none, []⟩
  have ha : (readerAllocTraced a).1 = (a.device random uid).readerAlloc := readerAllocTraced_result a
  simp only [stateMachineTraced, stateMachine, ha, hs]
  split <;> rfl

end Result

/-! ## Phases along the way -/

/-- The session is freed when its key material is overwritten, and the reader when nothing
    hangs on it any more. -/
def readerRule (φ : Phases Resource) (e : Ev) : Prop :=
  (e = .release .session → φ .keyMaterial = .released) ∧
  (e = .release .reader → φ .txBuffer ≠ .held ∧ φ .rxBuffer ≠ .held ∧ φ .session ≠ .held)

instance readerRule.decidable (φ : Phases Resource) (e : Ev) : Decidable (readerRule φ e) :=
  inferInstanceAs (Decidable (_ ∧ _))

def phasesOf (session sessionKey keyMaterial : Phase) : Phases Resource
  | .reader => .held
  | .txBuffer => .held
  | .rxBuffer => .held
  | .session => session
  | .sessionKey => sessionKey
  | .keyMaterial => keyMaterial

def ready : Phases Resource := phasesOf .unborn .unborn .unborn

def refused : Phases Resource := phasesOf .unborn .released .unborn

def inSession : Phases Resource := phasesOf .held .released .held

inductive Follows {σ : Type} : Option σ → Phases Resource → Prop
  | ready : Follows none ready
  | refused : Follows none refused
  | inSession (sm : σ) : Follows (some sm) inSession

section Passing

variable {σ : Type} (C : Core σ) (card : Card) {r : DfcReader σ}

theorem selectApplication_secureMessaging (r : DfcReader σ) (aid : Octets) :
    (selectApplication C card r aid).2.secureMessaging = r.secureMessaging := by
  simp only [selectApplication]
  split
  · rfl
  · split <;> rfl

theorem selectApplicationTraced_passes (r : DfcReader σ) (aid : Octets) :
    Passes readerRule ready (selectApplicationTraced C card r aid).2 ready := by
  have hsent : Passes readerRule ready exchangeTraced ready := by decide
  have hlook : Passes readerRule ready ([.use .rxBuffer .look] : List Ev) ready := by decide
  simp only [selectApplicationTraced]
  split
  · exact hsent
  · split <;> exact hsent.append hlook

/-- A session is opened, or it is refused, or it never came to that. -/
theorem authenticateTraced_passes (hs : r.secureMessaging = none) (random : Nat → Octets) (keyNo cipher : UInt8) :
    let a := authenticateTraced C card random r keyNo cipher
    ∃ φ, Passes readerRule ready a.2 φ ∧ Follows a.1.2.secureMessaging φ ∧
      (a.1.1 = .commandContinue → a.1.2.secureMessaging ≠ none) := by
  have hsent : Passes readerRule ready exchangeTraced ready := by decide
  have hlook : Passes readerRule ready ([.use .rxBuffer .look] : List Ev) ready := by decide
  have hfirst := hsent.append hlook
  have hsecond := (hfirst.append hsent).append hlook
  have hkey : Passes readerRule ready ([.acquire .sessionKey] : List Ev) (phasesOf .unborn .held .unborn) := by decide
  have hclear : Passes readerRule (phasesOf .unborn .held .unborn) (clearSecureMessagingTraced (none : Option σ))
      (phasesOf .unborn .held .unborn) := Passes.nil
  have hcopy : Passes readerRule (phasesOf .unborn .held .unborn) ([.use .sessionKey .copy] : List Ev)
      (phasesOf .unborn .held .unborn) := by decide
  have hderived := ((hsecond.append hkey).append hclear).append hcopy
  have hrefuse : Passes readerRule (phasesOf .unborn .held .unborn) ([.release .sessionKey] : List Ev) refused := by decide
  have hopen : Passes readerRule (phasesOf .unborn .held .unborn)
      ([.acquire .session, .acquire .keyMaterial, .use .session .mark, .release .sessionKey] : List Ev) inSession := by decide
  have hidle : ∀ {x : DfcReader σ}, x.secureMessaging = none → Follows x.secureMessaging ready := by
    intro x hx
    rw [hx]
    exact .ready
  simp only [authenticateTraced]
  cases r.credential.application with
  | none => exact ⟨ready, Passes.nil, hidle hs, fun h => by cases h⟩
  | some app =>
    dsimp only
    split
    · exact ⟨ready, Passes.nil, hidle hs, fun h => by cases h⟩
    cases app.key keyNo.toNat with
    | none => exact ⟨ready, Passes.nil, hidle hs, fun h => by cases h⟩
    | some key =>
      dsimp only
      have hx : (exchange card r [cipher, keyNo]).2.secureMessaging = none := hs
      generalize exchange card r [cipher, keyNo] = x at hx
      rcases x with ⟨_ | rx, r₁⟩
      · exact ⟨ready, hsent, hidle hx, fun h => by cases h⟩
      dsimp only
      split
      · exact ⟨ready, hfirst, hidle hx, fun h => by cases h⟩
      have hy : ∀ data, (exchange card r₁ data).2.secureMessaging = none := fun _ => hx
      generalize hg : exchange card r₁ _ = y
      have hy' : y.2.secureMessaging = none := by rw [← hg]; exact hy _
      rcases y with ⟨_ | ry, r₂⟩
      · exact ⟨ready, hfirst.append hsent, hidle hy', fun h => by cases h⟩
      dsimp only
      split
      · exact ⟨ready, hsecond, hidle hy', fun h => by cases h⟩
      generalize cbcDecrypt C cipher key _ ((ry.drop 1).take _) = rot
      split
      · exact ⟨ready, hsecond, hidle hy', fun h => by cases h⟩
      generalize C.secureMessagingAlloc cipher _ _ = sm
      have hr₂ : r₂.secureMessaging = none := hy'
      rw [hr₂]
      cases sm with
      | none => exact ⟨refused, hderived.append hrefuse, .refused, fun h => by cases h⟩
      | some sm =>
        exact ⟨inSession, hderived.append hopen, .inSession _, fun _ => Option.some_ne_none _⟩

/-- A file is asked for in the session, which stays. -/
theorem fetchTraced_passes (hs : r.secureMessaging ≠ none) (file : DfcFile) :
    Passes readerRule inSession (fetchTraced C card r file).2 inSession ∧
      (fetchTraced C card r file).1.2.secureMessaging ≠ none := by
  have hassert : Passes readerRule inSession ([.use .session .assert, .use .session .applies] : List Ev) inSession := by decide
  have hupdate : ∀ ev1 : Bool,
      Passes readerRule inSession (if ev1 = true then [.use .session .update] else []) inSession := by decide
  have hsent : Passes readerRule inSession exchangeTraced inSession := by decide
  have hlook : Passes readerRule inSession ([.use .rxBuffer .look] : List Ev) inSession := by decide
  have hunwrap : Passes readerRule inSession ([.use .session .unwrap, .use .rxBuffer .look] : List Ev) inSession := by decide
  cases hsm : r.secureMessaging with
  | none => exact absurd hsm hs
  | some sm =>
    have hasked := (hassert.append (hupdate (C.appliesEv1 sm cmdReadData))).append hsent
    simp only [fetchTraced, hsm, exchange]
    generalize ([.use .session .assert, .use .session .applies] ++ _ ++ exchangeTraced : List Ev) = asked at hasked ⊢
    have hunwrapped := (hasked.append hlook).append hunwrap
    generalize (if C.appliesEv1 sm cmdReadData = true then C.updateEv1Command sm cmdReadData _ else sm) = sm'
    split
    · exact ⟨hasked, Option.some_ne_none _⟩
    split
    · exact ⟨hasked.append hlook, Option.some_ne_none _⟩
    split
    · exact ⟨hasked.append hlook, Option.some_ne_none _⟩
    split
    · split
      · exact ⟨hunwrapped, Option.some_ne_none _⟩
      · split <;> exact ⟨hunwrapped, Option.some_ne_none _⟩
    · split
      · exact ⟨hunwrapped, Option.some_ne_none _⟩
      · split <;> exact ⟨hunwrapped, Option.some_ne_none _⟩

theorem readFileTraced_passes (hs : r.secureMessaging ≠ none) (file : DfcFile) (i : Nat) :
    Passes readerRule inSession (readFileTraced C card r file i).2 inSession ∧
      (readFileTraced C card r file i).1.2.secureMessaging ≠ none := by
  have hf := fetchTraced_passes C card hs file
  simp only [readFileTraced]
  split
  · exact hf
  · exact hf

theorem readFilesTraced_passes (files : List (DfcFile × Nat)) (ret : NfcCommand) (hs : r.secureMessaging ≠ none) :
    Passes readerRule inSession (readFilesTraced C card ret r files).2 inSession ∧
      (readFilesTraced C card ret r files).1.reader.secureMessaging ≠ none := by
  induction files generalizing ret r with
  | nil => exact ⟨Passes.nil, hs⟩
  | cons entry rest ih =>
    obtain ⟨file, i⟩ := entry
    obtain ⟨hp, hs'⟩ := readFileTraced_passes C card hs file i
    simp only [readFilesTraced]
    split
    · exact ih ret hs
    split
    · exact ⟨hp, hs'⟩
    · obtain ⟨hp', hs''⟩ := ih (readFileTraced C card r file i).1.1 hs'
      exact ⟨hp.append hp', hs''⟩

theorem follows_eq {sm : Option σ} {φ : Phases Resource} (h : Follows sm φ) (hs : sm ≠ none) : φ = inSession := by
  cases h with
  | ready => exact absurd rfl hs
  | refused => exact absurd rfl hs
  | inSession => rfl

theorem follows_inSession {sm : Option σ} (h : sm ≠ none) : Follows sm inSession := by
  cases sm with
  | none => exact absurd rfl h
  | some sm => exact .inSession sm

theorem sessionTraced_passes (random : Nat → Octets) (c : Credential) :
    let x := sessionTraced C card random ⟨c, none, []⟩
    ∃ φ, Passes readerRule ready x.2 φ ∧ Follows x.1.reader.secureMessaging φ := by
  simp only [sessionTraced]
  cases c.application with
  | none => exact ⟨ready, Passes.nil, .ready⟩
  | some app =>
    dsimp only
    have hselect := selectApplicationTraced_passes C card ⟨c, none, []⟩ app.aid
    have hnone : (selectApplicationTraced C card ⟨c, none, []⟩ app.aid).1.2.secureMessaging = none := by
      rw [selectApplicationTraced_result]
      exact selectApplication_secureMessaging C card ⟨c, none, []⟩ app.aid
    obtain ⟨φ, hauth, hfollows, hopen⟩ := authenticateTraced_passes C card hnone random 0 app.authCommand
    split
    · refine ⟨ready, hselect, ?_⟩
      show Follows (selectApplicationTraced C card ⟨c, none, []⟩ app.aid).1.2.secureMessaging ready
      rw [hnone]
      exact .ready
    split
    · exact ⟨φ, hselect.append hauth, hfollows⟩
    · rename_i hcontinue
      have hs := hopen (ne_stop.mp hcontinue)
      obtain rfl := follows_eq hfollows hs
      obtain ⟨hread, hs'⟩ := readFilesTraced_passes C card
        (authenticateTraced C card random _ 0 app.authCommand).1.2.credential.files.zipIdx _ hs
      refine ⟨inSession, (hselect.append hauth).append hread, ?_⟩
      split <;> exact follows_inSession hs'

/-- The end of a read frees what is there. -/
theorem readerFreeTraced_passes {sm : Option σ} {φ : Phases Resource} (h : Follows sm φ) :
    ∃ φ', Passes readerRule φ (readerFreeTraced sm) φ' ∧ Idle φ' := by
  let freed : List Ev := [.release .txBuffer, .release .rxBuffer, .release .reader]
  let wiped : List Ev := [.release .txBuffer, .release .rxBuffer, .release .keyMaterial, .release .session, .release .reader]
  cases h with
  | ready => exact ⟨_, (by decide : Passes readerRule ready freed (freed.foldl advance ready)), by decide⟩
  | refused => exact ⟨_, (by decide : Passes readerRule refused freed (freed.foldl advance refused)), by decide⟩
  | inSession => exact ⟨_, (by decide : Passes readerRule inSession wiped (wiped.foldl advance inSession)), by decide⟩

theorem readerAllocTraced_passes (a : Allocations) :
    ((readerAllocTraced a).1 = true ∧ Passes readerRule unborn (readerAllocTraced a).2 ready) ∨
    ((readerAllocTraced a).1 = false ∧ Orderly readerRule (readerAllocTraced a).2) := by
  have hrefused : ∀ r t x : Bool, (r && t && x) = false →
      Passes readerRule unborn (readerAllocTraced ⟨r, t, x⟩).2 ((readerAllocTraced ⟨r, t, x⟩).2.foldl advance unborn) ∧
        Idle ((readerAllocTraced ⟨r, t, x⟩).2.foldl advance unborn) := by decide
  obtain ⟨r, t, x⟩ := a
  rw [readerAllocTraced_result]
  cases hall : r && t && x with
  | true =>
    obtain ⟨⟨rfl, rfl⟩, rfl⟩ : (r = true ∧ t = true) ∧ x = true := by simpa using hall
    exact Or.inl ⟨rfl, by decide⟩
  | false => exact Or.inr ⟨rfl, _, hrefused r t x hall⟩

theorem stateMachineTraced_orderly (a : Allocations) (random : Nat → Octets) (c : Credential) :
    Orderly readerRule (stateMachineTraced C card a random c).2 := by
  simp only [stateMachineTraced]
  rcases readerAllocTraced_passes a with ⟨ha, hp⟩ | ⟨ha, ho⟩
  · obtain ⟨φ, hs, hf⟩ := sessionTraced_passes C card random c
    obtain ⟨φ', hfree, hidle⟩ := readerFreeTraced_passes hf
    rw [if_neg (by rw [ha]; decide)]
    exact ⟨φ', (hp.append hs).append hfree, hidle⟩
  · rw [if_pos ha]
    exact ho

end Passing

/-! ## Every exit -/

/-- On every exit of a read: the outcome is that of the reader without a trace; each resource
    and each secret acquired is released once; nothing is used that is not held, so the
    assertion of `dfc_reader_read_file` holds; the session is freed overwritten, and the
    reader last of all that hangs on it. -/
theorem read_returned {σ : Type} (C : Core σ) (card : Card) (a : Allocations) (random : Nat → Octets) (uid : Option Octets)
    (c : Credential) :
    let x := stateMachineTraced C card a random c
    x.1 = stateMachine C card (a.device random uid) c ∧
    (∀ r, .acquire r ∈ x.2 → x.2.count (.acquire r) = 1 ∧ x.2.count (.release r) = 1) ∧
    (∀ pre r op, pre ++ [.use r op] <+: x.2 → .acquire r ∈ pre ∧ .release r ∉ pre) ∧
    (∀ pre, pre ++ [.release .session] <+: x.2 → .release .keyMaterial ∈ pre) ∧
    ∀ pre r, pre ++ [.release .reader] <+: x.2 → r ∈ [.txBuffer, .rxBuffer, .session] → .acquire r ∈ pre →
      .release r ∈ pre := by
  intro x
  have ho : Orderly readerRule x.2 := stateMachineTraced_orderly C card a random c
  refine ⟨stateMachineTraced_result C card a random uid c, fun r ha => ho.released_once ha,
    fun pre r op hp => ho.used_while_held hp, fun pre hp => ?_, fun pre r hp hr ha => ?_⟩
  · obtain ⟨φ, hpass, hrule, _⟩ := ho.ruled hp
    exact release_mem hpass (hrule rfl)
  · obtain ⟨φ, hpass, _, hrule⟩ := ho.ruled hp
    obtain ⟨htx, hrx, hsession⟩ := hrule rfl
    have hheld : φ r ≠ .held := by
      simp only [List.mem_cons, List.not_mem_nil, or_false] at hr
      rcases hr with rfl | rfl | rfl
      · exact htx
      · exact hrx
      · exact hsession
    cases hφ : φ r with
    | unborn => exact absurd hφ (acquire_born hpass ha)
    | held => exact absurd hφ hheld
    | released => exact release_mem hpass hφ

end DfcFlipper.Reader
