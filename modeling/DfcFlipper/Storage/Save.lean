/-
  DfcFlipper.Storage.Save — `dfc_credential_write_file`, `dfc_credential_save` and
  `dfc_credential_save_loaded` (dfc_credential_storage.c).

  The export codec is a parameter (`TextExport`), and so is what each call of a save comes
  back with (`SaveDevice`): the plugin's loading, the text buffer, the opening of the file
  and how many octets the medium takes. The file is opened with `FSOM_CREATE_ALWAYS`, so
  it is empty before the first octet is written.

  A save that fails before the file is open leaves the storage alone. One that writes
  short leaves the octets it wrote in the place of the old contents.

  - `writeFile_cases`: the three things a call can do.
  - `writeFile_put`: without a short write it is an atomic write at its path.
  - `failed_save_iff`: a failed save leaves every file as it was unless it is a short
    write, and leaves `load_path` and the credential alone in any case.
-/

import DfcFlipper.Lib.Frame
import DfcFlipper.Storage.Core

namespace DfcFlipper.Storage

open DfcFlipper.Lib.Bytes DfcFlipper.Lib.Frame

variable {n : Nat} {β : Type}

/-! ## The functions -/

/-- `write` of the export plugin, in its two uses: without a buffer it gives the length
needed, with one of the given size it fills it. -/
structure TextExport (n : Nat) (β : Type) where
  measure : Credential n β → CodecStatus × Nat
  render : Credential n β → Nat → CodecStatus × Octets

structure SaveDevice where
  plugin : PluginDevice
  mallocText : Bool
  /-- `storage_file_open(.., FSAM_WRITE, FSOM_CREATE_ALWAYS)`. -/
  openWrite : Bool
  /-- The octets `storage_file_write` stores before the medium is full. -/
  accepts : Nat

structure Written where
  saved : Bool
  files : Files
  /-- The storage error shown, if any. -/
  shown : Option String

def canNotSave : String := "Can not save\nfile"

/-- The codec's part of a save: the text to be stored, or nothing when a check fails. -/
def renderText (K : TextExport n β) (d : SaveDevice) (c : Credential n β) : Option Octets :=
  if textCodecOpen d.plugin = false then none
  else
    let measured := K.measure c
    if measured.1 ≠ .capacity ∧ measured.1 ≠ .ok then none
    else if measured.2 > flipperCredentialMaxSize then none
    else if d.mallocText = false then none
    else
      let rendered := K.render c (measured.2 + 1)
      if rendered.1 ≠ .ok then none else some rendered.2

/-- `dfc_credential_write_file`. -/
def writeFile (K : TextExport n β) (d : SaveDevice) (files : Files) (c : Credential n β) (path : Path) : Written :=
  match renderText K d c with
  | none => ⟨false, files, some canNotSave⟩
  | some text =>
    if d.openWrite = false then ⟨false, files, some canNotSave⟩
    else
      let stored := text.take d.accepts
      if stored.length ≠ text.length then ⟨false, Function.update files path (some stored), some canNotSave⟩
      else ⟨true, Function.update files path (some stored), none⟩

structure Saving (n : Nat) (β : Type) where
  saved : Bool
  store : Store
  credential : Credential n β
  shown : Option String

/-- What both saves do with the outcome of the write: on success the path becomes
`load_path` and the credential is clean. -/
def saveAt (K : TextExport n β) (d : SaveDevice) (s : Store) (c : Credential n β) (path : Path) : Saving n β :=
  let w := writeFile K d s.files c path
  if w.saved then ⟨true, ⟨path, w.files⟩, c.clearDirty, w.shown⟩ else ⟨false, ⟨s.loadPath, w.files⟩, c, w.shown⟩

/-- The path `dfc_credential_save` writes. -/
def savePath (sdk : PathSdk) (loadPath devName : Path) : Path :=
  if loadPath ≠ [] then fileIn (sdk.extractDirname loadPath) devName else fileIn appDataPathPrefix devName

/-- `dfc_credential_save`. -/
def credentialSave (sdk : PathSdk) (K : TextExport n β) (d : SaveDevice) (s : Store) (c : Credential n β)
    (devName : Path) : Saving n β :=
  saveAt K d s c (savePath sdk s.loadPath devName)

/-- The path `dfc_credential_save_loaded` writes: text beside the octets it was loaded from. -/
def textPath (loadPath : Path) : Path :=
  if endWith loadPath binaryExtension then
    loadPath.take (loadPath.length - binaryExtension.length) ++ appExtension
  else loadPath

/-- `dfc_credential_save_loaded`. -/
def credentialSaveLoaded (K : TextExport n β) (d : SaveDevice) (s : Store) (c : Credential n β) : Saving n β :=
  if s.loadPath = [] then ⟨false, s, c, none⟩ else saveAt K d s c (textPath s.loadPath)

/-! ## Paths -/

theorem savePath_ne_nil (sdk : PathSdk) (loadPath devName : Path) : savePath sdk loadPath devName ≠ [] := by
  unfold savePath
  split <;> exact fileIn_ne_nil _ _

@[simp] theorem textPath_binary (base : Path) : textPath (base ++ binaryExtension) = base ++ appExtension := by
  have he : endWith (base ++ binaryExtension) binaryExtension = true := endWith_iff.mpr ⟨base, rfl⟩
  rw [textPath, if_pos he]
  simp

theorem textPath_of_not_binary {p : Path} (h : endWith p binaryExtension = false) : textPath p = p := by
  simp [textPath, h]

theorem textPath_ne_nil {p : Path} (hp : p ≠ []) : textPath p ≠ [] := by
  unfold textPath
  split
  · simp [appExtension]
  · exact hp

/-- The text goes to another file exactly when the octets were compiled. -/
theorem textPath_eq_iff {p : Path} : textPath p = p ↔ endWith p binaryExtension = false := by
  constructor
  · intro h
    rw [Bool.eq_false_iff]
    intro he
    obtain ⟨base, rfl⟩ := endWith_iff.mp he
    rw [textPath_binary] at h
    simpa [appExtension, binaryExtension] using congrArg List.length h
  · exact textPath_of_not_binary

/-! ## What a write does -/

section Write

variable {K : TextExport n β} {d : SaveDevice} {c : Credential n β}

structure Renders (K : TextExport n β) (d : SaveDevice) (c : Credential n β) (text : Octets) : Prop where
  codec : textCodecOpen d.plugin = true
  measured : (K.measure c).1 = .capacity ∨ (K.measure c).1 = .ok
  small : (K.measure c).2 ≤ flipperCredentialMaxSize
  buffer : d.mallocText = true
  rendered : K.render c ((K.measure c).2 + 1) = (.ok, text)

theorem renderText_eq_some {text : Octets} : renderText K d c = some text ↔ Renders K d c text := by
  constructor
  · intro h
    simp only [renderText] at h
    split at h
    · cases h
    rename_i hc
    split at h
    · cases h
    rename_i hm
    split at h
    · cases h
    rename_i hs
    split at h
    · cases h
    rename_i hb
    split at h
    · cases h
    rename_i hr
    refine ⟨by simpa using hc, ?_, by omega, by simpa using hb, ?_⟩
    · by_cases hk : (K.measure c).1 = .capacity
      · exact Or.inl hk
      · exact Or.inr (Classical.not_not.mp fun ho => hm ⟨hk, ho⟩)
    · exact Prod.ext (Classical.not_not.mp hr) (Option.some.inj h)
  · intro h
    have hm : ¬((K.measure c).1 ≠ .capacity ∧ (K.measure c).1 ≠ .ok) := by
      intro hne
      rcases h.measured with hk | ho
      · exact hne.1 hk
      · exact hne.2 ho
    simp only [renderText]
    rw [if_neg (by simp [h.codec]), if_neg hm, if_neg (by have := h.small; omega), if_neg (by simp [h.buffer]),
      h.rendered, if_neg (by simp)]

variable {files : Files} {path : Path}

/-- A save fails with the storage as it was, fails having written short, or succeeds. -/
theorem writeFile_cases (K : TextExport n β) (d : SaveDevice) (files : Files) (c : Credential n β) (path : Path) :
    ((∀ text, Renders K d c text → d.openWrite = false) ∧
      writeFile K d files c path = ⟨false, files, some canNotSave⟩) ∨
    (∃ text, Renders K d c text ∧ d.openWrite = true ∧ d.accepts < text.length ∧
      writeFile K d files c path =
        ⟨false, Function.update files path (some (text.take d.accepts)), some canNotSave⟩) ∨
    (∃ text, Renders K d c text ∧ d.openWrite = true ∧ text.length ≤ d.accepts ∧
      writeFile K d files c path = ⟨true, Function.update files path (some text), none⟩) := by
  cases hr : renderText K d c with
  | none =>
    refine Or.inl ⟨fun text h => ?_, by simp [writeFile, hr]⟩
    rw [renderText_eq_some.mpr h] at hr
    cases hr
  | some text =>
    have hR := renderText_eq_some.mp hr
    by_cases ho : d.openWrite = true
    · by_cases hl : d.accepts < text.length
      · refine Or.inr (Or.inl ⟨text, hR, ho, hl, ?_⟩)
        have hne : (text.take d.accepts).length ≠ text.length := by rw [List.length_take]; omega
        simp only [writeFile, hr, ho, Bool.true_eq_false, if_false, if_pos hne]
      · refine Or.inr (Or.inr ⟨text, hR, ho, by omega, ?_⟩)
        have he : text.take d.accepts = text := List.take_of_length_le (by omega)
        simp [writeFile, hr, ho, he]
    · exact Or.inl ⟨fun _ _ => by simpa using ho, by simp [writeFile, hr, ho]⟩

/-- A write touches its own path only, whatever its outcome. -/
theorem writeFile_changedOnly (K : TextExport n β) (d : SaveDevice) (files : Files) (c : Credential n β)
    (path : Path) : ChangedOnly {path} files (writeFile K d files c path).files := by
  rcases writeFile_cases K d files c path with ⟨_, h⟩ | ⟨text, _, _, _, h⟩ | ⟨text, _, _, _, h⟩ <;> rw [h]
  · exact ChangedOnly.refl _ _
  · exact update_changedOnly _ _ _
  · exact update_changedOnly _ _ _

/-! ## Short writes -/

/-- The medium is full before the text is stored, and what it took is not by chance what
the file already held. -/
structure ShortWrite (K : TextExport n β) (d : SaveDevice) (files : Files) (c : Credential n β) (path : Path)
    (text : Octets) : Prop where
  renders : Renders K d c text
  opened : d.openWrite = true
  short : d.accepts < text.length
  differs : files path ≠ some (text.take d.accepts)

/-- Without a short write, a save is an atomic write of the text. -/
theorem writeFile_put (h : ∀ text, ¬ShortWrite K d files c path text) :
    ∃ text, Put path (some text) files (writeFile K d files c path).saved (writeFile K d files c path).files := by
  rcases writeFile_cases K d files c path with ⟨_, hw⟩ | ⟨text, hR, ho, hl, hw⟩ | ⟨text, hR, ho, hl, hw⟩ <;> rw [hw]
  · exact ⟨[], Put.failed⟩
  · have hsame : files path = some (text.take d.accepts) :=
      Classical.not_not.mp fun hne => h text ⟨hR, ho, hl, hne⟩
    rw [← hsame, Function.update_eq_self]
    exact ⟨[], Put.failed⟩
  · exact ⟨text, Put.done⟩

theorem writeFile_of_short {text : Octets} (h : ShortWrite K d files c path text) :
    writeFile K d files c path = ⟨false, Function.update files path (some (text.take d.accepts)), some canNotSave⟩ := by
  have hr : renderText K d c = some text := renderText_eq_some.mpr h.renders
  have hne : (text.take d.accepts).length ≠ text.length := by
    have := h.short
    rw [List.length_take]; omega
  simp only [writeFile, hr, h.opened, Bool.true_eq_false, if_false, if_pos hne]

/-- A short write is a failed save that changed the file. -/
theorem writeFile_short {text : Octets} (h : ShortWrite K d files c path text) :
    (writeFile K d files c path).saved = false ∧ (writeFile K d files c path).files ≠ files := by
  rw [writeFile_of_short h]
  refine ⟨rfl, fun he => h.differs ?_⟩
  simp only at he
  rw [← congrFun he path, Function.update_self]

theorem writeFile_failed_iff :
    ((writeFile K d files c path).saved = false → (writeFile K d files c path).files = files) ↔
      ∀ text, ¬ShortWrite K d files c path text := by
  constructor
  · intro h text hs
    exact (writeFile_short hs).2 (h (writeFile_short hs).1)
  · intro h hf
    obtain ⟨text, hp⟩ := writeFile_put h
    rw [hf] at hp
    exact hp.eq_of_failed

end Write

/-! ## What a save does -/

section Save

variable {K : TextExport n β} {d : SaveDevice} {s : Store} {c : Credential n β} {path : Path}

@[simp] theorem saveAt_saved : (saveAt K d s c path).saved = (writeFile K d s.files c path).saved := by
  cases h : (writeFile K d s.files c path).saved <;> simp [saveAt, h]

@[simp] theorem saveAt_files : (saveAt K d s c path).store.files = (writeFile K d s.files c path).files := by
  cases h : (writeFile K d s.files c path).saved <;> simp [saveAt, h]

theorem saveAt_failed (h : (saveAt K d s c path).saved = false) :
    (saveAt K d s c path).store.loadPath = s.loadPath ∧ (saveAt K d s c path).credential = c := by
  rw [saveAt_saved] at h
  simp [saveAt, h]

/-- A save that returns true has the text in the file `load_path` names. -/
theorem saveAt_done (h : (saveAt K d s c path).saved = true) :
    (saveAt K d s c path).store.loadPath = path ∧ (saveAt K d s c path).credential = c.clearDirty ∧
      ∃ text, Renders K d c text ∧ (saveAt K d s c path).store.files = Function.update s.files path (some text) := by
  rw [saveAt_saved] at h
  refine ⟨by simp [saveAt, h], by simp [saveAt, h], ?_⟩
  rw [saveAt_files]
  rcases writeFile_cases K d s.files c path with ⟨_, hw⟩ | ⟨_, _, _, _, hw⟩ | ⟨text, hR, _, _, hw⟩
  · rw [hw] at h; cases h
  · rw [hw] at h; cases h
  · exact ⟨text, hR, by rw [hw]⟩

theorem saveAt_stored (h : (saveAt K d s c path).saved = true) :
    (saveAt K d s c path).store.loadPath = path ∧ (saveAt K d s c path).credential = c.clearDirty ∧
      ∃ text, Renders K d c text ∧
        (saveAt K d s c path).store.files (saveAt K d s c path).store.loadPath = some text := by
  obtain ⟨hp, hc, text, hR, hf⟩ := saveAt_done h
  refine ⟨hp, hc, text, hR, ?_⟩
  rw [hp, hf, Function.update_self]

theorem saveAt_failed_iff :
    ((saveAt K d s c path).saved = false →
        (saveAt K d s c path).store.files = s.files ∧ (saveAt K d s c path).store.loadPath = s.loadPath ∧
          (saveAt K d s c path).credential = c) ↔
      ∀ text, ¬ShortWrite K d s.files c path text := by
  rw [← writeFile_failed_iff]
  constructor
  · intro h hf
    have := (h (by rw [saveAt_saved]; exact hf)).1
    rwa [saveAt_files] at this
  · intro h hf
    refine ⟨?_, saveAt_failed hf⟩
    rw [saveAt_files]
    exact h (by rwa [saveAt_saved] at hf)

theorem loadPath_ne_nil_of_saved (h : (credentialSaveLoaded K d s c).saved = true) : s.loadPath ≠ [] := by
  intro hp
  rw [credentialSaveLoaded, if_pos hp] at h
  cases h

theorem credentialSaveLoaded_eq (h : (credentialSaveLoaded K d s c).saved = true) :
    credentialSaveLoaded K d s c = saveAt K d s c (textPath s.loadPath) := by
  rw [credentialSaveLoaded, if_neg (loadPath_ne_nil_of_saved h)]

theorem credentialSaveLoaded_done (h : (credentialSaveLoaded K d s c).saved = true) :
    (credentialSaveLoaded K d s c).store.loadPath = textPath s.loadPath ∧
      (credentialSaveLoaded K d s c).credential = c.clearDirty ∧
      ∃ text, Renders K d c text ∧
        (credentialSaveLoaded K d s c).store.files (credentialSaveLoaded K d s c).store.loadPath = some text := by
  have he := credentialSaveLoaded_eq h
  rw [he] at h ⊢
  exact saveAt_stored h

theorem credentialSaveLoaded_failed (h : (credentialSaveLoaded K d s c).saved = false) :
    (credentialSaveLoaded K d s c).store.loadPath = s.loadPath ∧ (credentialSaveLoaded K d s c).credential = c := by
  by_cases hp : s.loadPath = []
  · simp [credentialSaveLoaded, hp]
  · rw [credentialSaveLoaded, if_neg hp] at h ⊢
    exact saveAt_failed h

/-- Update File touches the text form of `load_path` only. -/
theorem credentialSaveLoaded_changedOnly (K : TextExport n β) (d : SaveDevice) (s : Store) (c : Credential n β) :
    ChangedOnly {textPath s.loadPath} s.files (credentialSaveLoaded K d s c).store.files := by
  by_cases hp : s.loadPath = []
  · rw [credentialSaveLoaded, if_pos hp]
    exact ChangedOnly.refl _ _
  · rw [credentialSaveLoaded, if_neg hp, saveAt_files]
    exact writeFile_changedOnly K d s.files c _

end Save

/-! ## A failed save -/

/-- A failed save leaves the storage as it was exactly when it is no short write; `load_path`
and the credential it leaves alone in any case. -/
theorem failed_save_iff (sdk : PathSdk) (K : TextExport n β) (d : SaveDevice) (s : Store) (c : Credential n β)
    (path devName : Path) :
    (((writeFile K d s.files c path).saved = false → (writeFile K d s.files c path).files = s.files) ↔
      ∀ text, ¬ShortWrite K d s.files c path text) ∧
    (((credentialSave sdk K d s c devName).saved = false →
        (credentialSave sdk K d s c devName).store.files = s.files ∧
        (credentialSave sdk K d s c devName).store.loadPath = s.loadPath ∧
        (credentialSave sdk K d s c devName).credential = c) ↔
      ∀ text, ¬ShortWrite K d s.files c (savePath sdk s.loadPath devName) text) ∧
    (((credentialSaveLoaded K d s c).saved = false →
        (credentialSaveLoaded K d s c).store.files = s.files ∧
        (credentialSaveLoaded K d s c).store.loadPath = s.loadPath ∧
        (credentialSaveLoaded K d s c).credential = c) ↔
      (s.loadPath ≠ [] → ∀ text, ¬ShortWrite K d s.files c (textPath s.loadPath) text)) := by
  refine ⟨writeFile_failed_iff, saveAt_failed_iff, ?_⟩
  by_cases hp : s.loadPath = []
  · simp [credentialSaveLoaded, hp]
  · simp only [credentialSaveLoaded, if_neg hp]
    rw [saveAt_failed_iff]
    exact ⟨fun h _ => h, fun h => h hp⟩

def constExport (text : Octets) : TextExport n β where
  measure _ := (.capacity, text.length)
  render _ _ := (.ok, text)

/-- A device on which everything works until the medium has taken `accepts` octets. -/
def workingSave (accepts : Nat) : SaveDevice := ⟨.working, true, true, accepts⟩

theorem constExport_renders {text : Octets} (h : text.length ≤ flipperCredentialMaxSize) (accepts : Nat)
    (c : Credential n β) : Renders (constExport text) (workingSave accepts) c text :=
  ⟨rfl, Or.inl rfl, h, rfl, rfl⟩

/-- `Update File` on a full card: the save fails, and the only copy is down to what fitted. -/
theorem update_file_truncates :
    let file : Path := ['/', 'a', '.', 'd', 'f', 'c']
    let s : Store := ⟨file, Function.update (fun _ => none) file (some [0x46, 0x69, 0x6C, 0x65])⟩
    let c : Credential 1 Unit := ⟨⟨['a'], by decide⟩, ⟨[0x04], [], ()⟩, true⟩
    let r := credentialSaveLoaded (constExport [0x46, 0x69, 0x6C, 0x65, 0x74]) (workingSave 2) s c
    r.saved = false ∧ s.files file = some [0x46, 0x69, 0x6C, 0x65] ∧ r.store.files file = some [0x46, 0x69] := by
  decide

end DfcFlipper.Storage
