/-
  DfcFlipper.Storage.Overwrite — which files a save can replace: the Save Name scene
  (scenes/dfc_scene_save_name.c) and the three path rules of dfc_credential_storage.c.

  Save Name accepts the credential's present name unseen, and any other name of which the
  folder has no file. The path it checked is the path that is written
  (`checked_path_is_written`). What can go wrong is the path that nobody checked:

  - a save over a compiled credential goes to the text file beside it, there or not;
  - the present name is the base name of `load_path` cut to the capacity of a name, and
    its file is the text file of that name: another file than `load_path` when the
    octets were compiled or the base name is too long (`own_path_iff`).

  `saving_keeps_others_iff`: in these cases, with a file there, another credential can be
  lost; in every other case none is.
-/

import DfcFlipper.Storage.Save

namespace DfcFlipper.Storage

open DfcFlipper.Lib.Bytes DfcFlipper.Lib.Frame

variable {n : Nat} {β : Type}

/-! ## The Save Name scene -/

/-- `validator_is_file_callback`. -/
def validatorIsFile (files : Files) (folder currentName text : Path) : Bool :=
  text == currentName || (files (fileIn folder text)).isNone

/-- The folder `dfc_scene_save_name_on_enter` gives the validator. -/
def saveNameFolder (sdk : PathSdk) (loadPath : Path) : Path :=
  if endWith loadPath appExtension || endWith loadPath binaryExtension then sdk.extractDirname loadPath
  else appDataPathPrefix

/-- `dfc_scene_save_name_on_enter`: the names its text input accepts. -/
def saveNameAccepts (sdk : PathSdk) (s : Store) (c : Credential n β) (text : Name n) : Bool :=
  validatorIsFile s.files (saveNameFolder sdk s.loadPath) c.name.chars text.chars

/-- `dfc_scene_save_name_on_event`, `DfcCustomEventTextInputDone`: the save it asks for. -/
def saveNameDone (sdk : PathSdk) (K : TextExport n β) (d : SaveDevice) (s : Store) (c : Credential n β)
    (textStore : Name n) : Saving n β :=
  credentialSave sdk K d s { c with name := Name.copy n textStore.chars } textStore.chars

section SaveName

variable {sdk : PathSdk} {K : TextExport n β} {d : SaveDevice} {s : Store} {c : Credential n β} {text : Name n}

theorem saveNameDone_done (h : (saveNameDone sdk K d s c text).saved = true) :
    (saveNameDone sdk K d s c text).store.loadPath = savePath sdk s.loadPath text.chars ∧
      (saveNameDone sdk K d s c text).credential = { c with name := text }.clearDirty ∧
      ∃ octets, Renders K d { c with name := text } octets ∧
        (saveNameDone sdk K d s c text).store.files (saveNameDone sdk K d s c text).store.loadPath = some octets := by
  rw [saveNameDone, Name.copy_self] at h ⊢
  exact saveAt_stored h

theorem saveNameDone_failed (h : (saveNameDone sdk K d s c text).saved = false) :
    (saveNameDone sdk K d s c text).store.loadPath = s.loadPath :=
  (saveAt_failed h).1

end SaveName

/-- The load paths the application can have: none, or a file of either extension. -/
def KnownPath (p : Path) : Prop := p = [] ∨ endWith p appExtension = true ∨ endWith p binaryExtension = true

instance (p : Path) : Decidable (KnownPath p) := inferInstanceAs (Decidable (_ ∨ _ ∨ _))

theorem checked_path_is_written (sdk : PathSdk) {loadPath : Path} (h : KnownPath loadPath) (text : Path) :
    fileIn (saveNameFolder sdk loadPath) text = savePath sdk loadPath text := by
  have hnil : ∀ ext : Path, ext ≠ [] → endWith [] ext = false := by
    intro ext he
    rw [Bool.eq_false_iff]
    intro hw
    obtain ⟨base, hb⟩ := endWith_iff.mp hw
    exact he (List.append_eq_nil_iff.mp hb.symm).2
  by_cases hp : loadPath = []
  · subst hp
    simp [saveNameFolder, savePath, hnil appExtension (by decide), hnil binaryExtension (by decide)]
  · have he : endWith loadPath appExtension = true ∨ endWith loadPath binaryExtension = true := by
      rcases h with h | h
      · exact absurd h hp
      · exact h
    have hor : (endWith loadPath appExtension || endWith loadPath binaryExtension) = true := by
      rcases he with h | h <;> simp [h]
    rw [saveNameFolder, if_pos hor, savePath, if_pos hp]

/-! ## Replacing a file -/

def KeepsOthers (origin : Path) (files files' : Files) : Prop :=
  ∀ p, p ≠ origin → files p ≠ none → files' p = files p

theorem ChangedOnly.keepsOthers {path origin : Path} {files files' : Files} (hc : ChangedOnly {path} files files')
    (h : path = origin ∨ files path = none) : KeepsOthers origin files files' := by
  intro p hp hf
  refine hc p ?_
  rintro rfl
  rcases h with h | h
  · exact hp h
  · exact hf h

/-- Some credential and some medium put other octets into any file that is written. -/
theorem exists_save_replaces (s : Store) (c : Credential n β) {path : Path} {old : Octets}
    (h : s.files path = some old) :
    ∃ K d, (saveAt (n := n) (β := β) K d s c path).store.files path ≠ s.files path := by
  obtain ⟨text, hne, hl⟩ : ∃ text : Octets, text ≠ old ∧ text.length ≤ 1 := by
    by_cases ho : old = []
    · exact ⟨[0], by rw [ho]; simp, by simp⟩
    · exact ⟨[], fun he => ho he.symm, by simp⟩
  have hR : Renders (constExport text) (workingSave 1) c text :=
    constExport_renders (Nat.le_trans hl (by decide)) 1 c
  refine ⟨constExport text, workingSave 1, ?_⟩
  rw [saveAt_files]
  rcases writeFile_cases (constExport text) (workingSave 1) s.files c path with
    ⟨hno, _⟩ | ⟨t, ht, _, hlt, _⟩ | ⟨t, ht, _, _, hw⟩
  · exact absurd (hno text hR) (by decide)
  · have : t = text := congrArg Prod.snd (ht.rendered.symm.trans hR.rendered)
    subst this
    exact absurd hlt (by simp only [workingSave]; omega)
  · have : t = text := congrArg Prod.snd (ht.rendered.symm.trans hR.rendered)
    subst this
    rw [hw, h]
    simpa [Function.update_self] using hne

/-- A save at `path` spares every other credential exactly when `path` is the credential's
own file or no file at all. -/
theorem saveAt_keepsOthers_iff (s : Store) (c : Credential n β) (path : Path) :
    (∀ K d, KeepsOthers s.loadPath s.files (saveAt (n := n) (β := β) K d s c path).store.files) ↔
      ¬(path ≠ s.loadPath ∧ s.files path ≠ none) := by
  constructor
  · intro h hex
    rcases hex with ⟨hp, hf⟩
    obtain ⟨old, ho⟩ := Option.ne_none_iff_exists'.mp hf
    obtain ⟨K, d, hr⟩ := exists_save_replaces s c ho
    exact hr (h K d path hp hf)
  · intro h K d
    have hc : ChangedOnly {path} s.files (saveAt K d s c path).store.files := by
      rw [saveAt_files]
      exact writeFile_changedOnly K d s.files c path
    apply ChangedOnly.keepsOthers hc
    by_cases hp : path = s.loadPath
    · exact Or.inl hp
    · exact Or.inr (Classical.not_not.mp fun hf => h ⟨hp, hf⟩)

/-- Every save, from Update File or through Save Name, spares the files of other credentials
exactly when it does not go to the unchecked path of a file that is there. -/
theorem saving_keeps_others_iff (sdk : PathSdk) (s : Store) (c : Credential n β) :
    ((∀ K d, KeepsOthers s.loadPath s.files (credentialSaveLoaded K d s c).store.files) ↔
      ¬(endWith s.loadPath binaryExtension = true ∧ s.files (textPath s.loadPath) ≠ none)) ∧
    (KnownPath s.loadPath → ∀ text : Name n, saveNameAccepts sdk s c text = true →
      fileIn (saveNameFolder sdk s.loadPath) text.chars = savePath sdk s.loadPath text.chars ∧
      ((∀ K d, KeepsOthers s.loadPath s.files (saveNameDone sdk K d s c text).store.files) ↔
        ¬(text = c.name ∧ savePath sdk s.loadPath text.chars ≠ s.loadPath ∧
          s.files (savePath sdk s.loadPath text.chars) ≠ none))) := by
  refine ⟨?_, fun hk text ha => ⟨checked_path_is_written sdk hk text.chars, ?_⟩⟩
  · by_cases hp : s.loadPath = []
    · have he : endWith s.loadPath binaryExtension = false := by rw [hp]; decide
      constructor
      · intro _ hb
        rw [he] at hb
        cases hb.1
      · intro _ K d
        rw [credentialSaveLoaded, if_pos hp]
        intro _ _ _; rfl
    · simp only [credentialSaveLoaded, if_neg hp]
      rw [saveAt_keepsOthers_iff, Ne, textPath_eq_iff, Bool.not_eq_false]
  · rw [show (∀ K d, KeepsOthers s.loadPath s.files (saveNameDone sdk K d s c text).store.files) ↔ _ from
      saveAt_keepsOthers_iff s _ (savePath sdk s.loadPath text.chars)]
    apply not_congr
    constructor
    · intro h
      rcases h with ⟨hp, hf⟩
      -- the validator found no file of any other name
      rw [saveNameAccepts, validatorIsFile, checked_path_is_written sdk hk, Bool.or_eq_true] at ha
      rcases ha with ha | ha
      · exact ⟨Name.ext_chars (by simpa using ha), hp, hf⟩
      · exact absurd (by simpa using ha) hf
    · intro h
      exact h.2

/-- Saving a credential that exists, with another one beside it: its name is taken, its own file
is the one that is written, and the other keeps its contents. -/
theorem saving_keeps_others_own_file :
    let file : Path := fileIn appDataPathPrefix ['a']
    let other : Path := fileIn appDataPathPrefix ['b']
    let s : Store := ⟨file, Function.update (Function.update (fun _ => none) other (some [0x2A])) file (some [0x46])⟩
    let c : Credential 1 Unit := ⟨⟨['a'], by decide⟩, ⟨[0x04], [], ()⟩, true⟩
    (∀ K d, (credentialSaveLoaded K d s c).store.files other = some [0x2A]) ∧
    (∀ K d, (saveNameDone lastSlash K d s c c.name).store.files other = some [0x2A]) := by
  intro file other s c
  have h := saving_keeps_others_iff lastSlash s c
  have hother : other ≠ s.loadPath ∧ s.files other ≠ none ∧ s.files other = some [0x2A] := by decide
  refine ⟨fun K d => ?_, fun K d => ?_⟩
  · rw [h.1.mpr (by decide) K d other hother.1 hother.2.1, hother.2.2]
  · rw [(h.2 (by decide) c.name (by decide)).2.mpr (by decide) K d other hother.1 hother.2.1, hother.2.2]

/-- Three credentials lost: the text file beside a compiled one, by `Update File` and by
`Save Copy` under the present name, and the file whose name is the beginning of a long one. -/
theorem save_replaces_others :
    let write := constExport (n := 1) (β := Unit) [0x46]
    let text : Path := fileIn appDataPathPrefix ['a']
    let files : Files := Function.update (fun _ => none) text (some [0x2A])
    let c : Credential 1 Unit := ⟨⟨['a'], by decide⟩, ⟨[0x04], [], ()⟩, true⟩
    let compiled : Path := appDataPathPrefix ++ ['/', 'a'] ++ binaryExtension
    let long : Path := fileIn appDataPathPrefix ['a', 'b']
    files text = some [0x2A] ∧
    (credentialSaveLoaded write (workingSave 1) ⟨compiled, files⟩ c).store.files text = some [0x46] ∧
    saveNameAccepts lastSlash ⟨compiled, files⟩ c c.name = true ∧
    (saveNameDone lastSlash write (workingSave 1) ⟨compiled, files⟩ c c.name).store.files text = some [0x46] ∧
    saveNameAccepts lastSlash ⟨long, files⟩ c c.name = true ∧
    (saveNameDone lastSlash write (workingSave 1) ⟨long, files⟩ c c.name).store.files text = some [0x46] := by
  decide

/-- The present name is that of `load_path` itself only for a text file whose base name fits. -/
theorem own_path_iff {sdk : PathSdk} {dir base ext : Path} {c : Credential n β}
    (hext : ext = appExtension ∨ ext = binaryExtension)
    (hdir : sdk.extractDirname (dir ++ '/' :: base ++ ext) = dir) (hname : c.name = Name.copy n base) :
    savePath sdk (dir ++ '/' :: base ++ ext) c.name.chars = dir ++ '/' :: base ++ ext ↔
      ext = appExtension ∧ base.length ≤ n := by
  have hne : dir ++ '/' :: base ++ ext ≠ [] := by simp
  rw [savePath, if_pos hne, hdir, hname, Name.copy_chars, fileIn]
  constructor
  · intro h
    rcases hext with rfl | rfl
    · refine ⟨rfl, ?_⟩
      have hl := congrArg List.length h
      simp at hl
      exact hl
    · have hf := not_endWith_binary (endWith_iff.mpr ⟨_, h.symm⟩)
      rw [endWith_iff.mpr ⟨_, rfl⟩] at hf
      cases hf
  · intro h
    rcases h with ⟨rfl, hb⟩
    rw [List.take_of_length_le hb]

end DfcFlipper.Storage
