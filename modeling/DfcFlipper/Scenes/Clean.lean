/-
  DfcFlipper.Scenes.Clean — the flag `dirty` and the file of the credential.

  The flag is all that stands between what a reader made of a credential and its file: with it
  Back asks to save, without it the credential counts as the one stored. The two saves clear it
  when the file has been written. Discard clears it and leaves the credential, so that what was
  discarded is emulated and saved again (`discarded_emulated`). And while the flag is clear, Back
  from the page that a save succeeded leads to Update File once more, which can cut the file off.

  The engine sets the flag on every change it makes (`Marks`), and the codecs are inverse and see
  nothing but octets. `clean_stored_iff`: a clean credential is the stored one in exactly the runs
  in which Discard comes with nothing to discard, and no save of a clean credential cuts off its
  own file; and then any load of the file gives the credential in memory.
-/

import DfcFlipper.Scenes.Changes
import DfcFlipper.Scenes.Origin
import DfcFlipper.Storage.Compile

namespace DfcFlipper.Scenes

open DfcFlipper.Lib.Bytes DfcFlipper.Lib.Run DfcFlipper.Lib.Stack DfcFlipper.Storage

variable {n : Nat} {β : Type}

/-! ## The stored credential -/

def decodeFile (K : Codec n β) (prior : Credential n β) (raw : Octets) : CodecStatus × Credential n β :=
  if raw.headD 0 = binaryFirstOctet then K.decode prior raw else K.parse prior raw

def Stores (K : Codec n β) (raw : Octets) (card : Card β) : Prop :=
  ∀ prior, ∃ c, decodeFile K prior raw = (.ok, c) ∧ c.card = card

def StoredAt (K : Codec n β) (files : Files) (path : Path) (card : Card β) : Prop :=
  ∃ raw, files path = some raw ∧ Stores K raw card

section Stored

variable {E : TextExport n β} {K : Codec n β} {d : LoadDevice} {card : Card β} {raw : Octets}

/-- What a save writes. -/
theorem stores_rendered (h : Inverse E K) {ds : SaveDevice} {c : Credential n β} {text : Octets} (hr : Renders E ds c text) :
    Stores K text c.card := by
  intro prior
  rw [decodeFile, if_neg (h.heading hr.rendered).2]
  exact h.parse_render hr.rendered prior

/-- Compiling a text on the way to its octets does not change the card. -/
theorem octeted_card (h : Inverse E K) {prior c : Credential n β} {octets : Octets} (ho : Octeted K d prior raw c octets)
    (hd : (K.decode c octets).1 = .ok) :
    (decodeFile K prior raw).1 = .ok ∧ (decodeFile K prior raw).2.card = (K.decode c octets).2.card := by
  cases ho with
  | binary hb =>
    rw [decodeFile, if_pos hb]
    exact ⟨hd, rfl⟩
  | text hb _ hp hs _ _ he =>
    rw [decodeFile, if_neg hb, hp]
    obtain ⟨c', hdec, hc⟩ := h.decode_encode hs he c
    rw [hdec, hc]
    exact ⟨rfl, rfl⟩

theorem stores_of_decoded (h : BytesAlone K) {prior : Credential n β} (hd : (decodeFile K prior raw).1 = .ok) :
    Stores K raw (decodeFile K prior raw).2.card := by
  intro prior'
  have hsame : (decodeFile K prior raw).1 = (decodeFile K prior' raw).1 ∧
      ((decodeFile K prior raw).1 = .ok → SameModel (decodeFile K prior raw).2 (decodeFile K prior' raw).2) := by
    unfold decodeFile
    split
    · exact h.decode prior prior' raw
    · exact h.parse prior prior' raw
  obtain ⟨hst, hmodel⟩ := hsame
  exact ⟨_, Prod.ext (hst.symm.trans hd) rfl, (hmodel hd).card.symm⟩

/-- What a load leaves in memory is stored in the file it was given. -/
theorem storedAt_of_loaded (h : Inverse E K) (hb : BytesAlone K) {sdk : PathSdk} {s : Store} {prior : Credential n β}
    (hl : (loadSelectedFile sdk K d s prior).loaded = true) :
    StoredAt K s.files s.loadPath (loadSelectedFile sdk K d s prior).credential.card := by
  rcases loadSelectedFile_cases sdk K d s prior with ⟨hf, _⟩ | ⟨raw, c, octets, hr, ho, hd, _, heq⟩
  · rw [hf] at hl
    cases hl
  · obtain ⟨hok, hcard⟩ := octeted_card h ho hd
    rw [heq]
    refine ⟨raw, hr.contents, ?_⟩
    rw [← hcard]
    exact stores_of_decoded hb hok

/-- And whatever is stored there is what a load leaves in memory. -/
theorem card_of_storedAt (h : Inverse E K) {sdk : PathSdk} {s : Store} {prior : Credential n β}
    (hs : StoredAt K s.files s.loadPath card) (hl : (loadSelectedFile sdk K d s prior).loaded = true) :
    (loadSelectedFile sdk K d s prior).credential.card = card := by
  obtain ⟨raw, hf, hstores⟩ := hs
  rcases loadSelectedFile_cases sdk K d s prior with ⟨hno, _⟩ | ⟨raw', c, octets, hr, ho, hd, _, heq⟩
  · rw [hno] at hl
    cases hl
  · obtain rfl : raw = raw' := Option.some.inj (hf.symm.trans hr.contents)
    obtain ⟨c', hdec, hc⟩ := hstores prior
    have hcard := (octeted_card h ho hd).2
    rw [hdec, hc] at hcard
    rw [heq, hcard]

end Stored

/-! ## The invariant -/

/-- The file the credential came from, or was saved to, is in `load_path`, and a clean credential is what it stores. -/
def CleanStored (P : Parts n β) (a : App n β × List Effect) : Prop :=
  ∀ path, origin a.2 = some path → a.1.store.loadPath = path ∧
    (a.1.credential.dirty = false → StoredAt P.codec a.1.store.files path a.1.credential.card)

/-- The engine marks every change, and clears no mark; the file is not deleted. -/
def Marks (a : App n β × List Effect) (i : Action n β × Env) : Prop :=
  match i.1 with
  | .reader card dirty => dirty = true ∨ (card = a.1.credential.card ∧ dirty = a.1.credential.dirty)
  | .buttonRight => a.1.scenes.head? ≠ some .delete
  | _ => True

/-- Nothing is discarded that the file does not store, and no clean credential is lost from its file by a short write. -/
structure Kept (P : Parts n β) (a : App n β × List Effect) (i : Action n β × Env) : Prop where
  discard : ∀ path, origin a.2 = some path → a.1.scenes.head? = some .mutationSave → i.1 = .mutationSave .discard →
    StoredAt P.codec a.1.store.files path a.1.credential.card
  short : ∀ path, origin a.2 = some path → a.1.credential.dirty = false → ∀ c, saveTarget P a.1 i.1 = some (path, c) →
    ∀ text, ShortWrite P.text i.2.save a.1.store.files c path text →
      Stores P.codec (text.take i.2.save.accepts) a.1.credential.card

section Steps

variable {P : Parts n β} {e : Env} {a : Action n β} {s t : App n β} {log es : List Effect}

theorem cleanStored_init (files : Files) (c : Credential n β) : CleanStored P (appInit files c, []) := by
  intro path h
  cases h

/-- Nothing was done to the origin, to the storage or to the card. -/
theorem CleanStored.congr (h : CleanStored P (s, log)) (hq : Quiet es) (hst : t.store = s.store)
    (hc : t.credential.dirty = false → s.credential.dirty = false ∧ t.credential.card = s.credential.card) :
    CleanStored P (t, log ++ es) := by
  intro path ho
  rw [origin_append, hq] at ho
  obtain ⟨hp, hclean⟩ := h path ho
  simp only at hp hclean ⊢
  rw [hst]
  refine ⟨hp, fun hd => ?_⟩
  obtain ⟨hds, hcard⟩ := hc hd
  rw [hcard]
  exact hclean hds

/-- A failed save leaves the file of a clean credential alone, or cuts it off where that makes no difference. -/
theorem storedAt_failed {path path' : Path} {c : Credential n β} {d : SaveDevice} {files : Files}
    {card : Card β} (hs : StoredAt P.codec files path card) (hf : (writeFile P.text d files c path').saved = false)
    (hshort : path' = path → ∀ text, ShortWrite P.text d files c path' text → Stores P.codec (text.take d.accepts) card) :
    StoredAt P.codec (writeFile P.text d files c path').files path card := by
  obtain ⟨raw, hraw, hstores⟩ := hs
  rcases writeFile_cases P.text d files c path' with ⟨_, hw⟩ | ⟨text, hR, ho, hl, hw⟩ | ⟨text, _, _, _, hw⟩
  · rw [hw]
    exact ⟨raw, hraw, hstores⟩
  · rw [hw]
    by_cases hp : path' = path
    · subst hp
      refine ⟨text.take d.accepts, Function.update_self .., ?_⟩
      by_cases hsame : files path' = some (text.take d.accepts)
      · obtain rfl := Option.some.inj (hraw.symm.trans hsame)
        exact hstores
      · exact hshort rfl text ⟨hR, ho, hl, hsame⟩
    · refine ⟨raw, ?_, hstores⟩
      simp only
      rw [Function.update_of_ne (Ne.symm hp)]
      exact hraw
  · rw [hw] at hf
    cases hf

/-- Each way to change the data keeps the invariant. -/
theorem Changes.clean (hinv : Inverse P.text P.codec) (hb : BytesAlone P.codec) (hch : Changes P e a s t es)
    (h : CleanStored P (s, log)) (hm : Marks (s, log) (a, e)) (hk : Kept P (s, log) (a, e)) :
    CleanStored P (t, log ++ es) := by
  cases hch with
  | kept hc hst hq _ => exact h.congr hq hst fun hd => ⟨hc ▸ hd, by rw [hc]⟩
  | reader card dirty ha _ _ hc hst he =>
    subst ha he
    refine h.congr Quiet.nil hst fun hd => ?_
    rw [hc] at hd ⊢
    rcases hm with hmark | ⟨hcard, hdirty⟩
    · exact absurd (hmark.symm.trans hd) (by simp)
    · exact ⟨hdirty.symm.trans hd, hcard⟩
  | blank _ _ _ _ he =>
    intro path ho
    rw [he, origin_append] at ho
    cases ho
  | cleared _ _ hno _ =>
    intro path ho
    rw [origin_append, hno] at ho
    cases ho
  | opened file hp hf hl he =>
    intro path ho
    rw [he, origin_append] at ho
    obtain rfl : file = path := Option.some.inj ho
    refine ⟨hp, fun _ => ?_⟩
    have hst := storedAt_of_loaded hinv hb hl.loaded
    simp only at hst ⊢
    rw [hf, hl.credential]
    exact hst
  | saved file c hst hs hstore hc he =>
    intro path ho
    rw [he, origin_append] at ho
    obtain rfl : file = path := Option.some.inj ho
    obtain ⟨hp, _, text, hR, hfile⟩ := saveAt_stored hs
    rw [hp] at hfile
    simp only
    rw [hstore, hc]
    have hstores : Stores P.codec text c.clearDirty.card := stores_rendered (c := c) hinv hR
    exact ⟨hp, fun _ => ⟨text, hfile, hstores⟩⟩
  | failed file c hst hf hstore hc hq _ =>
    intro path ho
    rw [origin_append, hq] at ho
    obtain ⟨hp, hclean⟩ := h path ho
    obtain ⟨hcard, hdirty⟩ := saveTarget_same hst
    simp only at hp hclean ⊢
    rw [hstore, hc, (saveAt_failed hf).1]
    refine ⟨hp, fun hd => ?_⟩
    rw [saveAt_saved] at hf
    rw [saveAt_files, hcard]
    have hds := hdirty.symm.trans hd
    refine storedAt_failed (hclean hds) hf ?_
    rintro rfl
    exact hk.short file ho hds c hst
  | discarded ha ht hc hst he =>
    intro path ho
    rw [he, List.append_nil] at ho
    simp only
    rw [hst, hc]
    exact ⟨(h path ho).1, fun _ => hk.discard path ho ht ha⟩
  | deleted ha ht _ _ _ _ =>
    subst ha
    exact absurd ht hm

theorem step_clean (hinv : Inverse P.text P.codec) (hb : BytesAlone P.codec) (a : App n β × List Effect)
    (i : Action n β × Env) (h : CleanStored P a) (hk : Kept P a i ∧ Marks a i) : CleanStored P (logged (step P) a i) := by
  obtain ⟨t, fs, hch, hl⟩ := step_changes P a.1 i
  obtain ⟨gs, hes, hgs, _⟩ := hl.effects
  have ht := hch.clean hinv hb h hk.2 hk.1
  have hlogged := ht.congr (t := (step P a.1 i).1) hgs hl.store fun hd => ⟨hl.credential ▸ hd, by rw [hl.credential]⟩
  simp only [logged, hes]
  rwa [List.append_assoc] at hlogged

/-- What holds when the scene manager is done held when the handler left it. -/
theorem CleanStored.before {s' : App n β} {es' : List Effect} (h : CleanStored P (s', log ++ es'))
    (hl : Leaves P t es s' es') (hq : Quiet es) {path : Path} (ho : origin log = some path) (hd : t.credential.dirty = false) :
    StoredAt P.codec t.store.files path t.credential.card := by
  obtain ⟨fs, rfl, hfs, _⟩ := hl.effects
  have hnow := h path (by rw [origin_append, hq.append hfs, ho])
  simp only at hnow
  rw [hl.credential, hl.store] at hnow
  exact hnow.2 hd

/-- Both conditions are needed: Discard leaves the card, now clean, and a short write leaves what it wrote. -/
theorem kept_of_clean {a : App n β × List Effect} {i : Action n β × Env} (h : CleanStored P (logged (step P) a i)) :
    Kept P a i := by
  obtain ⟨x, e⟩ := i
  constructor
  · rintro path ho ht rfl
    exact h.before (discarded_leaves ht) Quiet.nil ho rfl
  · intro path ho hd c hst text hshort
    obtain ⟨hcard, hdirty⟩ := saveTarget_same hst
    have hf : (saveAt P.text e.save a.1.store c path).saved = false := by
      rw [saveAt_saved]
      exact (writeFile_short hshort).1
    obtain ⟨raw, hraw, hstores⟩ := h.before (failed_leaves hst hf) (quiet_shownOf _) ho (hdirty.trans hd)
    rw [saveAt_files, writeFile_of_short hshort] at hraw
    simp only [Function.update_self] at hraw hstores
    obtain rfl := Option.some.inj hraw
    rwa [hcard] at hstores

end Steps

/-! ## Every run -/

/-- A clean credential is the stored one in exactly the runs in which Discard comes with nothing to discard, and no save
of a clean credential cuts off its own file. In these, any load of the file gives the credential in memory. -/
theorem clean_stored_iff (P : Parts n β) (hinv : Inverse P.text P.codec) (hb : BytesAlone P.codec) (files : Files)
    (c : Credential n β) (is : List (Action n β × Env))
    (hm : Along (logged (step P)) Marks (appInit files c, []) is) :
    ((∀ js, js <+: is → CleanStored P (run (step P) (appInit files c) js)) ↔
      Along (logged (step P)) (Kept P) (appInit files c, []) is) ∧
    (Along (logged (step P)) (Kept P) (appInit files c, []) is →
      let a := run (step P) (appInit files c) is
      ∀ path, origin a.2 = some path → a.1.credential.dirty = false →
        a.1.store.loadPath = path ∧
        ∀ d prior, (loadSelectedFile P.sdk P.codec d a.1.store prior).loaded = true →
          (loadSelectedFile P.sdk P.codec d a.1.store prior).credential.card = a.1.credential.card) := by
  have hiff := states_iff_along_under (CleanStored P) (CleanStored P) (fun _ h => h) (step_clean hinv hb)
    (fun _ _ _ _ h => kept_of_clean h) is _ (cleanStored_init files c) hm
  refine ⟨hiff, fun hk => ?_⟩
  intro a path ho hd
  obtain ⟨hp, hclean⟩ := hiff.mpr hk is (List.prefix_refl is) path ho
  refine ⟨hp, fun d prior hl => ?_⟩
  have hst := hclean hd
  rw [← hp] at hst
  exact card_of_storedAt hinv hst hl

/-- A card as a reader leaves it. -/
def changedCard : Card Unit := (cardWith [0x05, 0x65, 0x91, 0x02, 0x81]).card

/-- A change by a reader is saved by Update File. -/
theorem updated_clean :
    let file : Path := fileIn appDataPathPrefix ['a']
    let stored := (packCard textMark (cardWith []).card).2
    let s : App 8 Unit := appInit (Function.update (fun _ => none) file (some stored)) blankCredential
    let is : List (Action 8 Unit) := [.mainMenu .saved, .fileChosen file, .savedMenu .emulate, .reader changedCard true,
      .back, .mutationSave .update]
    CleanStored cardParts (run (step cardParts) s (is.map (·, workingEnv))) := by
  intro file stored s is
  have hother : ∀ (a : App 8 Unit × List Effect) (x : Action 8 Unit) (e : Env), (∀ item, x ≠ .mutationSave item) →
      (∀ text, x ≠ .textInputDone text) → Kept cardParts a (x, e) := by
    intro a x e hx htext
    refine ⟨fun _ _ _ h => absurd h (hx _), fun _ _ _ c h => ?_⟩
    rcases saveTarget_cases h with ⟨_, hupdate, _⟩ | ⟨text, _, hdone, _⟩
    · exact absurd hupdate (hx _)
    · exact absurd hdone (htext text)
  have hm : Along (logged (step cardParts)) Marks (s, []) (is.map (·, workingEnv)) :=
    ⟨trivial, trivial, trivial, Or.inl rfl, trivial, trivial, trivial⟩
  have hk : Along (logged (step cardParts)) (Kept cardParts) (s, []) (is.map (·, workingEnv)) := by
    refine ⟨?_, ?_, ?_, ?_, ?_, ?_, trivial⟩
    · exact hother _ _ _ (by simp) (by simp)
    · exact hother _ _ _ (by simp) (by simp)
    · exact hother _ _ _ (by simp) (by simp)
    · exact hother _ _ _ (by simp) (by simp)
    · exact hother _ _ _ (by simp) (by simp)
    · -- what is saved is not clean
      refine ⟨fun _ _ _ h => (by cases h), fun _ _ hd => ?_⟩
      exact absurd hd (by decide)
  exact (clean_stored_iff cardParts cardCodec_inverse cardCodec_bytesAlone _ _ _ hm).1.mpr hk _ (List.prefix_refl _)

/-! ## The run that goes wrong -/

/-- A reader changes a card and the change is discarded: the card in memory is still the changed one, and clean, and the
file the other. Emulated again it answers with the discarded ATS. -/
theorem discarded_emulated :
    let file : Path := fileIn appDataPathPrefix ['a']
    let stored := (packCard textMark (cardWith []).card).2
    let s : App 8 Unit := appInit (Function.update (fun _ => none) file (some stored)) blankCredential
    let toDiscard : List (Action 8 Unit) := [.mainMenu .saved, .fileChosen file, .savedMenu .emulate,
      .reader changedCard true, .back, .mutationSave .discard]
    let toEmulate : List (Action 8 Unit) := toDiscard ++ [.savedMenu .emulate]
    let a := run (step cardParts) s (toDiscard.map (·, workingEnv))
    let b := run (step cardParts) s (toEmulate.map (·, workingEnv))
    (Inverse cardParts.text cardParts.codec ∧ BytesAlone cardParts.codec ∧
      Along (logged (step cardParts)) Marks (s, []) (toDiscard.map (·, workingEnv))) ∧
    (a.1.scenes.head? = some .savedMenu ∧ origin a.2 = some file ∧ a.1.store.loadPath = file ∧
      a.1.credential.dirty = false ∧ a.1.credential.card = changedCard) ∧
    (a.1.store.files file = some stored ∧
      (decodeFile cardParts.codec a.1.credential stored).1 = .ok ∧
      (decodeFile cardParts.codec a.1.credential stored).2.card = (cardWith []).card ∧
      (cardWith []).card ≠ changedCard) ∧
    b.1.emulating = true ∧ b.2.getLast? = some (.listening changedCard.piccAts) :=
  ⟨⟨cardCodec_inverse, cardCodec_bytesAlone, trivial, trivial, trivial, Or.inl rfl, trivial, trivial, trivial⟩, by decide⟩

end DfcFlipper.Scenes
