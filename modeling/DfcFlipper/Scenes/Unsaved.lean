/-
  DfcFlipper.Scenes.Unsaved — what becomes of the changes a reader made.

  A reader marks the credential while it is emulated. Emulate goes to the mutation prompt with it,
  and the prompt to the name of a copy; the other scenes do not look at the mark, and Back
  in the saved menu, another file or Blank Card replace the credential.

  `unsaved_guarded_iff`: what is marked stays with these three scenes in exactly the runs in
  which no save of it fails and is left for a menu. There an event keeps the changes, is Discard, or
  writes them to a file (`Fate`). A save that fails shows its error and leaves the changes
  in the saved or the main menu, where the next Back or file drops them unasked
  (`failed_save_drops`).
-/

import DfcFlipper.Scenes.Changes
import DfcFlipper.Scenes.Leaving

namespace DfcFlipper.Scenes

open DfcFlipper.Lib.Bytes DfcFlipper.Lib.Run DfcFlipper.Lib.Stack DfcFlipper.Storage

variable {n : Nat} {β : Type}

/-! ## The mark -/

/-- A load and a clear set no mark; only the engine does. -/
structure Unmarking (K : Codec n β) : Prop where
  parse : ∀ c raw, (K.parse c raw).2.dirty = true → c.dirty = true
  decode : ∀ c octets, (K.decode c octets).2.dirty = true → c.dirty = true
  clear : ∀ c, (K.clear c).dirty = true → c.dirty = true

def asks : Scene → Bool
  | .emulate => true
  | .mutationSave => true
  | .saveName => true
  | _ => false

def Guarded (s : App n β) : Prop := s.credential.dirty = true → ∃ top, s.scenes.head? = some top ∧ asks top = true

/-- A save fails, and its scene is left for a menu. -/
def GivesUp (P : Parts n β) (e : Env) (s : App n β) : Action n β → Prop
  | .mutationSave .update => s.scenes.head? = some .mutationSave ∧
      (credentialSaveLoaded P.text e.save s.store s.credential).saved = false ∧
      returnScene s.store.loadPath ∈ s.scenes.tail
  | .textInputDone text => s.scenes.head? = some .saveName ∧ saveNameAccepts P.sdk s.store s.credential text = true ∧
      (saveNameDone P.sdk P.text e.save s.store s.credential text).saved = false
  | _ => False

def NoneLost (P : Parts n β) (a : App n β × List Effect) (i : Action n β × Env) : Prop :=
  a.1.credential.dirty = true → ¬GivesUp P i.2 a.1 i.1

section Loads

variable {K : Codec n β} {d : LoadDevice} {files : Files} {c : Credential n β}

theorem binaryOctets_marked (hu : Unmarking K) {raw : Octets} (h : (binaryOctets K d c raw).1.dirty = true) :
    c.dirty = true := by
  simp only [binaryOctets] at h
  split at h
  · exact h
  split at h
  · exact h
  · -- whatever the exit, it is what `parse` left
    refine hu.parse c raw ?_
    repeat' split at h
    all_goals exact h

theorem fileLoad_marked (hu : Unmarking K) {path : Path} {name : Name n}
    (h : (fileLoad K d files c path name).credential.dirty = true) : c.dirty = true := by
  unfold fileLoad at h
  split at h
  · exact h
  · rename_i raw _
    have hoctets : (binaryOctets K d c raw).1.dirty = true → c.dirty = true := binaryOctets_marked hu
    split at h
    · rename_i c' _ hb
      rw [hb] at hoctets
      exact hoctets (hu.clear c' h)
    · rename_i c' octets hb
      rw [hb] at hoctets
      refine hoctets (hu.decode c' octets ?_)
      rw [← decodeAndCheck_credential]
      simp only at h
      split at h
      · exact h
      · exact hu.clear _ h

/-- Whatever the outcome, a load leaves no mark on a credential that had none. -/
theorem loadSelectedFile_marked (hu : Unmarking K) {sdk : PathSdk} {s : Store}
    (h : (loadSelectedFile sdk K d s c).credential.dirty = true) : c.dirty = true := by
  unfold loadSelectedFile at h
  split at h
  · exact h
  · simp only at h
    split at h
    · exact fileLoad_marked hu h
    · exact fileLoad_marked hu (hu.clear _ h)

end Loads

/-! ## Where a mark comes from -/

section Marked

variable {P : Parts n β} {e : Env} {s t : App n β}

theorem searchAndSwitch_credential (scene : Scene) :
    (searchAndSwitchToPreviousScene P e t scene).app.credential = t.credential := by
  have h : Leaves P t [] ((searchAndSwitchToPreviousScene P e t scene).after []).app
      ((searchAndSwitchToPreviousScene P e t scene).after []).effects := leaves_search scene
  exact h.credential

theorem fileSelect_marked (hu : Unmarking P.codec) (ht : s.scenes.head? = some .fileSelect) {a : Action n β}
    (h : (handleEvent P e s a).1.credential.dirty = true) : s.credential.dirty = true := by
  cases a with
  | back =>
    rwa [(leaves_back (h := ⟨s, [], false⟩) (by simp only [onEvent, ht, fileSelectOnEvent]) rfl).credential] at h
  | fileChosen path =>
    simp only [handleEvent, onEvent, ht, fileSelectOnEvent, fileSelectCallback] at h
    split at h
    · simp only [Handled.after, searchAndSwitch_credential] at h
      exact hu.clear _ h
    split at h
    · simp only [Handled.after, nextScene, switchTo_credential] at h
      have hm := loadSelectedFile_marked hu h
      exact hm
    · simp only [Handled.after, searchAndSwitch_credential] at h
      have hm := loadSelectedFile_marked hu (hu.clear _ h)
      exact hm
  | _ =>
    simp only [handleEvent, onEvent, ht, fileSelectOnEvent] at h
    exact h

theorem savedMenu_marked (hu : Unmarking P.codec) (ht : s.scenes.head? = some .savedMenu) {a : Action n β}
    (h : (handleEvent P e s a).1.credential.dirty = true) : s.credential.dirty = true := by
  cases a with
  | back =>
    rw [(leaves_back (h := savedMenuOnEvent P e s .back) (by simp only [onEvent, ht]) rfl).credential] at h
    exact hu.clear _ h
  | savedMenu item =>
    simp only [handleEvent, onEvent, ht] at h
    cases item <;> rwa [savedMenuOnEvent, nextScene, switchTo_credential] at h
  | _ =>
    simp only [handleEvent, onEvent, ht, savedMenuOnEvent] at h
    exact h

/-- A credential gets its mark in the scene that emulates it, or comes there with it. -/
theorem marked_emulated (hu : Unmarking P.codec) {i : Action n β × Env} (h : (step P s i).1.credential.dirty = true)
    (hs : s.credential.dirty = false) : (step P s i).1.scenes.head? = some .emulate := by
  have hno : s.credential.dirty ≠ true := by rw [hs]; exact Bool.false_ne_true
  obtain ⟨a, e⟩ := i
  obtain ⟨t, es, hch, hl⟩ := step_changes P s (a, e)
  rw [hl.credential] at h
  cases hch with
  | kept hc _ _ _ => exact absurd (hc ▸ h) hno
  | reader card dirty ha ht _ _ _ _ =>
    subst ha
    rw [step_scenes]
    simp only [nav, ht, emulateNav, Nav.apply]
  | blank ha ht _ _ _ =>
    subst ha
    exact (blank_card P e ht).1
  | cleared ht _ _ _ =>
    rw [← hl.credential] at h
    rcases ht with ht | ht
    · exact absurd (fileSelect_marked hu ht h) hno
    · exact absurd (savedMenu_marked hu ht h) hno
  | opened path _ _ hlf _ =>
    rw [hlf.credential] at h
    have hm := loadSelectedFile_marked hu h
    exact absurd hm hno
  | saved _ c _ _ _ hc _ => rw [hc] at h; cases h
  | failed _ c hst _ _ hc _ _ =>
    rw [hc, (saveTarget_same hst).2] at h
    exact absurd h hno
  | discarded _ _ hc _ _ => rw [hc] at h; cases h
  | deleted _ _ hc _ _ _ => exact absurd (hc ▸ h) hno

end Marked

/-! ## The scenes that ask -/

section Stack

variable {scenes : List Scene} {top scene : Scene}

theorem isMenu_cases (hm : isMenu top = true) : asks top = false ∧ (top = .mainMenu ∨ top = .savedMenu) := by
  revert hm
  cases top <;> decide

theorem asks_ne_mainMenu (ha : asks top = true) : top ≠ .mainMenu := by
  rintro rfl
  cases ha

/-- A switch that finds its scene nowhere below does nothing. -/
theorem search_absent (h : scene ∉ scenes.tail) : (Nav.search scene).apply scenes = scenes := by
  rw [Nav.apply]
  cases hs : search scene scenes with
  | none => rfl
  | some found =>
    obtain ⟨hsuf, hhead⟩ := search_eq_some hs
    exact absurd (hsuf.subset (List.mem_of_mem_head? hhead)) h

theorem search_head (h : scene ∈ scenes.tail) : ((Nav.search scene).apply scenes).head? = some scene := by
  have hs : search scene scenes = some _ := downTo_of_mem h
  rw [Nav.apply, hs, Option.getD_some]
  exact (search_eq_some hs).2

/-- Below the prompt is the emulation, and below the name of a copy the prompt. -/
theorem below_asks (hst : Stacked scenes) (hb : Bottomed scenes) (ht : scenes.head? = some top)
    (hor : top = .mutationSave ∨ top = .saveName) : ∃ next, scenes.tail.head? = some next ∧ asks next = true := by
  have hmem : Scene.mainMenu ∈ scenes.tail := hb.below ht (by rcases hor with rfl | rfl <;> decide)
  cases hn : scenes.tail.head? with
  | none => rw [List.head?_eq_none_iff.mp hn] at hmem; cases hmem
  | some next =>
    obtain ⟨upper, hu, hc⟩ := hst.above hn
    obtain rfl := Option.some.inj (hu.symm.trans ht)
    refine ⟨next, rfl, ?_⟩
    rcases hor with rfl | rfl <;> revert hc <;> cases next <;> decide

/-- Only the main menu ends the application. -/
theorem Nav.ne_nil {m : Nav} (hb : Bottomed scenes) (ht : scenes.head? = some top) (hne : top ≠ .mainMenu)
    (hm : m ≠ .quit) : m.apply scenes ≠ [] := by
  have hmem := hb.below ht hne
  have hnil : scenes ≠ [] := fun h => by rw [h] at ht; cases ht
  cases m with
  | stay => exact hnil
  | next scene => exact List.cons_ne_nil _ _
  | previous => exact List.ne_nil_of_mem hmem
  | search scene =>
    by_cases hs : scene ∈ scenes.tail
    · intro h
      have hh := search_head hs
      rw [h] at hh
      cases hh
    · rw [search_absent hs]
      exact hnil
  | quit => exact absurd rfl hm

end Stack

section Asked

variable {P : Parts n β} {e : Env} {s : App n β} {a : Action n β} {top : Scene}

theorem GivesUp.saves (h : GivesUp P e s a) : a = .mutationSave .update ∨ ∃ text, a = .textInputDone text := by
  cases a with
  | mutationSave item =>
    cases item with
    | update => exact Or.inl rfl
    | _ => cases h
  | textInputDone text => exact Or.inr ⟨text, rfl⟩
  | _ => cases h

theorem nav_ne_quit (ht : s.scenes.head? = some top) (ha : asks top = true) : nav P e s a ≠ .quit := by
  intro hq
  cases top with
  | emulate =>
    simp only [nav, ht, emulateNav] at hq
    repeat' split at hq
    all_goals cases hq
  | mutationSave =>
    simp only [nav, ht, mutationSaveNav] at hq
    repeat' split at hq
    all_goals cases hq
  | saveName =>
    simp only [nav, ht, saveNameNav] at hq
    repeat' split at hq
    all_goals cases hq
  | _ => cases ha

/-- A save that reports success leaves no mark. -/
theorem saved_unmarked {path : Path} {c : Credential n β} (hst : saveTarget P s a = some (path, c))
    (hs : (saveAt P.text e.save s.store c path).saved = true) : (step P s (a, e)).1.credential.dirty = false := by
  rw [step, (saved_leaves hst hs).credential]
  rfl

/-- A save that is given up leaves the card and its mark. -/
theorem givesUp_same (h : GivesUp P e s a) :
    (step P s (a, e)).1.credential.card = s.credential.card ∧
    (step P s (a, e)).1.credential.dirty = s.credential.dirty := by
  cases a with
  | mutationSave item =>
    cases item with
    | update =>
      obtain ⟨ht, hf, _⟩ := h
      simp only [step, handleEvent, onEvent, ht, mutationSaveOnEvent, hf, Bool.false_eq_true, if_false]
      rw [(leaves_return _).credential, (credentialSaveLoaded_failed hf).2]
      exact ⟨rfl, rfl⟩
    | _ => cases h
  | textInputDone text =>
    obtain ⟨ht, hacc, hf⟩ := h
    have hst : saveTarget P s (.textInputDone text) = some (savePath P.sdk s.store.loadPath text.chars,
        ⟨Name.copy n text.chars, s.credential.card, s.credential.dirty⟩) := by
      simp only [saveTarget, ht, hacc, Bool.true_eq_false, if_false]
    rw [saveNameDone_eq] at hf
    rw [step, (failed_leaves hst hf).credential]
    exact ⟨rfl, rfl⟩
  | _ => cases h

/-- Where a save that is given up leads: to a menu. -/
theorem givesUp_scenes (hb : Bottomed s.scenes) (h : GivesUp P e s a) :
    ∃ menu, (step P s (a, e)).1.scenes.head? = some menu ∧ isMenu menu = true := by
  rw [step_scenes]
  cases a with
  | mutationSave item =>
    cases item with
    | update =>
      obtain ⟨ht, hf, hm⟩ := h
      have hn : nav P e s (.mutationSave .update) = .search (returnScene s.store.loadPath) := nav_leaves ht (.failed hf)
      rw [hn]
      refine ⟨_, search_head hm, ?_⟩
      unfold returnScene
      split <;> rfl
    | _ => cases h
  | textInputDone text =>
    obtain ⟨ht, hacc, hf⟩ := h
    have hn : nav P e s (.textInputDone text) = .search .mainMenu := by
      simp only [nav, ht, saveNameNav, hacc, hf, Bool.true_eq_false, Bool.false_eq_true, if_false]
    rw [hn]
    exact ⟨.mainMenu, search_head (hb.below ht (by decide)), rfl⟩
  | _ => cases h

/-- What is marked stays with the scenes that ask, unless a save is given up. -/
theorem step_asks (hst : Stacked s.scenes) (hb : Bottomed s.scenes) (hd : s.credential.dirty = true)
    (ht : s.scenes.head? = some top) (ha : asks top = true) (hno : ¬GivesUp P e s a)
    (hd' : (step P s (a, e)).1.credential.dirty = true) :
    ∃ top', (step P s (a, e)).1.scenes.head? = some top' ∧ asks top' = true := by
  have hstay : ∃ top', s.scenes.head? = some top' ∧ asks top' = true := ⟨top, ht, ha⟩
  rw [step_scenes]
  cases top with
  | emulate =>
    simp only [nav, ht]
    cases a with
    | back => exact ⟨.mutationSave, by simp only [emulateNav, hd, if_true]; rfl, rfl⟩
    | _ => exact hstay
  | mutationSave =>
    simp only [nav, ht]
    cases a with
    | back => exact below_asks hst hb ht (Or.inl rfl)
    | mutationSave item =>
      cases item with
      | update =>
        simp only [mutationSaveNav]
        cases hs : (credentialSaveLoaded P.text e.save s.store s.credential).saved with
        | true =>
          have hp := loadPath_ne_nil_of_saved hs
          rw [credentialSaveLoaded_eq hs] at hs
          have hst' : saveTarget P s (.mutationSave .update) = some (textPath s.store.loadPath, s.credential) := by
            simp only [saveTarget, ht, if_neg hp]
          rw [saved_unmarked hst' hs] at hd'
          cases hd'
        | false =>
          rw [if_neg Bool.false_ne_true, search_absent fun hm => hno ⟨ht, hs, hm⟩]
          exact hstay
      | saveCopy => exact ⟨.saveName, rfl, rfl⟩
      | save => exact ⟨.saveName, rfl, rfl⟩
      | discard =>
        rw [step, (discarded_leaves ht).credential] at hd'
        cases hd'
    | _ => exact hstay
  | saveName =>
    simp only [nav, ht]
    cases a with
    | back => exact below_asks hst hb ht (Or.inr rfl)
    | textInputDone text =>
      simp only [saveNameNav]
      by_cases hacc : saveNameAccepts P.sdk s.store s.credential text = false
      · rw [if_pos hacc]
        exact hstay
      · cases hs : (saveNameDone P.sdk P.text e.save s.store s.credential text).saved with
        | true =>
          have hst' : saveTarget P s (.textInputDone text) = some (savePath P.sdk s.store.loadPath text.chars,
              ⟨Name.copy n text.chars, s.credential.card, s.credential.dirty⟩) := by
            simp only [saveTarget, ht, if_neg hacc]
          rw [saveNameDone_eq] at hs
          rw [saved_unmarked hst' hs] at hd'
          cases hd'
        | false => exact absurd ⟨ht, by simpa using hacc, hs⟩ hno
    | _ => exact hstay
  | _ => cases ha

end Asked

/-! ## Every run -/

structure Asked (s : App n β) : Prop where
  stacked : Stacked s.scenes
  bottomed : Bottomed s.scenes
  guarded : Guarded s

theorem asked_init (files : Files) {c : Credential n β} (hc : c.dirty = false) : Asked (appInit files c) := by
  refine ⟨List.isChain_singleton _, ?_, fun hd => ?_⟩
  · intro scene hl
    exact (Option.some.inj hl).symm
  · exact absurd (hc.symm.trans hd) Bool.false_ne_true

theorem step_bottomed (P : Parts n β) (s : App n β) (i : Action n β × Env) (h : Bottomed s.scenes) :
    Bottomed (step P s i).1.scenes := by
  obtain ⟨a, e⟩ := i
  rw [step_scenes]
  refine Nav.bottomed _ ?_ h
  by_cases hs : s.scenes = []
  · exact Or.inr (by simp only [nav, hs, List.head?_nil])
  · exact Or.inl hs

theorem step_asked {P : Parts n β} (hu : Unmarking P.codec) (a : App n β × List Effect) (i : Action n β × Env)
    (h : Asked a.1) (hno : NoneLost P a i) : Asked (logged (step P) a i).1 := by
  refine ⟨(step_moves P a.1 i).stacked h.stacked, step_bottomed P a.1 i h.bottomed, fun hd' => ?_⟩
  cases hd : a.1.credential.dirty with
  | false => exact ⟨.emulate, marked_emulated hu hd' hd, rfl⟩
  | true =>
    obtain ⟨top, ht, ha⟩ := h.guarded hd
    exact step_asks h.stacked h.bottomed hd ht ha (hno hd) hd'

theorem noneLost_of_guarded {P : Parts n β} {a : App n β × List Effect} {i : Action n β × Env} (h : Asked a.1)
    (hg : Guarded (logged (step P) a i).1) : NoneLost P a i := by
  intro hd hlost
  obtain ⟨top, ht, ha⟩ := hg ((givesUp_same hlost).2.trans hd)
  obtain ⟨menu, hm, hmenu⟩ := givesUp_scenes h.bottomed hlost
  obtain rfl := Option.some.inj (ht.symm.trans hm)
  rw [(isMenu_cases hmenu).1] at ha
  cases ha

/-- What an event can do to changes that are not saved. -/
inductive Fate (P : Parts n β) (s : App n β) (i : Action n β × Env) : Prop
  | kept : (step P s i).1.credential.card = s.credential.card → (step P s i).1.credential.dirty = true →
      (step P s i).1.scenes ≠ [] → Quiet (step P s i).2 → Fate P s i
  /-- The reader goes on. -/
  | served (card : Card β) (dirty : Bool) : i.1 = .reader card dirty → s.emulating = true →
      (step P s i).1.credential = { s.credential with card := card, dirty := dirty } → Fate P s i
  | saved (path : Path) : origin (step P s i).2 = some path → SavedTo P i.2 s (step P s i).1 path → Fate P s i
  | discarded : i.1 = .mutationSave .discard → s.scenes.head? = some .mutationSave → Fate P s i

section Fate

variable {P : Parts n β} {s : App n β} {i : Action n β × Env} {top : Scene}

theorem not_quiet_of_origin {es : List Effect} {o : Option Path} (h : ∀ o', es.foldl originStep o' = o) : ¬Quiet es := by
  intro hq
  have h1 := (hq none).symm.trans (h none)
  have h2 := (hq (some [])).symm.trans (h (some []))
  rw [← h1] at h2
  cases h2

/-- An event that leaves the origin alone. -/
theorem quiet_fate (hd : s.credential.dirty = true) (hne : (step P s i).1.scenes ≠ []) (hq : Quiet (step P s i).2) :
    Fate P s i := by
  obtain ⟨t, es, hch, hl⟩ := step_changes P s i
  obtain ⟨fs, hes, hfs, _⟩ := hl.effects
  have hqes : Quiet es := by
    rw [hes] at hq
    exact hq.left hfs
  have hkept : t.credential.card = s.credential.card → t.credential.dirty = true → Fate P s i := fun hc hm =>
    .kept (by rw [hl.credential, hc]) (by rw [hl.credential, hm]) hne hq
  cases hch with
  | kept hc _ _ _ => exact hkept (by rw [hc]) (by rw [hc, hd])
  | reader card dirty ha _ he hc _ _ => exact .served card dirty ha he (hl.credential.trans hc)
  | blank _ _ _ _ he => exact absurd hqes (not_quiet_of_origin (o := none) fun _ => by rw [he]; rfl)
  | cleared _ _ ho _ => exact absurd hqes (not_quiet_of_origin ho)
  | opened path _ _ _ he => exact absurd hqes (not_quiet_of_origin (o := some path) fun _ => by rw [he]; rfl)
  | saved path _ _ _ _ _ he => exact absurd hqes (not_quiet_of_origin (o := some path) fun _ => by rw [he]; rfl)
  | failed path c hst _ _ hc _ _ =>
    obtain ⟨hcard, hdirty⟩ := saveTarget_same hst
    exact hkept (by rw [hc, hcard]) (by rw [hc, hdirty, hd])
  | discarded ha ht _ _ _ => exact .discarded ha ht
  | deleted _ _ hc _ _ _ => exact hkept (by rw [hc]) (by rw [hc, hd])

theorem asked_fate (hb : Bottomed s.scenes) (hd : s.credential.dirty = true) (ht : s.scenes.head? = some top)
    (ha : asks top = true) : Fate P s i := by
  have hne : (step P s i).1.scenes ≠ [] := by
    rw [step_scenes P s i.1 i.2]
    exact Nav.ne_nil hb ht (asks_ne_mainMenu ha) (nav_ne_quit ht ha)
  have hother : ∀ scene, s.scenes.head? = some scene → asks scene = false → Fate P s i := by
    intro scene hs hno
    obtain rfl := Option.some.inj (ht.symm.trans hs)
    rw [ha] at hno
    cases hno
  cases step_moves P s i with
  | stay _ _ hq => exact quiet_fate hd hne hq
  | push _ _ _ _ _ _ _ hq => exact quiet_fate hd hne hq
  | blank _ hs _ _ _ => exact hother _ hs rfl
  | opened _ hs _ _ _ _ _ => exact hother _ hs rfl
  | refused hs _ _ => exact hother _ hs rfl
  | saved _ path _ _ _ _ _ ho hsv => exact .saved path (ho none) hsv
  | pop _ _ hq => exact quiet_fate hd hne hq
  | down _ _ _ _ _ _ hq => exact quiet_fate hd hne hq
  | close hs _ _ _ => exact hother _ hs rfl
  | quit _ hq => exact quiet_fate hd hne hq

/-- Back in a menu: the application ends, or the credential is cleared. -/
theorem menu_drops (e : Env) (ht : s.scenes.head? = some .mainMenu ∨ s.scenes.head? = some .savedMenu) :
    (step P s (.back, e)).1.scenes = [] ∨ (step P s (.back, e)).1.credential = P.codec.clear s.credential := by
  rcases ht with ht | ht
  · refine Or.inl ?_
    rw [step_scenes]
    simp only [nav, ht, mainMenuNav, Nav.apply]
  · exact Or.inr (leaves_back (h := savedMenuOnEvent P e s .back) (by simp only [onEvent, ht]) rfl).credential

end Fate

/-- Changes that are not saved stay with the scenes that ask in exactly the runs in which no save of them is given up.
In these, an event keeps them, is one of the reader's, is Discard, or has them in a file. A save that is given up keeps
them too, but in a menu, and the next Back clears them or ends the application. -/
theorem unsaved_guarded_iff (P : Parts n β) (hu : Unmarking P.codec) (files : Files) (c : Credential n β)
    (hc : c.dirty = false) (is : List (Action n β × Env)) :
    ((∀ js, js <+: is → Guarded (run (step P) (appInit files c) js).1) ↔
      Along (logged (step P)) (NoneLost P) (appInit files c, []) is) ∧
    (Along (logged (step P)) (NoneLost P) (appInit files c, []) is →
      let s := (run (step P) (appInit files c) is).1
      s.credential.dirty = true → ∀ i, Fate P s i ∧
        (GivesUp P i.2 s i.1 →
          let s' := (step P s i).1
          s'.credential.card = s.credential.card ∧ s'.credential.dirty = true ∧
          (∃ menu, s'.scenes.head? = some menu ∧ isMenu menu = true) ∧
          ∀ e, (step P s' (.back, e)).1.scenes = [] ∨
            (step P s' (.back, e)).1.credential = P.codec.clear s'.credential)) := by
  have h0 : Asked (appInit files c) := asked_init files hc
  refine ⟨?_, fun ha => ?_⟩
  · exact states_iff_along (fun a : App n β × List Effect => Asked a.1) (fun a => Guarded a.1) (fun _ h => h.guarded)
      (step_asked hu) (fun _ _ h hg => noneLost_of_guarded h hg) is _ h0
  · intro s hd i
    have hasked : Asked s := foldl_inv (fun a : App n β × List Effect => Asked a.1) (step_asked hu) is _ h0 ha
    obtain ⟨top, ht, htop⟩ := hasked.guarded hd
    refine ⟨asked_fate hasked.bottomed hd ht htop, fun hlost => ?_⟩
    obtain ⟨hcard, hmark⟩ := givesUp_same hlost
    obtain ⟨menu, hm, hmenu⟩ := givesUp_scenes hasked.bottomed hlost
    refine ⟨hcard, hmark.trans hd, ⟨menu, hm, hmenu⟩, fun e => menu_drops e ?_⟩
    rcases (isMenu_cases hmenu).2 with rfl | rfl
    · exact Or.inl hm
    · exact Or.inr hm

theorem cardCodec_unmarking : Unmarking (cardCodec (n := n)) := by
  have hread : ∀ mark (prior : Credential n Unit) octets, (readCard mark prior octets).2.dirty = true → prior.dirty = true := by
    intro mark prior octets h
    unfold readCard at h
    split at h
    · cases h
    · exact h
  exact ⟨hread _, hread _, fun _ h => by cases h⟩

/-- Update File on a medium that is full after two octets. -/
def fullEnv : Env := { workingEnv with save := workingSave 2 }

/-- A card is changed by a reader and Update File fails: the change is left in the saved menu, and Back clears it. -/
theorem failed_save_drops :
    let file : Path := fileIn appDataPathPrefix ['a']
    let stored := (packCard textMark (cardWith []).card).2
    let files : Files := Function.update (fun _ => none) file (some stored)
    let actions : List (Action 8 Unit) := [.mainMenu .saved, .fileChosen file, .savedMenu .emulate,
      .reader (cardWith [0x05, 0x65, 0x91, 0x02, 0x81]).card true, .back]
    let is := actions.map (·, workingEnv)
    let s := (run (step cardParts) (appInit files blankCredential) is).1
    let s' := (step cardParts s (.mutationSave .update, fullEnv)).1
    GivesUp cardParts fullEnv s (.mutationSave .update) ∧ s'.credential.card = s.credential.card ∧
      s'.credential.dirty = true ∧ (∃ menu, s'.scenes.head? = some menu ∧ isMenu menu = true) ∧
      ∀ e, (step cardParts s' (.back, e)).1.scenes = [] ∨
        (step cardParts s' (.back, e)).1.credential = cardParts.codec.clear s'.credential := by
  intro file stored files actions is
  have hsave : ∀ x ∈ actions, ¬(x = .mutationSave .update ∨ ∃ text, x = .textInputDone text) := by simp [actions]
  have ha : Along (logged (step cardParts)) (NoneLost cardParts) (appInit files blankCredential, []) is := by
    rw [along_iff]
    intro js i hp _ hlost
    obtain ⟨x, hx, rfl⟩ := List.mem_map.mp (hp.subset (List.mem_append_right _ (List.mem_singleton_self i)))
    exact hsave x hx hlost.saves
  have hd : (run (step cardParts) (appInit files blankCredential) is).1.credential.dirty = true := by decide
  have hlost : GivesUp cardParts fullEnv (run (step cardParts) (appInit files blankCredential) is).1
      (.mutationSave .update) := ⟨by decide, by decide, by decide⟩
  have hall := (unsaved_guarded_iff cardParts cardCodec_unmarking files blankCredential rfl is).2 ha hd
  exact ⟨hlost, (hall (.mutationSave .update, fullEnv)).2 hlost⟩

end DfcFlipper.Scenes
