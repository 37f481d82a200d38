/-
  DfcFlipper.Scenes.Changes — what a step of the application can do to the credential in
  memory and to the storage.

  A handler changes the data and then leaves it to the scene manager, which only moves between
  scenes and starts the listener (`Leaves`). `Changes` says once what the handlers do, one
  constructor for each way; `step_changes` that every step is one of these. Together with
  `Moves`, which says the same of the stack, the invariants of the credential are derived
  from it.
-/

import DfcFlipper.Scenes.Moves

namespace DfcFlipper.Scenes

open DfcFlipper.Lib.Bytes DfcFlipper.Lib.Stack DfcFlipper.Storage

variable {n : Nat} {β : Type}

/-! ## Leaving it to the scene manager -/

def Silent (es : List Effect) : Prop := ∀ ats, Effect.listening ats ∉ es

theorem silent_nil : Silent [] := fun _ h => (by cases h)

theorem silent_shownOf (message : Option String) : Silent (shownOf message) := by
  intro ats h
  cases message with
  | none => cases h
  | some text => simp [shownOf] at h

/-- The handler came to `t` with the effects `es`; what follows leaves the data and the origin, and
starts the listener only in the scene that emulates, with the credential's ATS. -/
structure Leaves (P : Parts n β) (t : App n β) (es : List Effect) (s' : App n β) (es' : List Effect) : Prop where
  credential : s'.credential = t.credential
  store : s'.store = t.store
  effects : ∃ fs, es' = es ++ fs ∧ Quiet fs ∧
    ∀ ats, .listening ats ∈ fs → ats = P.anticollisionAts t.credential ∧ s'.scenes.head? = some .emulate

section Leaves

variable {P : Parts n β} {e : Env} {s t t' : App n β} {es : List Effect}

theorem leaves_stay : Leaves P t es t es := ⟨rfl, rfl, [], (List.append_nil es).symm, Quiet.nil, fun ats h => (by cases h)⟩

theorem switchTo_listening {scenes : List Scene} {ats : Octets} (h : .listening ats ∈ (switchTo P e t scenes).2) :
    ats = P.anticollisionAts t.credential ∧ scenes.head? = some .emulate := by
  unfold switchTo at h
  by_cases ht : scenes.head? = some .emulate
  · rw [if_pos ht] at h
    split at h
    · rename_i ats' he
      obtain rfl : ats = ats' := by simpa using h
      refine ⟨?_, ht⟩
      simp only [emulateOnEnter] at he
      repeat' split at he
      all_goals first | cases he; done | exact (Option.some.inj he).symm
    · cases h
  · rw [if_neg ht] at h
    cases h

theorem leaves_switch (scenes : List Scene) : Leaves P t es (switchTo P e t scenes).1 (es ++ (switchTo P e t scenes).2) := by
  refine ⟨switchTo_credential P e t scenes, switchTo_store P e t scenes, _, rfl, switchTo_quiet P e t scenes, ?_⟩
  intro ats h
  rw [switchTo_scenes]
  exact switchTo_listening h

theorem leaves_next (scene : Scene) :
    Leaves P t es ((nextScene P e t scene).after es).app ((nextScene P e t scene).after es).effects :=
  leaves_switch (scene :: t.scenes)

theorem leaves_previous (es : List Effect) :
    Leaves P t es ((previousScene P e t).after es).app ((previousScene P e t).after es).effects :=
  leaves_switch t.scenes.tail

theorem leaves_search (scene : Scene) :
    Leaves P t es ((searchAndSwitchToPreviousScene P e t scene).after es).app
      ((searchAndSwitchToPreviousScene P e t scene).after es).effects := by
  simp only [searchAndSwitchToPreviousScene, Handled.after]
  split
  · rename_i scenes _
    exact leaves_switch scenes
  · exact ⟨rfl, rfl, [], rfl, Quiet.nil, fun ats h => (by cases h)⟩

/-- Only the data of the state before matters. -/
theorem Leaves.congr {s' : App n β} {es' : List Effect} (h : Leaves P t es s' es') (hc : t.credential = t'.credential)
    (hs : t.store = t'.store) : Leaves P t' es s' es' := by
  obtain ⟨h1, h2, h3⟩ := h
  rw [hc] at h1 h3
  rw [hs] at h2
  exact ⟨h1, h2, h3⟩

theorem leaves_return (es : List Effect) :
    Leaves P t es ((mutationSaveReturn P e t).after es).app ((mutationSaveReturn P e t).after es).effects := by
  have h : Leaves P { t with emulateFromBlank := false } es ((mutationSaveReturn P e t).after es).app
      ((mutationSaveReturn P e t).after es).effects := leaves_search _
  exact h.congr rfl rfl

/-- Back, not handled. -/
theorem leaves_back {h : Handled n β} (hh : onEvent P e s .back = h) (hc : h.consumed = false) :
    Leaves P h.app h.effects (handleEvent P e s .back).1 (handleEvent P e s .back).2 := by
  simp only [handleEvent, hh, hc, Bool.false_eq_true, if_false]
  exact leaves_previous h.effects

/-- Back, handled by going one scene down. -/
theorem leaves_back_previous (hh : onEvent P e s .back = previousScene P e s) :
    Leaves P s [] (handleEvent P e s .back).1 (handleEvent P e s .back).2 := by
  simp only [handleEvent, hh]
  split
  · exact leaves_previous []
  · rename_i hc
    have ht : s.scenes.tail = [] := by simpa [previousScene] using hc
    have hnil : previousScene P e s = ⟨{ s with scenes := [], emulating := false }, [], false⟩ := by
      simp [previousScene, ht, switchTo]
    rw [hnil]
    have h : Leaves P { s with scenes := [], emulating := false } [] _ _ := leaves_previous (e := e) []
    exact h.congr rfl rfl

end Leaves

/-! ## The data -/

/-- The save an event asks for: the path, and the credential written there. -/
def saveTarget (P : Parts n β) (s : App n β) (a : Action n β) : Option (Path × Credential n β) :=
  match s.scenes.head?, a with
  | some .mutationSave, .mutationSave .update =>
    if s.store.loadPath = [] then none else some (textPath s.store.loadPath, s.credential)
  | some .saveName, .textInputDone text =>
    if saveNameAccepts P.sdk s.store s.credential text = false then none
    else some (savePath P.sdk s.store.loadPath text.chars, { s.credential with name := Name.copy n text.chars })
  | _, _ => none

/-- What a handler does to the data, before it leaves the rest to the scene manager. -/
inductive Changes (P : Parts n β) (e : Env) (a : Action n β) (s t : App n β) (es : List Effect) : Prop
  | kept : t.credential = s.credential → t.store = s.store → Quiet es → Silent es → Changes P e a s t es
  | reader (card : Card β) (dirty : Bool) : a = .reader card dirty → s.scenes.head? = some .emulate →
      s.emulating = true → t.credential = { s.credential with card := card, dirty := dirty } → t.store = s.store →
      es = [] → Changes P e a s t es
  | blank : a = .mainMenu .blankCard → s.scenes.head? = some .mainMenu → t.credential = P.initBlank s.credential →
      t.store = s.store → es = [.replaced] → Changes P e a s t es
  /-- A file that is refused, or Back from the saved menu. -/
  | cleared : s.scenes.head? = some .fileSelect ∨ s.scenes.head? = some .savedMenu → t.store.files = s.store.files →
      (∀ o, es.foldl originStep o = none) → Silent es → Changes P e a s t es
  | opened (path : Path) : t.store.loadPath = path → t.store.files = s.store.files → LoadedFrom P e s t path →
      es = [.loaded path] → Changes P e a s t es
  | saved (path : Path) (c : Credential n β) : saveTarget P s a = some (path, c) →
      (saveAt P.text e.save s.store c path).saved = true → t.store = (saveAt P.text e.save s.store c path).store →
      t.credential = c.clearDirty → es = [.saved path] → Changes P e a s t es
  | failed (path : Path) (c : Credential n β) : saveTarget P s a = some (path, c) →
      (saveAt P.text e.save s.store c path).saved = false → t.store = (saveAt P.text e.save s.store c path).store →
      t.credential = c → Quiet es → Silent es → Changes P e a s t es
  | discarded : a = .mutationSave .discard → s.scenes.head? = some .mutationSave →
      t.credential = s.credential.clearDirty → t.store = s.store → es = [] → Changes P e a s t es
  | deleted : a = .buttonRight → s.scenes.head? = some .delete → t.credential = s.credential →
      t.store.loadPath = s.store.loadPath → Quiet es → Silent es → Changes P e a s t es

/-- The two saves: Update File, and a name that is accepted. -/
theorem saveTarget_cases {P : Parts n β} {s : App n β} {a : Action n β} {path : Path} {c : Credential n β}
    (h : saveTarget P s a = some (path, c)) :
    (s.scenes.head? = some .mutationSave ∧ a = .mutationSave .update ∧ s.store.loadPath ≠ [] ∧
      path = textPath s.store.loadPath ∧ c = s.credential) ∨
    ∃ text, s.scenes.head? = some .saveName ∧ a = .textInputDone text ∧
      saveNameAccepts P.sdk s.store s.credential text ≠ false ∧ path = savePath P.sdk s.store.loadPath text.chars ∧
      c = ⟨Name.copy n text.chars, s.credential.card, s.credential.dirty⟩ := by
  unfold saveTarget at h
  split at h
  · rename_i ht
    split at h
    · cases h
    rename_i hp
    obtain ⟨rfl, rfl⟩ := Prod.mk.inj (Option.some.inj h)
    exact Or.inl ⟨ht, rfl, hp, rfl, rfl⟩
  · rename_i text ht
    split at h
    · cases h
    rename_i hacc
    obtain ⟨rfl, rfl⟩ := Prod.mk.inj (Option.some.inj h)
    exact Or.inr ⟨text, ht, rfl, hacc, rfl, rfl⟩
  · cases h

theorem saveTarget_same {P : Parts n β} {s : App n β} {a : Action n β} {path : Path} {c : Credential n β}
    (h : saveTarget P s a = some (path, c)) : c.card = s.credential.card ∧ c.dirty = s.credential.dirty := by
  rcases saveTarget_cases h with ⟨_, _, _, _, rfl⟩ | ⟨_, _, _, _, _, rfl⟩
  · exact ⟨rfl, rfl⟩
  · exact ⟨rfl, rfl⟩

/-- No handler starts the listener; the scene manager does. -/
theorem Changes.silent {P : Parts n β} {e : Env} {a : Action n β} {s t : App n β} {es : List Effect}
    (h : Changes P e a s t es) : Silent es := by
  cases h with
  | kept _ _ _ hs => exact hs
  | reader _ _ _ _ _ _ _ he => exact he ▸ silent_nil
  | blank _ _ _ _ he => rw [he]; simp [Silent]
  | cleared _ _ _ hs => exact hs
  | opened _ _ _ _ he => rw [he]; simp [Silent]
  | saved _ _ _ _ _ _ he => rw [he]; simp [Silent]
  | failed _ _ _ _ _ _ _ hs => exact hs
  | discarded _ _ _ _ he => exact he ▸ silent_nil
  | deleted _ _ _ _ _ hs => exact hs

/-! ## The handlers -/

section Handlers

variable {P : Parts n β} {e : Env} {a : Action n β} {s s' : App n β} {es : List Effect}

theorem saveNameDone_eq (text : Name n) :
    saveNameDone P.sdk P.text e.save s.store s.credential text = saveAt P.text e.save s.store
      ⟨Name.copy n text.chars, s.credential.card, s.credential.dirty⟩ (savePath P.sdk s.store.loadPath text.chars) := rfl

/-- A save that succeeds, by either way. -/
theorem saved_leaves {path : Path} {c : Credential n β} (hst : saveTarget P s a = some (path, c))
    (hs : (saveAt P.text e.save s.store c path).saved = true) :
    Leaves P ⟨s.scenes, c.clearDirty, (saveAt P.text e.save s.store c path).store, s.emulateFromBlank, s.emulating⟩
      [.saved path] (handleEvent P e s a).1 (handleEvent P e s a).2 := by
  obtain ⟨hpath, hc, _⟩ := saveAt_stored hs
  rcases saveTarget_cases hst with ⟨ht, rfl, hp, rfl, rfl⟩ | ⟨text, ht, rfl, hacc, rfl, rfl⟩
  · simp only [handleEvent, onEvent, ht, mutationSaveOnEvent, credentialSaveLoaded, if_neg hp]
    rw [if_pos hs, hpath, hc]
    exact leaves_next .saveSuccess
  · simp only [handleEvent, onEvent, ht, saveNameInput, saveNameOnEvent, if_neg hacc]
    rw [saveNameDone_eq, if_pos hs, hpath, hc]
    exact leaves_next .saveSuccess

/-- A save that fails, by either way. -/
theorem failed_leaves {path : Path} {c : Credential n β} (hst : saveTarget P s a = some (path, c))
    (hf : (saveAt P.text e.save s.store c path).saved = false) :
    Leaves P ⟨s.scenes, c, (saveAt P.text e.save s.store c path).store, s.emulateFromBlank, s.emulating⟩
      (shownOf (saveAt P.text e.save s.store c path).shown) (handleEvent P e s a).1 (handleEvent P e s a).2 := by
  have hc := (saveAt_failed hf).2
  have hne : ¬(saveAt P.text e.save s.store c path).saved = true := by rw [hf]; simp
  rcases saveTarget_cases hst with ⟨ht, rfl, hp, rfl, rfl⟩ | ⟨text, ht, rfl, hacc, rfl, rfl⟩
  · simp only [handleEvent, onEvent, ht, mutationSaveOnEvent, credentialSaveLoaded, if_neg hp]
    rw [if_neg hne, hc]
    exact leaves_return _
  · simp only [handleEvent, onEvent, ht, saveNameInput, saveNameOnEvent, if_neg hacc]
    rw [saveNameDone_eq, if_neg hne, hc]
    exact leaves_search .mainMenu

theorem discarded_leaves (ht : s.scenes.head? = some .mutationSave) :
    Leaves P { s with credential := s.credential.clearDirty } [] (handleEvent P e s (.mutationSave .discard)).1
      (handleEvent P e s (.mutationSave .discard)).2 := by
  simp only [handleEvent, onEvent, ht]
  exact leaves_return []

def Does (P : Parts n β) (e : Env) (a : Action n β) (s s' : App n β) (es : List Effect) : Prop :=
  ∃ t fs, Changes P e a s t fs ∧ Leaves P t fs s' es

theorem does_kept (h : Leaves P s [] s' es) : Does P e a s s' es := ⟨s, [], .kept rfl rfl Quiet.nil silent_nil, h⟩

theorem save_does {path : Path} {c : Credential n β} (hst : saveTarget P s a = some (path, c)) :
    Does P e a s (handleEvent P e s a).1 (handleEvent P e s a).2 := by
  cases hs : (saveAt P.text e.save s.store c path).saved with
  | true => exact ⟨_, _, .saved path c hst hs rfl rfl rfl, saved_leaves hst hs⟩
  | false => exact ⟨_, _, .failed path c hst hs rfl rfl (quiet_shownOf _) (silent_shownOf _), failed_leaves hst hs⟩

/-- Back, not handled, with the data as it was. -/
theorem does_back {h : Handled n β} (hh : onEvent P e s .back = h) (hc : h.consumed = false)
    (ha : h.app.credential = s.credential) (hs : h.app.store = s.store) (he : h.effects = []) :
    Does P e .back s (handleEvent P e s .back).1 (handleEvent P e s .back).2 := by
  have hl := leaves_back hh hc
  rw [he] at hl
  exact does_kept (hl.congr ha hs)

theorem mainMenu_does (ht : s.scenes.head? = some .mainMenu) (a : Action n β) :
    Does P e a s (handleEvent P e s a).1 (handleEvent P e s a).2 := by
  cases a with
  | back => exact does_back (by simp only [onEvent, ht, mainMenuOnEvent]; rfl) rfl rfl rfl rfl
  | mainMenu item =>
    simp only [handleEvent, onEvent, ht]
    cases item with
    | saved => exact does_kept (leaves_next (e := e) .fileSelect)
    | about => exact does_kept (leaves_next (e := e) .about)
    | blankCard =>
      exact ⟨{ s with credential := P.initBlank s.credential, emulateFromBlank := true }, [.replaced],
        .blank rfl ht rfl rfl rfl, leaves_next .emulate⟩
  | _ =>
    simp only [handleEvent, onEvent, ht, mainMenuOnEvent]
    exact does_kept leaves_stay

theorem fileSelect_does (ht : s.scenes.head? = some .fileSelect) (a : Action n β) :
    Does P e a s (handleEvent P e s a).1 (handleEvent P e s a).2 := by
  cases a with
  | back => exact does_back (by simp only [onEvent, ht, fileSelectOnEvent]; rfl) rfl rfl rfl rfl
  | fileChosen path =>
    simp only [handleEvent, onEvent, ht, fileSelectOnEvent, fileSelectCallback]
    split
    · exact ⟨_, [.replaced], .cleared (Or.inl ht) (by rfl) (fun _ => rfl) (by simp [Silent]), leaves_search .mainMenu⟩
    split
    · rename_i hl
      exact ⟨_, [.loaded path], .opened path (by rfl) (by rfl) ⟨hl, rfl⟩ rfl, leaves_next .savedMenu⟩
    · exact ⟨_, [.shown _, .replaced], .cleared (Or.inl ht) (by rfl) (fun _ => rfl) (by simp [Silent]),
        leaves_search .mainMenu⟩
  | _ =>
    simp only [handleEvent, onEvent, ht, fileSelectOnEvent]
    exact does_kept leaves_stay

theorem savedMenu_does (ht : s.scenes.head? = some .savedMenu) (a : Action n β) :
    Does P e a s (handleEvent P e s a).1 (handleEvent P e s a).2 := by
  cases a with
  | back =>
    refine ⟨_, _, .cleared (Or.inr ht) ?_ ?_ ?_, leaves_back (h := savedMenuOnEvent P e s .back) ?_ rfl⟩
    · rfl
    · exact fun _ => rfl
    · simp [savedMenuOnEvent, Silent]
    · simp only [onEvent, ht]
  | savedMenu item =>
    simp only [handleEvent, onEvent, ht]
    cases item with
    | emulate => exact does_kept (leaves_next (e := e) .emulate)
    | info => exact does_kept (leaves_next (e := e) .info)
    | delete => exact does_kept (leaves_next (e := e) .delete)
  | _ =>
    simp only [handleEvent, onEvent, ht, savedMenuOnEvent]
    exact does_kept leaves_stay

theorem emulate_does (ht : s.scenes.head? = some .emulate) (a : Action n β) :
    Does P e a s (handleEvent P e s a).1 (handleEvent P e s a).2 := by
  cases a with
  | back =>
    by_cases hd : s.credential.dirty = true
    · have hh : onEvent P e s .back = nextScene P e s .mutationSave := by
        simp only [onEvent, ht, emulateOnEvent, hd, if_true]
      simp only [handleEvent, hh]
      exact does_kept (leaves_next (e := e) .mutationSave)
    · by_cases hb : s.emulateFromBlank = true
      · refine does_back (h := ⟨{ s with emulateFromBlank := false }, [], false⟩) ?_ rfl rfl rfl rfl
        simp only [onEvent, ht, emulateOnEvent, if_neg hd, if_pos hb]
      · refine does_back (h := ⟨s, [], false⟩) ?_ rfl rfl rfl rfl
        simp only [onEvent, ht, emulateOnEvent, if_neg hd, if_neg hb]
  | reader card dirty =>
    simp only [handleEvent, onEvent, ht, emulateOnEvent]
    split
    · rename_i hem
      exact ⟨{ s with credential := { s.credential with card := card, dirty := dirty } }, [],
        .reader card dirty rfl ht hem rfl rfl rfl, leaves_stay⟩
    · exact does_kept leaves_stay
  | _ =>
    simp only [handleEvent, onEvent, ht, emulateOnEvent]
    exact does_kept leaves_stay

theorem mutationSave_does (ht : s.scenes.head? = some .mutationSave) (a : Action n β) :
    Does P e a s (handleEvent P e s a).1 (handleEvent P e s a).2 := by
  cases a with
  | back => exact does_kept (leaves_back_previous (by simp only [onEvent, ht, mutationSaveOnEvent]))
  | mutationSave item =>
    cases item with
    | update =>
      by_cases hp : s.store.loadPath = []
      · simp only [handleEvent, onEvent, ht, mutationSaveOnEvent, credentialSaveLoaded, if_pos hp, Bool.false_eq_true,
          if_false]
        exact does_kept (leaves_return [])
      · have hst : saveTarget P s (.mutationSave .update) = some (textPath s.store.loadPath, s.credential) := by
          simp only [saveTarget, ht, if_neg hp]
        exact save_does hst
    | saveCopy =>
      simp only [handleEvent, onEvent, ht]
      exact does_kept (leaves_next (e := e) .saveName)
    | save =>
      simp only [handleEvent, onEvent, ht]
      exact does_kept (leaves_next (e := e) .saveName)
    | discard =>
      exact ⟨{ s with credential := s.credential.clearDirty }, [], .discarded rfl ht rfl rfl rfl, discarded_leaves ht⟩
  | _ =>
    simp only [handleEvent, onEvent, ht, mutationSaveOnEvent]
    exact does_kept leaves_stay

theorem saveName_does (ht : s.scenes.head? = some .saveName) (a : Action n β) :
    Does P e a s (handleEvent P e s a).1 (handleEvent P e s a).2 := by
  cases a with
  | back => exact does_back (by simp only [onEvent, ht, saveNameInput, saveNameOnEvent]; rfl) rfl rfl rfl rfl
  | textInputDone text =>
    by_cases hacc : saveNameAccepts P.sdk s.store s.credential text = false
    · simp only [handleEvent, onEvent, ht, saveNameInput, saveNameOnEvent, if_pos hacc]
      exact does_kept leaves_stay
    · have hst : saveTarget P s (.textInputDone text) = some (savePath P.sdk s.store.loadPath text.chars,
          ⟨Name.copy n text.chars, s.credential.card, s.credential.dirty⟩) := by
        simp only [saveTarget, ht, if_neg hacc]
      exact save_does hst
  | _ =>
    simp only [handleEvent, onEvent, ht, saveNameInput, saveNameOnEvent]
    exact does_kept leaves_stay

theorem success_does (hon : ∀ a, onEvent P e s a = successOnEvent P e s a) (a : Action n β) :
    Does P e a s (handleEvent P e s a).1 (handleEvent P e s a).2 := by
  cases a with
  | back => exact does_back (hon _) rfl rfl rfl rfl
  | viewExit =>
    simp only [handleEvent, hon]
    exact does_kept (leaves_search .mainMenu)
  | _ =>
    simp only [handleEvent, hon, successOnEvent]
    exact does_kept leaves_stay

theorem delete_does (ht : s.scenes.head? = some .delete) (a : Action n β) :
    Does P e a s (handleEvent P e s a).1 (handleEvent P e s a).2 := by
  cases a with
  | back => exact does_back (by simp only [onEvent, ht, deleteOnEvent]; rfl) rfl rfl rfl rfl
  | buttonLeft =>
    simp only [handleEvent, onEvent, ht]
    exact does_kept (leaves_previous [])
  | buttonRight =>
    have hp : (credentialDelete e.remove s.store s.credential true).1.loadPath = s.store.loadPath := by
      unfold credentialDelete
      split <;> rfl
    simp only [handleEvent, onEvent, ht, deleteOnEvent]
    split
    · exact ⟨{ s with store := (credentialDelete e.remove s.store s.credential true).1 }, [],
        .deleted rfl ht rfl hp Quiet.nil silent_nil, leaves_next (e := e) .deleteSuccess⟩
    · exact ⟨{ s with store := (credentialDelete e.remove s.store s.credential true).1 }, [.shown canNotRemove],
        .deleted rfl ht rfl hp (fun _ => rfl) (by simp [Silent]), leaves_search .mainMenu⟩
  | _ =>
    simp only [handleEvent, onEvent, ht, deleteOnEvent]
    exact does_kept leaves_stay

theorem info_does (hon : ∀ a, onEvent P e s a = infoOnEvent P e s a) (a : Action n β) :
    Does P e a s (handleEvent P e s a).1 (handleEvent P e s a).2 := by
  cases a with
  | back => exact does_kept (leaves_back_previous (hon _))
  | buttonLeft =>
    simp only [handleEvent, hon]
    exact does_kept (leaves_previous [])
  | _ =>
    simp only [handleEvent, hon, infoOnEvent]
    exact does_kept leaves_stay

end Handlers

/-- What any event does to the data in any state. -/
theorem step_changes (P : Parts n β) (s : App n β) (i : Action n β × Env) :
    Does P i.2 i.1 s (step P s i).1 (step P s i).2 := by
  obtain ⟨a, e⟩ := i
  simp only [step]
  cases ht : s.scenes.head? with
  | none =>
    have hon : ∀ a, onEvent P e s a = ⟨s, [], false⟩ := fun a => by simp only [onEvent, ht]
    cases a with
    | back => exact does_back (hon _) rfl rfl rfl rfl
    | _ =>
      simp only [handleEvent, hon]
      exact does_kept leaves_stay
  | some top =>
    cases top with
    | mainMenu => exact mainMenu_does ht a
    | emulate => exact emulate_does ht a
    | fileSelect => exact fileSelect_does ht a
    | savedMenu => exact savedMenu_does ht a
    | saveName => exact saveName_does ht a
    | mutationSave => exact mutationSave_does ht a
    | saveSuccess => exact success_does (fun a => by simp only [onEvent, ht]) a
    | about => exact info_does (fun a => by simp only [onEvent, ht]) a
    | delete => exact delete_does ht a
    | deleteSuccess => exact success_does (fun a => by simp only [onEvent, ht]) a
    | info => exact info_does (fun a => by simp only [onEvent, ht]) a

end DfcFlipper.Scenes
