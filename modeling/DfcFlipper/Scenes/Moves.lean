/-
  DfcFlipper.Scenes.Moves — what a step of the application can do to the stack of scenes,
  to `load_path` and to the origin of the credential in memory.

  The origin is read off the effects of a run: the file last loaded from or saved to, or
  none once the credential was replaced (`origin`). `step_moves` says once what each event
  does; the invariants of the scenes are derived from it and never look into a handler
  again. `step_origin` ties the origin to the data: where it becomes a file, the credential
  in memory is what a load made of that file, or the file is its text.
-/

import DfcFlipper.Lib.Run
import DfcFlipper.Scenes.App

namespace DfcFlipper.Scenes

open DfcFlipper.Lib.Bytes DfcFlipper.Lib.Run DfcFlipper.Lib.Stack DfcFlipper.Storage

variable {n : Nat} {β : Type}

/-! ## The origin -/

def originStep (o : Option Path) : Effect → Option Path
  | .loaded path => some path
  | .saved path => some path
  | .replaced => none
  | .listening _ => o
  | .shown _ => o

/-- The file the credential in memory came from or was last saved to. -/
def origin (es : List Effect) : Option Path := es.foldl originStep none

def Quiet (es : List Effect) : Prop := ∀ o, es.foldl originStep o = o

theorem Quiet.nil : Quiet [] := fun _ => rfl

theorem Quiet.append {es fs : List Effect} (he : Quiet es) (hf : Quiet fs) : Quiet (es ++ fs) := by
  intro o
  rw [List.foldl_append, he o, hf o]

theorem Quiet.left {es fs : List Effect} (h : Quiet (es ++ fs)) (hf : Quiet fs) : Quiet es := by
  intro o
  have ho := h o
  rwa [List.foldl_append, hf] at ho

theorem origin_append (es fs : List Effect) : origin (es ++ fs) = fs.foldl originStep (origin es) :=
  List.foldl_append

theorem quiet_shownOf (message : Option String) : Quiet (shownOf message) := by
  cases message <;> exact fun _ => rfl

/-! ## The scene manager's calls -/

section Manager

variable (P : Parts n β) (e : Env) (s : App n β)

theorem switchTo_scenes (scenes : List Scene) : (switchTo P e s scenes).1.scenes = scenes := by
  unfold switchTo
  split
  · split <;> rfl
  · rfl

theorem switchTo_store (scenes : List Scene) : (switchTo P e s scenes).1.store = s.store := by
  unfold switchTo
  split
  · split <;> rfl
  · rfl

theorem switchTo_credential (scenes : List Scene) : (switchTo P e s scenes).1.credential = s.credential := by
  unfold switchTo
  split
  · split <;> rfl
  · rfl

theorem switchTo_quiet (scenes : List Scene) : Quiet (switchTo P e s scenes).2 := by
  unfold switchTo
  split
  · split
    · exact fun _ => rfl
    · exact Quiet.nil
  · exact Quiet.nil

def covers : Scene → Scene → Bool
  | .fileSelect, .mainMenu => true
  | .about, .mainMenu => true
  | .emulate, .mainMenu => true
  | .savedMenu, .fileSelect => true
  | .emulate, .savedMenu => true
  | .info, .savedMenu => true
  | .delete, .savedMenu => true
  | .mutationSave, .emulate => true
  | .saveName, .mutationSave => true
  | .saveSuccess, .mutationSave => true
  | .saveSuccess, .saveName => true
  | .deleteSuccess, .delete => true
  | _, _ => false

/-- The scenes that work on the credential in memory. -/
def holdsCredential : Scene → Bool
  | .mainMenu => false
  | .fileSelect => false
  | .about => false
  | _ => true

structure LoadedFrom (P : Parts n β) (e : Env) (s s' : App n β) (path : Path) : Prop where
  loaded : (loadSelectedFile P.sdk P.codec e.load ⟨path, s.store.files⟩
    { s.credential with name := Name.copy n (P.sdk.extractFilename path) }).loaded = true
  credential : s'.credential = (loadSelectedFile P.sdk P.codec e.load ⟨path, s.store.files⟩
    { s.credential with name := Name.copy n (P.sdk.extractFilename path) }).credential

/-- The file at `path` is the text of the credential in memory, which is clean. -/
structure SavedTo (P : Parts n β) (e : Env) (s s' : App n β) (path : Path) : Prop where
  card : s'.credential.card = s.credential.card
  clean : s'.credential.dirty = false
  text : ∃ c text, c.clearDirty = s'.credential ∧ Renders P.text e.save c text ∧ s'.store.files path = some text

/-- What a step does, seen from the stack, `load_path` and the origin. -/
inductive Moves (P : Parts n β) (e : Env) (a : Action n β) (s s' : App n β) (es : List Effect) : Prop
  | stay : s'.scenes = s.scenes → s'.store.loadPath = s.store.loadPath → Quiet es → Moves P e a s s' es
  /-- A scene is pushed that works on the credential the top works on, or on none. -/
  | push (top scene : Scene) : s.scenes.head? = some top → covers scene top = true →
      (holdsCredential scene = true → holdsCredential top = true) → s'.scenes = scene :: s.scenes →
      s'.store.loadPath = s.store.loadPath → Quiet es → Moves P e a s s' es
  /-- Blank Card. -/
  | blank : a = .mainMenu .blankCard → s.scenes.head? = some .mainMenu → s'.scenes = .emulate :: s.scenes →
      s'.store.loadPath = s.store.loadPath → (∀ o, es.foldl originStep o = none) → Moves P e a s s' es
  /-- A file is chosen and loaded. -/
  | opened (path : Path) : s.scenes.head? = some .fileSelect → path ≠ [] → s'.scenes = .savedMenu :: s.scenes →
      s'.store.loadPath = path → (∀ o, es.foldl originStep o = some path) → LoadedFrom P e s s' path →
      Moves P e a s s' es
  /-- A file is chosen and refused: its path stays in `load_path`. -/
  | refused : s.scenes.head? = some .fileSelect →
      (s'.scenes = s.scenes ∨ search .mainMenu s.scenes = some s'.scenes) →
      (∀ o, es.foldl originStep o = none) → Moves P e a s s' es
  /-- The credential is saved. -/
  | saved (top : Scene) (path : Path) : s.scenes.head? = some top → covers .saveSuccess top = true →
      path ≠ [] → s'.scenes = .saveSuccess :: s.scenes → s'.store.loadPath = path →
      (∀ o, es.foldl originStep o = some path) → SavedTo P e s s' path → Moves P e a s s' es
  | pop : s'.scenes = s.scenes.tail → s'.store.loadPath = s.store.loadPath → Quiet es → Moves P e a s s' es
  /-- A switch down to the main menu, or to the saved menu while a credential is there. -/
  | down (top scene : Scene) : s.scenes.head? = some top → search scene s.scenes = some s'.scenes →
      (holdsCredential scene = true → holdsCredential top = true) → s'.store.loadPath = s.store.loadPath →
      Quiet es → Moves P e a s s' es
  /-- Back from the saved menu clears the credential. -/
  | close : s.scenes.head? = some .savedMenu → s'.scenes = s.scenes.tail →
      s'.store.loadPath = s.store.loadPath → (∀ o, es.foldl originStep o = none) → Moves P e a s s' es
  | quit : s'.scenes = [] → Quiet es → Moves P e a s s' es

variable {P : Parts n β} {e : Env} {a : Action n β} {s t : App n β} {es : List Effect}

structure Same (s t : App n β) : Prop where
  scenes : t.scenes = s.scenes
  loadPath : t.store.loadPath = s.store.loadPath

theorem Same.rfl : Same s s := ⟨Eq.refl _, Eq.refl _⟩

theorem moves_next {top scene : Scene} (ht : s.scenes.head? = some top) (hc : covers scene top = true)
    (hh : holdsCredential scene = true → holdsCredential top = true) (hst : Same s t) :
    Moves P e a s (nextScene P e t scene).app (nextScene P e t scene).effects := by
  refine Moves.push top scene ht hc hh ?_ ?_ (switchTo_quiet P e t _)
  · simp only [nextScene, switchTo_scenes, hst.scenes]
  · simp only [nextScene, switchTo_store, hst.loadPath]

theorem moves_previous (hst : Same s t) :
    Moves P e a s (previousScene P e t).app (previousScene P e t).effects := by
  refine Moves.pop ?_ ?_ (switchTo_quiet P e t _)
  · simp only [previousScene, switchTo_scenes, hst.scenes]
  · simp only [previousScene, switchTo_store, hst.loadPath]

theorem moves_search {top scene : Scene} (ht : s.scenes.head? = some top)
    (hh : holdsCredential scene = true → holdsCredential top = true) (hst : Same s t) (hq : Quiet es) :
    Moves P e a s ((searchAndSwitchToPreviousScene P e t scene).after es).app
      ((searchAndSwitchToPreviousScene P e t scene).after es).effects := by
  simp only [searchAndSwitchToPreviousScene, Handled.after]
  split
  · rename_i scenes hs
    refine Moves.down top scene ht ?_ hh ?_ (hq.append (switchTo_quiet P e t scenes))
    · simp only [switchTo_scenes, ← hs, hst.scenes]
    · simp only [switchTo_store, hst.loadPath]
  · exact Moves.stay hst.scenes hst.loadPath (hq.append Quiet.nil)

end Manager

/-! ## The handlers -/

section Handlers

variable {P : Parts n β} {e : Env} {a : Action n β} {s t : App n β} {es : List Effect}

/-- Back, not handled: one scene down. -/
theorem moves_back {h : Handled n β} (hh : onEvent P e s .back = h) (hc : h.consumed = false) (hst : Same s h.app)
    (hq : Quiet h.effects) : Moves P e a s (handleEvent P e s .back).1 (handleEvent P e s .back).2 := by
  simp only [handleEvent, hh, hc, Bool.false_eq_true, if_false, Handled.after]
  refine Moves.pop ?_ ?_ (hq.append (switchTo_quiet P e h.app _))
  · simp only [previousScene, switchTo_scenes, hst.scenes]
  · simp only [previousScene, switchTo_store, hst.loadPath]

/-- Back, handled by going one scene down: if that was the last scene, nothing is left to go down to. -/
theorem moves_back_previous (hh : onEvent P e s .back = previousScene P e s) :
    Moves P e a s (handleEvent P e s .back).1 (handleEvent P e s .back).2 := by
  simp only [handleEvent, hh]
  split
  · exact moves_previous Same.rfl
  · rename_i hc
    have ht : s.scenes.tail = [] := by simpa [previousScene] using hc
    refine Moves.quit ?_ ((switchTo_quiet P e _ _).append (switchTo_quiet P e _ _))
    simp only [Handled.after, previousScene, switchTo_scenes, ht, List.tail_nil]

theorem mainMenu_moves (ht : s.scenes.head? = some .mainMenu) (a : Action n β) :
    Moves P e a s (handleEvent P e s a).1 (handleEvent P e s a).2 := by
  cases a with
  | back =>
    refine Moves.quit ?_ ?_
    · simp only [handleEvent, onEvent, ht, mainMenuOnEvent, Bool.false_eq_true, if_false, Handled.after,
        previousScene, switchTo_scenes, List.tail_nil]
    · simp only [handleEvent, onEvent, ht, mainMenuOnEvent, Bool.false_eq_true, if_false, Handled.after]
      exact Quiet.nil.append (switchTo_quiet P e _ _)
  | mainMenu item =>
    simp only [handleEvent, onEvent, ht]
    cases item with
    | saved => exact moves_next ht rfl (by simp [holdsCredential]) Same.rfl
    | about => exact moves_next ht rfl (by simp [holdsCredential]) Same.rfl
    | blankCard =>
      refine Moves.blank rfl ht ?_ ?_ fun o => ?_
      · simp only [mainMenuOnEvent, nextScene, Handled.after, switchTo_scenes]
      · simp only [mainMenuOnEvent, nextScene, Handled.after, switchTo_store]
      · simp only [mainMenuOnEvent, nextScene, Handled.after, List.foldl_append]
        exact switchTo_quiet P e _ _ none
  | _ =>
    simp only [handleEvent, onEvent, ht, mainMenuOnEvent]
    exact Moves.stay rfl rfl Quiet.nil

/-- A file that is refused: the credential is replaced, and the scene left if the main menu is below. -/
theorem moves_refused (ht : s.scenes.head? = some .fileSelect) (hs : t.scenes = s.scenes)
    (ho : ∀ o, es.foldl originStep o = none) :
    Moves P e a s ((searchAndSwitchToPreviousScene P e t .mainMenu).after es).app
      ((searchAndSwitchToPreviousScene P e t .mainMenu).after es).effects := by
  simp only [searchAndSwitchToPreviousScene, Handled.after]
  split
  · rename_i scenes hsc
    rw [hs] at hsc
    refine Moves.refused ht ?_ fun o => ?_
    · simp only [switchTo_scenes, hsc]
      exact Or.inr trivial
    · rw [List.foldl_append, ho]
      exact switchTo_quiet P e _ _ none
  · refine Moves.refused ht (Or.inl hs) fun o => ?_
    rw [List.append_nil, ho]

theorem fileSelect_moves (ht : s.scenes.head? = some .fileSelect) (a : Action n β) :
    Moves P e a s (handleEvent P e s a).1 (handleEvent P e s a).2 := by
  cases a with
  | back => exact moves_back (by simp only [onEvent, ht, fileSelectOnEvent]; rfl) rfl Same.rfl Quiet.nil
  | fileChosen path =>
    simp only [handleEvent, onEvent, ht, fileSelectOnEvent, fileSelectCallback]
    split
    · exact moves_refused ht (by rfl) fun _ => rfl
    rename_i hext
    split
    · rename_i hl
      refine Moves.opened path ht ?_ ?_ ?_ (fun o => ?_) ⟨hl, ?_⟩
      · intro hp
        rw [hp] at hext
        exact hext (by decide)
      · simp only [nextScene, Handled.after, switchTo_scenes]
      · simp only [nextScene, Handled.after, switchTo_store]
      · simp only [nextScene, Handled.after, List.foldl_append]
        exact switchTo_quiet P e _ _ _
      · simp only [nextScene, Handled.after, switchTo_credential]
    · exact moves_refused ht (by rfl) fun _ => rfl
  | _ =>
    simp only [handleEvent, onEvent, ht, fileSelectOnEvent]
    exact Moves.stay rfl rfl Quiet.nil

theorem savedMenu_moves (ht : s.scenes.head? = some .savedMenu) (a : Action n β) :
    Moves P e a s (handleEvent P e s a).1 (handleEvent P e s a).2 := by
  cases a with
  | back =>
    refine Moves.close ht ?_ ?_ fun o => ?_
    · simp only [handleEvent, onEvent, ht, savedMenuOnEvent, Bool.false_eq_true, if_false, Handled.after,
        previousScene, switchTo_scenes]
    · simp only [handleEvent, onEvent, ht, savedMenuOnEvent, Bool.false_eq_true, if_false, Handled.after,
        previousScene, switchTo_store]
    · simp only [handleEvent, onEvent, ht, savedMenuOnEvent, Bool.false_eq_true, if_false, Handled.after,
        previousScene, List.foldl_append]
      exact switchTo_quiet P e _ _ none
  | savedMenu item =>
    simp only [handleEvent, onEvent, ht]
    cases item with
    | emulate => exact moves_next ht rfl (fun _ => rfl) Same.rfl
    | info => exact moves_next ht rfl (fun _ => rfl) Same.rfl
    | delete => exact moves_next ht rfl (fun _ => rfl) Same.rfl
  | _ =>
    simp only [handleEvent, onEvent, ht, savedMenuOnEvent]
    exact Moves.stay rfl rfl Quiet.nil

theorem emulate_moves (ht : s.scenes.head? = some .emulate) (a : Action n β) :
    Moves P e a s (handleEvent P e s a).1 (handleEvent P e s a).2 := by
  cases a with
  | back =>
    by_cases hd : s.credential.dirty = true
    · have hh : onEvent P e s .back = nextScene P e s .mutationSave := by
        simp only [onEvent, ht, emulateOnEvent, hd, if_true]
      simp only [handleEvent, hh]
      exact moves_next ht rfl (fun _ => rfl) Same.rfl
    · refine moves_back (h := emulateOnEvent P e s .back) (by simp only [onEvent, ht]) ?_ ?_ ?_ <;>
        simp only [emulateOnEvent, hd, Bool.false_eq_true, if_false] <;> split
      · rfl
      · rfl
      · exact ⟨rfl, rfl⟩
      · exact Same.rfl
      · exact Quiet.nil
      · exact Quiet.nil
  | reader card dirty =>
    simp only [handleEvent, onEvent, ht, emulateOnEvent]
    split
    · exact Moves.stay rfl rfl Quiet.nil
    · exact Moves.stay rfl rfl Quiet.nil
  | _ =>
    simp only [handleEvent, onEvent, ht, emulateOnEvent]
    exact Moves.stay rfl rfl Quiet.nil

/-- A save that succeeded names the file in `load_path`, and its scene comes next. -/
theorem moves_saved {top : Scene} (ht : s.scenes.head? = some top) (hc : covers .saveSuccess top = true)
    (hs : t.scenes = s.scenes) (hp : t.store.loadPath ≠ []) (hsv : SavedTo P e s t t.store.loadPath) :
    Moves P e a s ((nextScene P e t .saveSuccess).after [.saved t.store.loadPath]).app
      ((nextScene P e t .saveSuccess).after [.saved t.store.loadPath]).effects := by
  refine Moves.saved top t.store.loadPath ht hc hp ?_ ?_ (fun o => ?_) ?_
  · simp only [nextScene, Handled.after, switchTo_scenes, hs]
  · simp only [nextScene, Handled.after, switchTo_store]
  · simp only [nextScene, Handled.after, List.foldl_append]
    exact switchTo_quiet P e _ _ _
  · obtain ⟨hk, hd, ht⟩ := hsv
    constructor <;> simp only [nextScene, Handled.after, switchTo_credential, switchTo_store]
    · exact hk
    · exact hd
    · exact ht

theorem moves_return {top : Scene} (ht : s.scenes.head? = some top) (hh : holdsCredential top = true)
    (hst : Same s t) (hq : Quiet es) :
    Moves P e a s ((mutationSaveReturn P e t).after es).app ((mutationSaveReturn P e t).after es).effects := by
  simp only [mutationSaveReturn]
  exact moves_search (t := { t with emulateFromBlank := false }) ht (fun _ => hh) ⟨hst.scenes, hst.loadPath⟩ hq

theorem mutationSave_moves (ht : s.scenes.head? = some .mutationSave) (a : Action n β) :
    Moves P e a s (handleEvent P e s a).1 (handleEvent P e s a).2 := by
  cases a with
  | back => exact moves_back_previous (by simp only [onEvent, ht, mutationSaveOnEvent])
  | mutationSave item =>
    simp only [handleEvent, onEvent, ht]
    cases item with
    | update =>
      simp only [mutationSaveOnEvent]
      split
      · rename_i hs
        obtain ⟨hp, hc, text, hR, hf⟩ := credentialSaveLoaded_done hs
        refine moves_saved ht rfl rfl ?_ ⟨?_, ?_, ?_⟩
        · simp only [hp]
          exact textPath_ne_nil (loadPath_ne_nil_of_saved hs)
        · simp only [hc, Credential.clearDirty]
        · simp only [hc, Credential.clearDirty]
        · exact ⟨s.credential, text, hc.symm, hR, hf⟩
      · rename_i hs
        refine moves_return ht rfl ⟨rfl, ?_⟩ (quiet_shownOf _)
        exact (credentialSaveLoaded_failed (Bool.eq_false_iff.mpr hs)).1
    | saveCopy => exact moves_next ht rfl (fun _ => rfl) Same.rfl
    | save => exact moves_next ht rfl (fun _ => rfl) Same.rfl
    | discard =>
      have hst : Same s { s with credential := s.credential.clearDirty } := ⟨rfl, rfl⟩
      have hq : Quiet ([] : List Effect) := Quiet.nil
      exact moves_return ht rfl hst hq
  | _ =>
    simp only [handleEvent, onEvent, ht, mutationSaveOnEvent]
    exact Moves.stay rfl rfl Quiet.nil

/-- A name that is done, accepted or not. -/
theorem saveNameDone_moves (ht : s.scenes.head? = some .saveName) (text : Name n) :
    Moves P e a s (saveNameOnEvent P e s (.textInputDone text)).app (saveNameOnEvent P e s (.textInputDone text)).effects := by
  simp only [saveNameOnEvent]
  split
  · rename_i hs
    obtain ⟨hp, hc, txt, hR, hf⟩ := saveNameDone_done hs
    refine moves_saved ht rfl rfl ?_ ⟨?_, ?_, ?_⟩
    · simp only [hp]
      exact savePath_ne_nil _ _ _
    · simp only [hc, Credential.clearDirty]
    · simp only [hc, Credential.clearDirty]
    · exact ⟨_, txt, hc.symm, hR, hf⟩
  · rename_i hs
    refine moves_search ht (fun h => by cases h) ⟨rfl, ?_⟩ (quiet_shownOf _)
    exact saveNameDone_failed (Bool.eq_false_iff.mpr hs)

theorem saveName_moves (ht : s.scenes.head? = some .saveName) (a : Action n β) :
    Moves P e a s (handleEvent P e s a).1 (handleEvent P e s a).2 := by
  cases a with
  | back => exact moves_back (by simp only [onEvent, ht, saveNameInput, saveNameOnEvent]; rfl) rfl Same.rfl Quiet.nil
  | textInputDone text =>
    simp only [handleEvent, onEvent, ht, saveNameInput]
    split
    · exact Moves.stay rfl rfl Quiet.nil
    · exact saveNameDone_moves ht text
  | _ =>
    simp only [handleEvent, onEvent, ht, saveNameInput, saveNameOnEvent]
    exact Moves.stay rfl rfl Quiet.nil

theorem success_moves {top : Scene} (ht : s.scenes.head? = some top)
    (hon : ∀ a, onEvent P e s a = successOnEvent P e s a) (a : Action n β) :
    Moves P e a s (handleEvent P e s a).1 (handleEvent P e s a).2 := by
  cases a with
  | back => exact moves_back (hon _) rfl Same.rfl Quiet.nil
  | viewExit =>
    have hq : Quiet ([] : List Effect) := Quiet.nil
    simp only [handleEvent, hon]
    exact moves_search ht (fun h => by cases h) Same.rfl hq
  | _ =>
    simp only [handleEvent, hon, successOnEvent]
    exact Moves.stay rfl rfl Quiet.nil

theorem delete_moves (ht : s.scenes.head? = some .delete) (a : Action n β) :
    Moves P e a s (handleEvent P e s a).1 (handleEvent P e s a).2 := by
  have hst : ∀ removed, Same s { s with store := (credentialDelete removed s.store s.credential true).1 } := by
    intro removed
    cases removed <;> exact ⟨rfl, rfl⟩
  cases a with
  | back => exact moves_back (by simp only [onEvent, ht, deleteOnEvent]; rfl) rfl Same.rfl Quiet.nil
  | buttonLeft =>
    simp only [handleEvent, onEvent, ht]
    exact moves_previous Same.rfl
  | buttonRight =>
    simp only [handleEvent, onEvent, ht, deleteOnEvent]
    split
    · exact moves_next ht rfl (fun _ => rfl) (hst _)
    · exact moves_search ht (fun h => by cases h) (hst _) fun _ => rfl
  | _ =>
    simp only [handleEvent, onEvent, ht, deleteOnEvent]
    exact Moves.stay rfl rfl Quiet.nil

theorem info_moves (hon : ∀ a, onEvent P e s a = infoOnEvent P e s a) (a : Action n β) :
    Moves P e a s (handleEvent P e s a).1 (handleEvent P e s a).2 := by
  cases a with
  | back => exact moves_back_previous (hon _)
  | buttonLeft =>
    simp only [handleEvent, hon]
    exact moves_previous Same.rfl
  | _ =>
    simp only [handleEvent, hon, infoOnEvent]
    exact Moves.stay rfl rfl Quiet.nil

/-- What any event does in any state. -/
theorem step_moves (P : Parts n β) (s : App n β) (i : Action n β × Env) :
    Moves P i.2 i.1 s (step P s i).1 (step P s i).2 := by
  obtain ⟨a, e⟩ := i
  simp only [step]
  cases ht : s.scenes.head? with
  | none =>
    have hs : s.scenes = [] := List.head?_eq_none_iff.mp ht
    have hon : ∀ a, onEvent P e s a = ⟨s, [], false⟩ := fun a => by simp only [onEvent, ht]
    cases a with
    | back => exact moves_back (hon _) rfl Same.rfl Quiet.nil
    | _ =>
      simp only [handleEvent, hon]
      exact Moves.stay rfl rfl Quiet.nil
  | some top =>
    cases top with
    | mainMenu => exact mainMenu_moves ht a
    | emulate => exact emulate_moves ht a
    | fileSelect => exact fileSelect_moves ht a
    | savedMenu => exact savedMenu_moves ht a
    | saveName => exact saveName_moves ht a
    | mutationSave => exact mutationSave_moves ht a
    | saveSuccess => exact success_moves ht (fun a => by simp only [onEvent, ht]) a
    | about => exact info_moves (fun a => by simp only [onEvent, ht]) a
    | delete => exact delete_moves ht a
    | deleteSuccess => exact success_moves ht (fun a => by simp only [onEvent, ht]) a
    | info => exact info_moves (fun a => by simp only [onEvent, ht]) a

end Handlers

/-- What the origin stands for: a step leaves it, or takes it away, or makes it the file at
`load_path` by loading the credential in memory from there or by saving it there. -/
theorem step_origin (P : Parts n β) (s : App n β) (log : List Effect) (i : Action n β × Env) :
    origin (log ++ (step P s i).2) = origin log ∨
    origin (log ++ (step P s i).2) = none ∨
    ∃ path, origin (log ++ (step P s i).2) = some path ∧ (step P s i).1.store.loadPath = path ∧
      (LoadedFrom P i.2 s (step P s i).1 path ∨ SavedTo P i.2 s (step P s i).1 path) := by
  rw [origin_append]
  cases step_moves P s i with
  | stay _ _ hq => exact Or.inl (hq _)
  | push _ _ _ _ _ _ _ hq => exact Or.inl (hq _)
  | blank _ _ _ _ ho => exact Or.inr (Or.inl (ho _))
  | opened path _ _ _ hp ho hl => exact Or.inr (Or.inr ⟨path, ho _, hp, Or.inl hl⟩)
  | refused _ _ ho => exact Or.inr (Or.inl (ho _))
  | saved _ path _ _ _ _ hp ho hs => exact Or.inr (Or.inr ⟨path, ho _, hp, Or.inr hs⟩)
  | pop _ _ hq => exact Or.inl (hq _)
  | down _ _ _ _ _ _ hq => exact Or.inl (hq _)
  | close _ _ _ ho => exact Or.inr (Or.inl (ho _))
  | quit _ hq => exact Or.inl (hq _)

end DfcFlipper.Scenes
