/-
  DfcFlipper.Scenes.Leaving — what each event asks of the scene manager, and whether it gets it.

  `nav` is the one call of the scene manager an event leads to, read off the handlers;
  `step_scenes` says that the stack after a step is what that call makes of it. A switch to
  a scene that is not below does nothing.

  All switches but one go to the main menu, which is below every other scene. The mutation
  prompt goes to the saved menu when `load_path` is set, and `load_path` says nothing about the
  stack: behind a blank card there is no saved menu (`blank_card_stays`).

  `prompt_left_iff`: the prompt is left, and every switch finds its scene, in exactly the runs in which
  Back never opens the prompt with a `load_path` and without a saved menu.
-/

import DfcFlipper.Scenes.Origin

namespace DfcFlipper.Scenes

open DfcFlipper.Lib.Bytes DfcFlipper.Lib.Run DfcFlipper.Lib.Stack DfcFlipper.Storage

variable {n : Nat} {β : Type}

/-! ## The calls -/

inductive Nav where
  | stay
  | next (scene : Scene)
  | previous
  | search (scene : Scene)
  | quit
  deriving DecidableEq

def Nav.apply : Nav → List Scene → List Scene
  | .stay, scenes => scenes
  | .next scene, scenes => scene :: scenes
  | .previous, scenes => scenes.tail
  | .search scene, scenes => (Lib.Stack.search scene scenes).getD scenes
  | .quit, _ => []

def returnScene (loadPath : Path) : Scene := if loadPath ≠ [] then .savedMenu else .mainMenu

section Calls

variable (P : Parts n β) (e : Env) (s : App n β)

def mainMenuNav : Action n β → Nav
  | .mainMenu .saved => .next .fileSelect
  | .mainMenu .blankCard => .next .emulate
  | .mainMenu .about => .next .about
  | .back => .quit
  | _ => .stay

def fileSelectNav : Action n β → Nav
  | .fileChosen path =>
    if endWith path appExtension = false ∧ endWith path binaryExtension = false then .search .mainMenu
    else if (loadSelectedFile P.sdk P.codec e.load ⟨path, s.store.files⟩
        { s.credential with name := Name.copy n (P.sdk.extractFilename path) }).loaded then .next .savedMenu
    else .search .mainMenu
  | .back => .previous
  | _ => .stay

def savedMenuNav : Action n β → Nav
  | .savedMenu .emulate => .next .emulate
  | .savedMenu .info => .next .info
  | .savedMenu .delete => .next .delete
  | .back => .previous
  | _ => .stay

def emulateNav : Action n β → Nav
  | .back => if s.credential.dirty then .next .mutationSave else .previous
  | _ => .stay

def mutationSaveNav : Action n β → Nav
  | .mutationSave .update =>
    if (credentialSaveLoaded P.text e.save s.store s.credential).saved then .next .saveSuccess
    else .search (returnScene s.store.loadPath)
  | .mutationSave .saveCopy => .next .saveName
  | .mutationSave .save => .next .saveName
  | .mutationSave .discard => .search (returnScene s.store.loadPath)
  | .back => .previous
  | _ => .stay

def saveNameNav : Action n β → Nav
  | .textInputDone textStore =>
    if saveNameAccepts P.sdk s.store s.credential textStore = false then .stay
    else if (saveNameDone P.sdk P.text e.save s.store s.credential textStore).saved then .next .saveSuccess
    else .search .mainMenu
  | .back => .previous
  | _ => .stay

def successNav : Action n β → Nav
  | .viewExit => .search .mainMenu
  | .back => .previous
  | _ => .stay

def deleteNav : Action n β → Nav
  | .buttonLeft => .previous
  | .buttonRight => if e.remove then .next .deleteSuccess else .search .mainMenu
  | .back => .previous
  | _ => .stay

def infoNav : Action n β → Nav
  | .buttonLeft => .previous
  | .back => .previous
  | _ => .stay

def nav (a : Action n β) : Nav :=
  match s.scenes.head? with
  | none => .stay
  | some .mainMenu => mainMenuNav a
  | some .emulate => emulateNav s a
  | some .fileSelect => fileSelectNav P e s a
  | some .savedMenu => savedMenuNav a
  | some .saveName => saveNameNav P e s a
  | some .mutationSave => mutationSaveNav P e s a
  | some .saveSuccess => successNav a
  | some .about => infoNav a
  | some .delete => deleteNav e a
  | some .deleteSuccess => successNav a
  | some .info => infoNav a

end Calls

/-! ## The stack after a step -/

section Scenes

variable {P : Parts n β} {e : Env} {s t : App n β} {es : List Effect}

theorem search_scenes (scene : Scene) :
    (searchAndSwitchToPreviousScene P e t scene).app.scenes = (Nav.search scene).apply t.scenes := by
  simp only [searchAndSwitchToPreviousScene, Nav.apply]
  split
  · rename_i scenes hs
    rw [switchTo_scenes, hs, Option.getD_some]
  · rename_i hs
    rw [hs, Option.getD_none]

/-- Back that the handler leaves to the scene manager. -/
theorem back_scenes {h : Handled n β} (hh : onEvent P e s .back = h) (hc : h.consumed = false) :
    (handleEvent P e s .back).1.scenes = h.app.scenes.tail := by
  simp only [handleEvent, hh, hc, Bool.false_eq_true, if_false, Handled.after, previousScene, switchTo_scenes]

/-- Back that the handler itself passes on: once more when nothing is below. -/
theorem back_previous_scenes (hh : onEvent P e s .back = previousScene P e s) :
    (handleEvent P e s .back).1.scenes = s.scenes.tail := by
  simp only [handleEvent, hh]
  split
  · simp only [previousScene, switchTo_scenes]
  · rename_i hc
    have ht : s.scenes.tail = [] := by simpa [previousScene] using hc
    simp only [Handled.after, previousScene, switchTo_scenes, ht, List.tail_nil]

theorem return_scenes : (mutationSaveReturn P e t).app.scenes =
    (Nav.search (returnScene t.store.loadPath)).apply t.scenes := by
  simp only [mutationSaveReturn, returnScene]
  exact search_scenes _

theorem mainMenu_scenes (ht : s.scenes.head? = some .mainMenu) (a : Action n β) :
    (handleEvent P e s a).1.scenes = (mainMenuNav a).apply s.scenes := by
  cases a with
  | back => exact back_scenes (h := mainMenuOnEvent P e s .back) (by simp only [onEvent, ht]) rfl
  | mainMenu item =>
    cases item <;>
      simp only [handleEvent, onEvent, ht, mainMenuOnEvent, mainMenuNav, Nav.apply, nextScene, Handled.after, switchTo_scenes]
  | _ => simp only [handleEvent, onEvent, ht, mainMenuOnEvent, mainMenuNav, Nav.apply]

theorem fileSelect_scenes (ht : s.scenes.head? = some .fileSelect) (a : Action n β) :
    (handleEvent P e s a).1.scenes = (fileSelectNav P e s a).apply s.scenes := by
  cases a with
  | back => exact back_scenes (h := ⟨s, [], false⟩) (by simp only [onEvent, ht, fileSelectOnEvent]) rfl
  | fileChosen path =>
    simp only [handleEvent, onEvent, ht, fileSelectOnEvent, fileSelectCallback, fileSelectNav]
    split
    · simp only [Handled.after, search_scenes]
    split
    · simp only [nextScene, Handled.after, switchTo_scenes, Nav.apply]
    · simp only [Handled.after, search_scenes]
  | _ => simp only [handleEvent, onEvent, ht, fileSelectOnEvent, fileSelectNav, Nav.apply]

theorem savedMenu_scenes (ht : s.scenes.head? = some .savedMenu) (a : Action n β) :
    (handleEvent P e s a).1.scenes = (savedMenuNav a).apply s.scenes := by
  cases a with
  | back => exact back_scenes (h := savedMenuOnEvent P e s .back) (by simp only [onEvent, ht]) rfl
  | savedMenu item =>
    cases item <;>
      simp only [handleEvent, onEvent, ht, savedMenuOnEvent, savedMenuNav, Nav.apply, nextScene, switchTo_scenes]
  | _ => simp only [handleEvent, onEvent, ht, savedMenuOnEvent, savedMenuNav, Nav.apply]

theorem emulate_scenes (ht : s.scenes.head? = some .emulate) (a : Action n β) :
    (handleEvent P e s a).1.scenes = (emulateNav s a).apply s.scenes := by
  cases a with
  | back =>
    by_cases hd : s.credential.dirty = true
    · have hh : onEvent P e s .back = nextScene P e s .mutationSave := by
        simp only [onEvent, ht, emulateOnEvent, hd, if_true]
      simp only [handleEvent, hh, nextScene, if_true, switchTo_scenes, emulateNav, hd, Nav.apply]
    · have hc : (emulateOnEvent P e s .back).consumed = false := by
        simp only [emulateOnEvent, hd, Bool.false_eq_true, if_false]
        split <;> rfl
      have hs : (emulateOnEvent P e s .back).app.scenes = s.scenes := by
        simp only [emulateOnEvent, hd, Bool.false_eq_true, if_false]
        split <;> rfl
      rw [back_scenes (h := emulateOnEvent P e s .back) (by simp only [onEvent, ht]) hc, hs]
      simp only [emulateNav, hd, Bool.false_eq_true, if_false, Nav.apply]
  | reader card dirty =>
    simp only [handleEvent, onEvent, ht, emulateOnEvent, emulateNav, Nav.apply]
    split <;> rfl
  | _ => simp only [handleEvent, onEvent, ht, emulateOnEvent, emulateNav, Nav.apply]

theorem mutationSave_scenes (ht : s.scenes.head? = some .mutationSave) (a : Action n β) :
    (handleEvent P e s a).1.scenes = (mutationSaveNav P e s a).apply s.scenes := by
  cases a with
  | back => exact back_previous_scenes (by simp only [onEvent, ht, mutationSaveOnEvent])
  | mutationSave item =>
    simp only [handleEvent, onEvent, ht]
    cases item with
    | update =>
      simp only [mutationSaveOnEvent, mutationSaveNav]
      split
      · simp only [nextScene, Handled.after, switchTo_scenes, Nav.apply]
      · rename_i hs
        simp only [Handled.after, return_scenes, (credentialSaveLoaded_failed (Bool.eq_false_iff.mpr hs)).1]
    | saveCopy => simp only [mutationSaveOnEvent, mutationSaveNav, nextScene, switchTo_scenes, Nav.apply]
    | save => simp only [mutationSaveOnEvent, mutationSaveNav, nextScene, switchTo_scenes, Nav.apply]
    | discard => simp only [mutationSaveOnEvent, mutationSaveNav, return_scenes]
  | _ => simp only [handleEvent, onEvent, ht, mutationSaveOnEvent, mutationSaveNav, Nav.apply]

/-- A name that is done, accepted or not. -/
theorem saveNameDone_scenes (text : Name n) :
    (saveNameOnEvent P e s (.textInputDone text)).app.scenes =
      (if (saveNameDone P.sdk P.text e.save s.store s.credential text).saved then Nav.next .saveSuccess
        else .search .mainMenu).apply s.scenes := by
  simp only [saveNameOnEvent]
  split
  · simp only [nextScene, Handled.after, switchTo_scenes, Nav.apply]
  · simp only [Handled.after, search_scenes]

theorem saveName_scenes (ht : s.scenes.head? = some .saveName) (a : Action n β) :
    (handleEvent P e s a).1.scenes = (saveNameNav P e s a).apply s.scenes := by
  cases a with
  | back => exact back_scenes (h := ⟨s, [], false⟩) (by simp only [onEvent, ht, saveNameInput, saveNameOnEvent]) rfl
  | textInputDone text =>
    simp only [handleEvent, onEvent, ht, saveNameInput, saveNameNav]
    split
    · rfl
    · exact saveNameDone_scenes text
  | _ => simp only [handleEvent, onEvent, ht, saveNameInput, saveNameOnEvent, saveNameNav, Nav.apply]

theorem success_scenes (hon : ∀ a, onEvent P e s a = successOnEvent P e s a) (a : Action n β) :
    (handleEvent P e s a).1.scenes = (successNav a).apply s.scenes := by
  cases a with
  | back => exact back_scenes (hon .back) rfl
  | viewExit => simp only [handleEvent, hon, successOnEvent, search_scenes, successNav]
  | _ => simp only [handleEvent, hon, successOnEvent, successNav, Nav.apply]

theorem delete_scenes (ht : s.scenes.head? = some .delete) (a : Action n β) :
    (handleEvent P e s a).1.scenes = (deleteNav e a).apply s.scenes := by
  cases a with
  | back => exact back_scenes (h := ⟨s, [], false⟩) (by simp only [onEvent, ht, deleteOnEvent]) rfl
  | buttonLeft =>
    simp only [handleEvent, onEvent, ht, deleteOnEvent, deleteNav, previousScene, switchTo_scenes, Nav.apply]
  | buttonRight =>
    simp only [handleEvent, onEvent, ht, deleteOnEvent, deleteNav]
    cases e.remove with
    | true => simp only [credentialDelete, if_true, nextScene, switchTo_scenes, Nav.apply]
    | false =>
      simp only [credentialDelete, Bool.false_eq_true, if_false, Handled.after, search_scenes]
  | _ => simp only [handleEvent, onEvent, ht, deleteOnEvent, deleteNav, Nav.apply]

theorem info_scenes (hon : ∀ a, onEvent P e s a = infoOnEvent P e s a) (a : Action n β) :
    (handleEvent P e s a).1.scenes = (infoNav a).apply s.scenes := by
  cases a with
  | back => exact back_previous_scenes (hon .back)
  | buttonLeft => simp only [handleEvent, hon, infoOnEvent, infoNav, previousScene, switchTo_scenes, Nav.apply]
  | _ => simp only [handleEvent, hon, infoOnEvent, infoNav, Nav.apply]

/-- The stack after a step is what the call of the scene manager makes of it. -/
theorem step_scenes (P : Parts n β) (s : App n β) (a : Action n β) (e : Env) :
    (step P s (a, e)).1.scenes = (nav P e s a).apply s.scenes := by
  simp only [step, nav]
  cases ht : s.scenes.head? with
  | none =>
    have hs : s.scenes = [] := List.head?_eq_none_iff.mp ht
    have hon : ∀ a, onEvent P e s a = ⟨s, [], false⟩ := fun a => by simp only [onEvent, ht]
    cases a with
    | back => rw [back_scenes (hon _) rfl, hs]; rfl
    | _ => simp only [handleEvent, hon, Nav.apply]
  | some top =>
    cases top with
    | mainMenu => exact mainMenu_scenes ht a
    | emulate => exact emulate_scenes ht a
    | fileSelect => exact fileSelect_scenes ht a
    | savedMenu => exact savedMenu_scenes ht a
    | saveName => exact saveName_scenes ht a
    | mutationSave => exact mutationSave_scenes ht a
    | saveSuccess => exact success_scenes (fun a => by simp only [onEvent, ht]) a
    | about => exact info_scenes (fun a => by simp only [onEvent, ht]) a
    | delete => exact delete_scenes ht a
    | deleteSuccess => exact success_scenes (fun a => by simp only [onEvent, ht]) a
    | info => exact info_scenes (fun a => by simp only [onEvent, ht]) a

end Scenes

/-! ## Which call when -/

inductive Calls (s : App n β) (a : Action n β) : Nav → Prop
  | stay : Calls s a .stay
  | quit : Calls s a .quit
  /-- Back from the emulation of a credential that was written. -/
  | prompt : a = .back → s.scenes.head? = some .emulate → s.credential.dirty = true → Calls s a (.next .mutationSave)
  | next (scene : Scene) : scene ≠ .mutationSave → Calls s a (.next scene)
  | back : a = .back → Calls s a .previous
  /-- The left button of the scenes that show something. -/
  | left (top : Scene) : s.scenes.head? = some top → covers top .mutationSave = false → Calls s a .previous
  | down (top : Scene) : s.scenes.head? = some top → top ≠ .mainMenu → Calls s a (.search .mainMenu)
  | leave : s.scenes.head? = some .mutationSave → Calls s a (.search (returnScene s.store.loadPath))

theorem nav_calls (P : Parts n β) (e : Env) (s : App n β) (a : Action n β) : Calls s a (nav P e s a) := by
  unfold nav
  split
  · exact .stay
  · cases a with
    | back => exact .quit
    | mainMenu item => cases item <;> exact .next _ (by decide)
    | _ => exact .stay
  · rename_i ht
    cases a with
    | back =>
      simp only [emulateNav]
      split
      · rename_i hd
        exact .prompt rfl ht hd
      · exact .back rfl
    | _ => exact .stay
  · rename_i ht
    cases a with
    | back => exact .back rfl
    | fileChosen path =>
      simp only [fileSelectNav]
      split
      · exact .down _ ht (by decide)
      split
      · exact .next _ (by decide)
      · exact .down _ ht (by decide)
    | _ => exact .stay
  · cases a with
    | back => exact .back rfl
    | savedMenu item => cases item <;> exact .next _ (by decide)
    | _ => exact .stay
  · rename_i ht
    cases a with
    | back => exact .back rfl
    | textInputDone text =>
      simp only [saveNameNav]
      split
      · exact .stay
      split
      · exact .next _ (by decide)
      · exact .down _ ht (by decide)
    | _ => exact .stay
  · rename_i ht
    cases a with
    | back => exact .back rfl
    | mutationSave item =>
      cases item with
      | update =>
        simp only [mutationSaveNav]
        split
        · exact .next _ (by decide)
        · exact .leave ht
      | saveCopy => exact .next _ (by decide)
      | save => exact .next _ (by decide)
      | discard => exact .leave ht
    | _ => exact .stay
  · rename_i ht
    cases a with
    | back => exact .back rfl
    | viewExit => exact .down _ ht (by decide)
    | _ => exact .stay
  · rename_i ht
    cases a with
    | back => exact .back rfl
    | buttonLeft => exact .left _ ht rfl
    | _ => exact .stay
  · rename_i ht
    cases a with
    | back => exact .back rfl
    | buttonLeft => exact .left _ ht rfl
    | buttonRight =>
      simp only [deleteNav]
      split
      · exact .next _ (by decide)
      · exact .down _ ht (by decide)
    | _ => exact .stay
  · rename_i ht
    cases a with
    | back => exact .back rfl
    | viewExit => exact .down _ ht (by decide)
    | _ => exact .stay
  · rename_i ht
    cases a with
    | back => exact .back rfl
    | buttonLeft => exact .left _ ht rfl
    | _ => exact .stay

/-! ## Where a switch lands -/

def isMenu : Scene → Bool
  | .mainMenu => true
  | .savedMenu => true
  | _ => false

def Bottomed (scenes : List Scene) : Prop := ∀ scene, scenes.getLast? = some scene → scene = .mainMenu

section Stack

variable {scenes found : List Scene} {scene : Scene}

theorem covers_mainMenu (lower : Scene) : covers .mainMenu lower = false := by cases lower <;> rfl

theorem Bottomed.suffix (h : Bottomed scenes) (hs : found <:+ scenes) : Bottomed found := by
  obtain ⟨above, rfl⟩ := hs
  intro scene hl
  exact h scene (by rw [List.getLast?_append, hl]; rfl)

/-- Below any other scene there is the main menu. -/
theorem Bottomed.below (h : Bottomed scenes) (ht : scenes.head? = some scene) (hne : scene ≠ .mainMenu) :
    .mainMenu ∈ scenes.tail := by
  cases scenes with
  | nil => cases ht
  | cons top below =>
    obtain rfl := Option.some.inj ht
    cases hb : below.getLast? with
    | none =>
      rw [List.getLast?_eq_none_iff] at hb
      subst hb
      exact absurd (h top rfl) hne
    | some last =>
      have hl : last = .mainMenu := h last (by rw [List.getLast?_cons, hb]; rfl)
      exact hl ▸ List.mem_of_getLast? hb

theorem Nav.bottomed (m : Nav) (hne : scenes ≠ [] ∨ m = .stay) (h : Bottomed scenes) : Bottomed (m.apply scenes) := by
  cases m with
  | stay => exact h
  | next scene =>
    intro last hl
    rcases hne with hne | hm
    · obtain ⟨top, below, rfl⟩ := List.exists_cons_of_ne_nil hne
      exact h last (by simpa [Nav.apply] using hl)
    · cases hm
  | previous => exact h.suffix (List.tail_suffix scenes)
  | search scene =>
    simp only [Nav.apply]
    cases hs : Lib.Stack.search scene scenes with
    | none => exact h
    | some found => exact h.suffix (search_suffix hs)
  | quit =>
    intro last hl
    cases hl

/-- The nearest menu below is the one searched for: the main menu has nothing below it, and the
saved menu is not there when the main menu is searched for. -/
theorem Stacked.nearest (h : Stacked scenes) (hm : scene ∈ scenes) (hmenu : isMenu scene = true)
    (hfirst : scene = .mainMenu → .savedMenu ∉ scenes) :
    scenes.dropWhile (fun x => !isMenu x) = scenes.dropWhile fun x => !decide (x = scene) := by
  induction scenes with
  | nil => rfl
  | cons top below ih =>
    by_cases hs : top = scene
    · rw [List.dropWhile_cons_of_neg (by simp [hs, hmenu]), List.dropWhile_cons_of_neg (by simp [hs])]
    have hb : scene ∈ below := (List.mem_cons.mp hm).resolve_left fun he => hs he.symm
    have hn : isMenu top = false := by
      rw [Bool.eq_false_iff]
      intro ht
      cases top with
      | mainMenu =>
        obtain ⟨next, rest, rfl⟩ := List.exists_cons_of_ne_nil (List.ne_nil_of_mem hb)
        have hc := (List.isChain_cons_cons.mp h).1
        rw [covers_mainMenu] at hc
        cases hc
      | savedMenu =>
        cases scene with
        | mainMenu => exact hfirst rfl List.mem_cons_self
        | savedMenu => exact hs rfl
        | _ => cases hmenu
      | _ => cases ht
    rw [List.dropWhile_cons_of_pos (by simp [hn]), List.dropWhile_cons_of_pos (by simp [hs])]
    exact ih h.tail hb fun he hx => hfirst he (List.mem_cons_of_mem _ hx)

end Stack

/-! ## The invariant -/

/-- Back opens the mutation prompt: over a credential that was written, or again from a screen behind it. -/
def OpensPrompt (s : App n β) (a : Action n β) : Prop :=
  a = .back ∧ ((s.scenes.head? = some .emulate ∧ s.credential.dirty = true) ∨ s.scenes.tail.head? = some .mutationSave)

/-- The prompt is opened only with the saved menu below it, or without a `load_path`. -/
def PromptOfFile (a : App n β × List Effect) (i : Action n β × Env) : Prop :=
  OpensPrompt a.1 i.1 → a.1.store.loadPath ≠ [] → .savedMenu ∈ a.1.scenes

structure Below (s : App n β) : Prop where
  stacked : Stacked s.scenes
  bottomed : Bottomed s.scenes
  filePath : FilePath s
  prompt : s.scenes.head? = some .mutationSave → s.store.loadPath ≠ [] → .savedMenu ∈ s.scenes

section Steps

variable {P : Parts n β} {e : Env} {s : App n β} {a : Action n β}

/-- What covers the prompt is no scene of a file. -/
theorem above_prompt (hst : Stacked s.scenes) (ht : s.scenes.tail.head? = some .mutationSave) :
    ∃ top, s.scenes.head? = some top ∧ (top = .saveName ∨ top = .saveSuccess) := by
  obtain ⟨top, htop, hc⟩ := hst.above ht
  refine ⟨top, htop, ?_⟩
  revert hc
  cases top <;> decide

/-- A step comes to the prompt by staying there, or by Back. -/
theorem prompt_of_step (hst : Stacked s.scenes) (ht : ((nav P e s a).apply s.scenes).head? = some .mutationSave) :
    (s.scenes.head? = some .mutationSave ∧ (nav P e s a).apply s.scenes = s.scenes) ∨
    (OpensPrompt s a ∧ (.savedMenu ∈ s.scenes → .savedMenu ∈ (nav P e s a).apply s.scenes)) := by
  have hsearch : ∀ scene, scene ≠ .mutationSave →
      ((Nav.search scene).apply s.scenes).head? = some .mutationSave →
      s.scenes.head? = some .mutationSave ∧ (Nav.search scene).apply s.scenes = s.scenes := by
    intro scene hne hh
    simp only [Nav.apply] at hh ⊢
    cases hs : search scene s.scenes with
    | none =>
      rw [hs] at hh
      exact ⟨hh, rfl⟩
    | some found =>
      rw [hs, Option.getD_some, (search_eq_some hs).2] at hh
      exact absurd (Option.some.inj hh) hne
  have hc := nav_calls P e s a
  revert ht hc
  generalize nav P e s a = m
  intro ht hc
  cases hc with
  | stay => exact Or.inl ⟨ht, rfl⟩
  | quit => cases ht
  | prompt ha he hd => exact Or.inr ⟨⟨ha, Or.inl ⟨he, hd⟩⟩, List.mem_cons_of_mem _⟩
  | next scene hne => exact absurd (Option.some.inj ht) hne
  | back ha =>
    refine Or.inr ⟨⟨ha, Or.inr ht⟩, fun hm => ?_⟩
    obtain ⟨top, htop, hor⟩ := above_prompt hst ht
    cases hs : s.scenes with
    | nil => rw [hs] at htop; cases htop
    | cons x below =>
      rw [hs] at htop hm
      obtain rfl := Option.some.inj htop
      refine (List.mem_cons.mp hm).resolve_left fun hx => ?_
      subst hx
      rcases hor with hx | hx <;> cases hx
  | left top htop hcov =>
    obtain ⟨top', htop', hc'⟩ := hst.above ht
    obtain rfl := Option.some.inj (htop.symm.trans htop')
    rw [hcov] at hc'
    cases hc'
  | down top _ _ => exact Or.inl (hsearch _ (by decide) ht)
  | leave _ =>
    refine Or.inl (hsearch _ ?_ ht)
    unfold returnScene
    split <;> decide

/-- Back that opens the prompt leaves the saved menu where it is. -/
theorem opens_prompt (hst : Stacked s.scenes) (ho : OpensPrompt s a) :
    (step P s (a, e)).1.scenes.head? = some .mutationSave ∧
    (.savedMenu ∈ (step P s (a, e)).1.scenes.tail → .savedMenu ∈ s.scenes) := by
  obtain ⟨rfl, ho⟩ := ho
  rw [step_scenes]
  rcases ho with ⟨he, hd⟩ | ht
  · have hn : nav P e s .back = .next .mutationSave := by simp only [nav, he, emulateNav, hd, if_true]
    rw [hn]
    exact ⟨rfl, fun h => h⟩
  · obtain ⟨top, htop, hor⟩ := above_prompt hst ht
    have hn : nav P e s .back = .previous := by
      rcases hor with rfl | rfl
      · simp only [nav, htop, saveNameNav]
      · simp only [nav, htop, successNav]
    rw [hn]
    exact ⟨ht, fun h => List.mem_of_mem_tail (List.mem_of_mem_tail h)⟩

/-- A step that comes to the prompt leaves `load_path` alone. -/
theorem Moves.prompt_loadPath {s s' : App n β} {es : List Effect} (hm : Moves P e a s s' es)
    (ht : s'.scenes.head? = some .mutationSave) : s'.store.loadPath = s.store.loadPath := by
  cases hm with
  | stay _ hp _ => exact hp
  | push _ _ _ _ _ _ hp _ => exact hp
  | blank _ _ _ hp _ => exact hp
  | opened _ _ _ hs _ _ _ => rw [hs] at ht; cases ht
  | refused hf hs _ =>
    rcases hs with hs | hs
    · rw [hs, hf] at ht; cases ht
    · rw [(search_eq_some hs).2] at ht; cases ht
  | saved _ _ _ _ _ hs _ _ _ => rw [hs] at ht; cases ht
  | pop _ hp _ => exact hp
  | down _ _ _ _ _ hp _ => exact hp
  | close _ _ hp _ => exact hp
  | quit hs _ => rw [hs] at ht; cases ht

theorem step_below (P : Parts n β) (a : App n β × List Effect) (i : Action n β × Env) (h : Below a.1)
    (hp : PromptOfFile a i) : Below (logged (step P) a i).1 := by
  have hm := step_moves P a.1 i
  obtain ⟨x, e⟩ := i
  have hs : (step P a.1 (x, e)).1.scenes = (nav P e a.1 x).apply a.1.scenes := step_scenes P a.1 x e
  refine ⟨hm.stacked h.stacked, ?_, hm.filePath h.stacked h.filePath, fun ht hne => ?_⟩
  · simp only [logged]
    rw [hs]
    refine Nav.bottomed _ ?_ h.bottomed
    by_cases he : a.1.scenes = []
    · exact Or.inr (by simp only [nav, he, List.head?_nil])
    · exact Or.inl he
  · have hpath := hm.prompt_loadPath ht
    simp only [logged] at ht hne ⊢
    rw [hpath] at hne
    rw [hs] at ht ⊢
    rcases prompt_of_step h.stacked ht with ⟨htop, hsame⟩ | ⟨ho, hkeep⟩
    · rw [hsame]
      exact h.prompt htop hne
    · exact hkeep (hp ho hne)

end Steps

/-! ## Every run -/

/-- Discard, and Update File when the save fails. -/
inductive LeavesPrompt (P : Parts n β) (e : Env) (s : App n β) : Action n β → Prop
  | discard : LeavesPrompt P e s (.mutationSave .discard)
  | failed : (credentialSaveLoaded P.text e.save s.store s.credential).saved = false →
      LeavesPrompt P e s (.mutationSave .update)

/-- Every switch finds its scene, and the prompt is left for the nearest menu below it. -/
structure Navigates (P : Parts n β) (s : App n β) : Prop where
  named : ∀ a e scene, nav P e s a = .search scene → scene ∈ s.scenes.tail
  left : ∀ a e, s.scenes.head? = some .mutationSave → LeavesPrompt P e s a →
    (step P s (a, e)).1.scenes = s.scenes.tail.dropWhile (fun x => !isMenu x) ∧ (step P s (a, e)).1.scenes ≠ []

section Runs

variable {P : Parts n β} {s : App n β}

theorem nav_leaves {e : Env} {a : Action n β} (ht : s.scenes.head? = some .mutationSave) (hl : LeavesPrompt P e s a) :
    nav P e s a = .search (returnScene s.store.loadPath) := by
  cases hl with
  | discard => simp only [nav, ht, mutationSaveNav]
  | failed hf => simp only [nav, ht, mutationSaveNav, hf, Bool.false_eq_true, if_false]

/-- The scene the prompt goes to is below it, and no saved menu is passed over. -/
theorem Below.returnScene (h : Below s) (ht : s.scenes.head? = some .mutationSave) :
    returnScene s.store.loadPath ∈ s.scenes.tail ∧ isMenu (returnScene s.store.loadPath) = true ∧
      (returnScene s.store.loadPath = .mainMenu → .savedMenu ∉ s.scenes.tail) := by
  unfold Scenes.returnScene
  split
  · rename_i hne
    have hm := h.prompt ht hne
    refine ⟨?_, rfl, fun hx => by cases hx⟩
    cases hs : s.scenes with
    | nil => rw [hs] at ht; cases ht
    | cons x below =>
      rw [hs] at ht hm
      obtain rfl := Option.some.inj ht
      exact (List.mem_cons.mp hm).resolve_left fun hx => by cases hx
  · rename_i hp
    exact ⟨h.bottomed.below ht (by decide), rfl,
      fun _ hx => hp (h.filePath .savedMenu (List.mem_of_mem_tail hx) rfl)⟩

theorem Below.navigates (h : Below s) : Navigates P s := by
  constructor
  · intro a e scene hn
    have hc := nav_calls P e s a
    rw [hn] at hc
    cases hc with
    | down top ht hne => exact h.bottomed.below ht hne
    | leave ht => exact (h.returnScene ht).1
  · intro a e ht hl
    obtain ⟨hmem, hmenu, hfirst⟩ := h.returnScene ht
    have hfound : search (Scenes.returnScene s.store.loadPath) s.scenes =
        some (s.scenes.tail.dropWhile fun x => !isMenu x) := by
      rw [h.stacked.tail.nearest hmem hmenu hfirst]
      exact downTo_of_mem hmem
    have hs : (step P s (a, e)).1.scenes = s.scenes.tail.dropWhile fun x => !isMenu x := by
      rw [step_scenes, nav_leaves ht hl, Nav.apply, hfound, Option.getD_some]
    refine ⟨hs, fun hnil => ?_⟩
    have hh := (search_eq_some hfound).2
    rw [← hs, hnil] at hh
    cases hh

/-- A prompt opened with a `load_path` and without a saved menu names a scene that is not there. -/
theorem promptOfFile_of_navigates {a : App n β × List Effect} {i : Action n β × Env} (h : Below a.1)
    (hn : Navigates P (logged (step P) a i).1) : PromptOfFile a i := by
  intro ho hne
  have hm := step_moves P a.1 i
  obtain ⟨x, e⟩ := i
  obtain ⟨ht, hback⟩ := opens_prompt (P := P) (e := e) h.stacked ho
  refine hback (hn.named (.mutationSave .discard) e .savedMenu ?_)
  have hl := nav_leaves (P := P) (e := e) ht .discard
  rw [hm.prompt_loadPath ht] at hl
  simp only [logged]
  rw [hl, Scenes.returnScene, if_pos hne]

end Runs

theorem below_init (files : Files) (c : Credential n β) : Below (appInit files c) := by
  refine ⟨List.isChain_singleton _, ?_, ?_, fun ht => by cases ht⟩
  · intro scene hl
    exact (Option.some.inj hl).symm
  · exact (inv_init files c).ofFile

/-- The prompt is left for the nearest menu, and every switch of every scene finds its target, in
exactly the runs in which Back never opens the prompt with a `load_path` and without a saved
menu below. -/
theorem prompt_left_iff (P : Parts n β) (files : Files) (c : Credential n β) (is : List (Action n β × Env)) :
    (∀ js, js <+: is → Navigates P (run (step P) (appInit files c) js).1) ↔
      Along (logged (step P)) PromptOfFile (appInit files c, []) is :=
  states_iff_along (fun a : App n β × List Effect => Below a.1) (fun a => Navigates P a.1) (fun _ h => h.navigates)
    (step_below P) (fun _ _ h hn => promptOfFile_of_navigates h hn) is _ (below_init files c)

/-- A credential is loaded and left again; a blank card is then written by a reader, and Discard
leaves the prompt where it is. So does Discard behind a blank card that was saved. -/
theorem blank_card_stays :
    let file : Path := fileIn appDataPathPrefix ['a']
    let stored := (packCard textMark (cardWith []).card).2
    let s : App 8 Unit := appInit (Function.update (fun _ => none) file (some stored)) blankCredential
    let written : List (Action 8 Unit) := [.mainMenu .blankCard, .reader blankCredential.card true, .back]
    let left : List (Action 8 Unit) := [.mainMenu .saved, .fileChosen file, .back, .back] ++ written
    let saved : List (Action 8 Unit) :=
      written ++ [.mutationSave .save, .textInputDone (Name.copy 8 ['b']), .back, .back]
    let a := run (step cardParts) s (left.map (·, workingEnv))
    let b := run (step cardParts) s (saved.map (·, workingEnv))
    (a.1.scenes = [.mutationSave, .emulate, .mainMenu] ∧ nav cardParts workingEnv a.1 (.mutationSave .discard) = .search .savedMenu ∧
      (step cardParts a.1 (.mutationSave .discard, workingEnv)).1.scenes = [.mutationSave, .emulate, .mainMenu]) ∧
    (b.1.scenes = [.mutationSave, .emulate, .mainMenu] ∧
      (step cardParts b.1 (.mutationSave .discard, workingEnv)).1.scenes = [.mutationSave, .emulate, .mainMenu]) := by
  decide

end DfcFlipper.Scenes
