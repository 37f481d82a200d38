/-
  DfcFlipper.Scenes.Presses — custom events as the view dispatcher delivers them: numbers.

  A menu posts the index of the item, a widget the button, and the scene that is on top when
  the number arrives reads it by an enum of its own (`taken`). The menus and the widgets use
  the same numbers, from 0 on, so a press that is delivered late, or twice, can be another's.
  A name is validated before its number is posted, and not when it comes: the handler saves
  under whatever `text_store` holds by then (`handled`).

  `pressed_once`: a press that was taken, delivered again and again, changes no file, no
  path and nothing of the credential. It may start the listener: Back of the delete scene is
  the index of NFC Emulate.
-/

import DfcFlipper.Scenes.Unsaved

namespace DfcFlipper.Scenes

open DfcFlipper.Lib.Bytes DfcFlipper.Lib.Run DfcFlipper.Lib.Stack DfcFlipper.Storage

variable {n : Nat} {β : Type}

/-! ## Numbers -/

inductive Input (n : Nat) (β : Type) where
  | back
  /-- A custom event, and what `text_store` holds when it is taken. -/
  | custom (event : Nat) (textStore : Name n)
  | fileChosen (path : Path)
  | reader (card : Card β) (dirty : Bool)

def taken : Scene → Nat → Name n → Option (Action n β)
  -- `SubmenuIndex` of dfc_scene_main_menu.c
  | .mainMenu, 0, _ => some (.mainMenu .saved)
  | .mainMenu, 1, _ => some (.mainMenu .blankCard)
  | .mainMenu, 2, _ => some (.mainMenu .about)
  -- `SubmenuIndex` of dfc_scene_saved_menu.c
  | .savedMenu, 0, _ => some (.savedMenu .emulate)
  | .savedMenu, 1, _ => some (.savedMenu .delete)
  | .savedMenu, 2, _ => some (.savedMenu .info)
  -- `SubmenuIndex` of dfc_scene_mutation_save.c
  | .mutationSave, 0, _ => some (.mutationSave .update)
  | .mutationSave, 1, _ => some (.mutationSave .saveCopy)
  | .mutationSave, 2, _ => some (.mutationSave .save)
  | .mutationSave, 3, _ => some (.mutationSave .discard)
  -- `GuiButtonType`: left, center, right
  | .delete, 0, _ => some .buttonLeft
  | .delete, 2, _ => some .buttonRight
  | .info, 0, _ => some .buttonLeft
  | .about, 0, _ => some .buttonLeft
  -- `DfcCustomEvent`, from `DfcCustomEventReserved` = 100 on
  | .saveSuccess, 101, _ => some .viewExit
  | .deleteSuccess, 101, _ => some .viewExit
  | .saveName, 102, textStore => some (.textInputDone textStore)
  | _, _, _ => none

def App.takes (s : App n β) (event : Nat) (textStore : Name n) : Option (Action n β) :=
  s.scenes.head?.bind fun scene => taken scene event textStore

/-- What the handler does with it. The validator of the text input is not asked again. -/
def handled (P : Parts n β) (s : App n β) (i : Action n β × Env) : App n β × List Effect :=
  match i.1 with
  | .textInputDone textStore =>
    let h := saveNameOnEvent P i.2 s (.textInputDone textStore)
    (h.app, h.effects)
  | a => step P s (a, i.2)

/-- A number no handler takes does nothing. -/
def dispatch (P : Parts n β) (s : App n β) (i : Input n β × Env) : App n β × List Effect :=
  match i.1 with
  | .back => step P s (.back, i.2)
  | .fileChosen path => step P s (.fileChosen path, i.2)
  | .reader card dirty => step P s (.reader card dirty, i.2)
  | .custom event textStore =>
    match s.takes event textStore with
    | some a => handled P s (a, i.2)
    | none => (s, [])

theorem taken_named {scene : Scene} {event : Nat} {textStore text : Name n}
    (h : taken scene event textStore = some (.textInputDone text : Action n β)) : scene = .saveName := by
  unfold taken at h
  split at h <;> first | rfl | cases h

/-- What arrives comes to nothing, is a step of `App`, or saves under a name. -/
theorem dispatch_cases (P : Parts n β) (s : App n β) (i : Input n β × Env) :
    dispatch P s i = (s, []) ∨ (∃ a, dispatch P s i = step P s a) ∨
    ∃ text, s.scenes.head? = some .saveName ∧ dispatch P s i = handled P s (.textInputDone text, i.2) := by
  obtain ⟨i, e⟩ := i
  cases i with
  | back => exact Or.inr (Or.inl ⟨(.back, e), rfl⟩)
  | fileChosen path => exact Or.inr (Or.inl ⟨(.fileChosen path, e), rfl⟩)
  | reader card dirty => exact Or.inr (Or.inl ⟨(.reader card dirty, e), rfl⟩)
  | custom event textStore =>
    simp only [dispatch]
    cases hb : s.takes event textStore with
    | none => exact Or.inl rfl
    | some a =>
      obtain ⟨scene, ht, hk⟩ := Option.bind_eq_some_iff.mp hb
      cases a with
      | textInputDone text => exact Or.inr (Or.inr ⟨text, taken_named hk ▸ ht, rfl⟩)
      | _ => exact Or.inr (Or.inl ⟨(_, e), rfl⟩)

structure Placed (s : App n β) : Prop where
  stacked : Stacked s.scenes
  bottomed : Bottomed s.scenes

theorem step_placed (P : Parts n β) (s : App n β) (i : Action n β × Env) (h : Placed s) : Placed (step P s i).1 :=
  ⟨(step_moves P s i).stacked h.stacked, step_bottomed P s i h.bottomed⟩

theorem named_placed (P : Parts n β) (s : App n β) (e : Env) (text : Name n)
    (ht : s.scenes.head? = some .saveName) (h : Placed s) : Placed (handled P s (.textInputDone text, e)).1 := by
  refine ⟨(saveNameDone_moves (a := .textInputDone text) ht text).stacked h.stacked, ?_⟩
  have hne : s.scenes ≠ [] := fun hnil => by rw [hnil] at ht; cases ht
  simp only [handled, saveNameDone_scenes]
  exact Nav.bottomed _ (Or.inl hne) h.bottomed

theorem dispatch_placed (P : Parts n β) (s : App n β) (i : Input n β × Env) (h : Placed s) : Placed (dispatch P s i).1 := by
  rcases dispatch_cases P s i with hn | ⟨a, hs⟩ | ⟨text, ht, hs⟩
  · rw [hn]
    exact h
  · rw [hs]
    exact step_placed P s a h
  · rw [hs]
    exact named_placed P s i.2 text ht h

theorem placed_init (files : Files) (c : Credential n β) : Placed (appInit files c) :=
  ⟨List.isChain_singleton _, fun _ hl => (Option.some.inj hl).symm⟩

/-! ## What is only a way through the scenes -/

/-- Neither a credential nor a file is meant by it. -/
def walks : Action n β → Bool
  | .mainMenu .saved => true
  | .mainMenu .about => true
  | .savedMenu _ => true
  | .mutationSave .saveCopy => true
  | .mutationSave .save => true
  | .viewExit => true
  | .buttonLeft => true
  | _ => false

/-- Credential, files and path are as in `s`; the listener may have been started. -/
structure Unharmed (s : App n β) (t : App n β) (es : List Effect) : Prop where
  credential : t.credential = s.credential
  store : t.store = s.store
  effects : ∀ x ∈ es, ∃ ats, x = .listening ats

section Walks

variable {P : Parts n β} {e : Env} {s : App n β} {a : Action n β}

theorem unharmed_same (s : App n β) : Unharmed s s [] := ⟨rfl, rfl, fun _ hx => (by cases hx)⟩

theorem unharmed_switchTo (scenes : List Scene) : Unharmed s (switchTo P e s scenes).1 (switchTo P e s scenes).2 := by
  refine ⟨switchTo_credential .., switchTo_store .., fun x hx => ?_⟩
  unfold switchTo at hx
  split at hx
  · split at hx
    · exact ⟨_, List.mem_singleton.mp hx⟩
    · cases hx
  · cases hx

theorem unharmed_search (scene : Scene) :
    Unharmed s (searchAndSwitchToPreviousScene P e s scene).app (searchAndSwitchToPreviousScene P e s scene).effects := by
  unfold searchAndSwitchToPreviousScene
  split
  · exact unharmed_switchTo _
  · exact unharmed_same s

theorem onEvent_unharmed (hw : walks a = true) : Unharmed s (onEvent P e s a).app (onEvent P e s a).effects := by
  have hnext : ∀ scene, Unharmed s (nextScene P e s scene).app (nextScene P e s scene).effects :=
    fun scene => unharmed_switchTo (scene :: s.scenes)
  have hprevious : Unharmed s (previousScene P e s).app (previousScene P e s).effects := unharmed_switchTo s.scenes.tail
  cases a with
  | mainMenu item =>
    cases item with
    | blankCard => cases hw
    | saved =>
      simp only [onEvent]
      split <;> first | exact unharmed_same s | exact hnext _
    | about =>
      simp only [onEvent]
      split <;> first | exact unharmed_same s | exact hnext _
  | savedMenu item =>
    simp only [onEvent]
    split <;> first | exact unharmed_same s | (cases item <;> exact hnext _)
  | mutationSave item =>
    cases item with
    | update => cases hw
    | discard => cases hw
    | saveCopy =>
      simp only [onEvent]
      split <;> first | exact unharmed_same s | exact hnext _
    | save =>
      simp only [onEvent]
      split <;> first | exact unharmed_same s | exact hnext _
  | viewExit =>
    simp only [onEvent]
    split <;> first | exact unharmed_same s | exact unharmed_search _
  | buttonLeft =>
    simp only [onEvent]
    split <;> first | exact unharmed_same s | exact hprevious
  | back => cases hw
  | fileChosen path => cases hw
  | reader card dirty => cases hw
  | textInputDone textStore => cases hw
  | buttonRight => cases hw

theorem step_unharmed (hw : walks a = true) : Unharmed s (step P s (a, e)).1 (step P s (a, e)).2 := by
  have h := onEvent_unharmed (P := P) (e := e) (s := s) hw
  cases a with
  | back => cases hw
  | _ => exact h

end Walks

/-! ## The same number again -/

/-- The scenes that do more than lead on when this number comes. -/
def acts : Scene → Nat → Bool
  | .mainMenu, 1 => true
  | .mutationSave, 0 => true
  | .mutationSave, 3 => true
  | .delete, 2 => true
  | .saveName, 102 => true
  | _, _ => false

/-- The prompt behind a blank card, with a `load_path` and no saved menu to go to. -/
structure Stays (s t : App n β) : Prop where
  prompt : s.scenes.head? = some .mutationSave
  loadPath : s.store.loadPath ≠ []
  noMenu : .savedMenu ∉ s.scenes
  scenes : t.scenes = s.scenes

theorem taken_walks {scene : Scene} {event : Nat} {textStore : Name n} {a : Action n β}
    (h : taken scene event textStore = some a) (hq : acts scene event = false) : walks a = true := by
  unfold taken at h
  split at h
  all_goals first | (obtain rfl := Option.some.inj h; first | rfl | cases hq) | cases h

theorem handled_walks {P : Parts n β} {s : App n β} {a : Action n β} {e : Env} (hw : walks a = true) :
    handled P s (a, e) = step P s (a, e) := by
  cases a <;> first | rfl | cases hw

def Settled (event : Nat) (s : App n β) : Prop := ∀ top, s.scenes.head? = some top → acts top event = false

section Taken

variable {P : Parts n β} {e : Env} {s : App n β} {a : Action n β} {scene next : Scene} {event : Nat} {textStore : Name n}

theorem settled_top (next : Scene) (hn : s.scenes.head? = some next) (hq : acts next event = false) : Settled event s := by
  intro top ht
  obtain rfl := Option.some.inj (hn.symm.trans ht)
  exact hq

theorem settled_next (next : Scene) (hn : nav P e s a = .next next) (hq : acts next event = false) :
    Settled event (step P s (a, e)).1 :=
  settled_top next (by rw [step_scenes, hn]; rfl) hq

theorem settled_found (next : Scene) (hn : nav P e s a = .search next) (hm : next ∈ s.scenes.tail)
    (hq : acts next event = false) : Settled event (step P s (a, e)).1 :=
  settled_top next (by rw [step_scenes, hn]; exact search_head hm) hq

/-- One scene down, to one of those it is pushed over. -/
theorem settled_previous (hst : Stacked s.scenes) (ht : s.scenes.head? = some scene) (hn : nav P e s a = .previous)
    (hq : ∀ lower, covers scene lower = true → acts lower event = false) : Settled event (step P s (a, e)).1 := by
  intro lower hl
  rw [step_scenes, hn] at hl
  obtain ⟨upper, hu, hc⟩ := hst.above (show s.scenes.tail.head? = some lower from hl)
  obtain rfl := Option.some.inj (hu.symm.trans ht)
  exact hq lower hc

/-- The prompt is left for the menu it goes to, or stays because that menu is not there. -/
theorem settled_return (event : Nat) (h : Placed s) (ht : s.scenes.head? = some .mutationSave)
    (hn : nav P e s a = .search (returnScene s.store.loadPath)) (hq : event ≠ 1) :
    Settled event (step P s (a, e)).1 ∨ Stays s (step P s (a, e)).1 := by
  have hmain : .mainMenu ∈ s.scenes.tail := h.bottomed.below ht (by decide)
  have hmenus : ∀ menu, isMenu menu = true → acts menu event = false := by
    intro menu hm
    unfold acts
    split <;> first | rfl | exact absurd rfl hq | cases hm
  by_cases hp : s.store.loadPath = []
  · rw [returnScene, if_neg (not_not_intro hp)] at hn
    exact Or.inl (settled_found .mainMenu hn hmain (hmenus _ rfl))
  · rw [returnScene, if_pos hp] at hn
    by_cases hm : .savedMenu ∈ s.scenes.tail
    · exact Or.inl (settled_found .savedMenu hn hm (hmenus _ rfl))
    · refine Or.inr ⟨ht, hp, fun hmem => ?_, ?_⟩
      · obtain ⟨below, hs⟩ : ∃ below, s.scenes = .mutationSave :: below := by
          cases hs : s.scenes with
          | nil => rw [hs] at ht; cases ht
          | cons top below => rw [hs] at ht; exact ⟨below, by rw [Option.some.inj ht]⟩
        rw [hs] at hmem hm
        rcases List.mem_cons.mp hmem with he | hb
        · cases he
        · exact hm hb
      · rw [step_scenes, hn, search_absent hm]

/-- Behind a number that was taken the same number only leads on, unless the prompt stays. -/
theorem after_taken (h : Placed s) (ht : s.scenes.head? = some scene) (hk : taken scene event textStore = some a) :
    Settled event (handled P s (a, e)).1 ∨ acts scene event = true ∧ Stays s (handled P s (a, e)).1 := by
  have hmain : scene ≠ .mainMenu → .mainMenu ∈ s.scenes.tail := h.bottomed.below ht
  unfold taken at hk
  split at hk
  -- the main menu
  · obtain rfl := Option.some.inj hk
    exact Or.inl (settled_next .fileSelect (by simp only [nav, ht, mainMenuNav]) rfl)
  · obtain rfl := Option.some.inj hk
    exact Or.inl (settled_next .emulate (by simp only [nav, ht, mainMenuNav]) rfl)
  · obtain rfl := Option.some.inj hk
    exact Or.inl (settled_next .about (by simp only [nav, ht, mainMenuNav]) rfl)
  -- the saved menu
  · obtain rfl := Option.some.inj hk
    exact Or.inl (settled_next .emulate (by simp only [nav, ht, savedMenuNav]) rfl)
  · obtain rfl := Option.some.inj hk
    exact Or.inl (settled_next .delete (by simp only [nav, ht, savedMenuNav]) rfl)
  · obtain rfl := Option.some.inj hk
    exact Or.inl (settled_next .info (by simp only [nav, ht, savedMenuNav]) rfl)
  -- the prompt
  · obtain rfl := Option.some.inj hk
    cases hs : (credentialSaveLoaded P.text e.save s.store s.credential).saved with
    | true => exact Or.inl (settled_next .saveSuccess (by simp only [nav, ht, mutationSaveNav, hs, if_true]) rfl)
    | false =>
      rcases settled_return (a := .mutationSave .update) 0 h ht (nav_leaves ht (.failed hs)) (by decide) with hq | hstay
      · exact Or.inl hq
      · exact Or.inr ⟨rfl, hstay⟩
  · obtain rfl := Option.some.inj hk
    exact Or.inl (settled_next .saveName (by simp only [nav, ht, mutationSaveNav]) rfl)
  · obtain rfl := Option.some.inj hk
    exact Or.inl (settled_next .saveName (by simp only [nav, ht, mutationSaveNav]) rfl)
  · obtain rfl := Option.some.inj hk
    rcases settled_return (P := P) (e := e) (a := .mutationSave .discard) 3 h ht
        (by simp only [nav, ht, mutationSaveNav]) (by decide)
      with hq | hstay
    · exact Or.inl hq
    · exact Or.inr ⟨rfl, hstay⟩
  -- the buttons: what lies below is a menu
  · obtain rfl := Option.some.inj hk
    refine Or.inl (settled_previous h.stacked ht (by simp only [nav, ht, deleteNav]) fun lower hc => ?_)
    cases lower <;> first | rfl | cases hc
  · obtain rfl := Option.some.inj hk
    cases hr : e.remove with
    | true => exact Or.inl (settled_next .deleteSuccess (by simp only [nav, ht, deleteNav, hr, if_true]) rfl)
    | false => exact Or.inl (settled_found .mainMenu (by simp only [nav, ht, deleteNav, hr]; rfl) (hmain (by decide)) rfl)
  · obtain rfl := Option.some.inj hk
    refine Or.inl (settled_previous h.stacked ht (by simp only [nav, ht, infoNav]) fun lower hc => ?_)
    cases lower <;> first | rfl | cases hc
  · obtain rfl := Option.some.inj hk
    refine Or.inl (settled_previous h.stacked ht (by simp only [nav, ht, infoNav]) fun lower hc => ?_)
    cases lower <;> first | rfl | cases hc
  -- the popups
  · obtain rfl := Option.some.inj hk
    exact Or.inl (settled_found .mainMenu (by simp only [nav, ht, successNav]) (hmain (by decide)) rfl)
  · obtain rfl := Option.some.inj hk
    exact Or.inl (settled_found .mainMenu (by simp only [nav, ht, successNav]) (hmain (by decide)) rfl)
  -- the name
  · obtain rfl := Option.some.inj hk
    refine Or.inl ?_
    have hscenes := saveNameDone_scenes (P := P) (e := e) (s := s) textStore
    cases hs : (saveNameDone P.sdk P.text e.save s.store s.credential textStore).saved with
    | true =>
      rw [hs, if_pos rfl] at hscenes
      exact settled_top .saveSuccess (by simp only [handled, hscenes]; rfl) rfl
    | false =>
      rw [hs, if_neg Bool.false_ne_true] at hscenes
      exact settled_top .mainMenu (by simp only [handled, hscenes]; exact search_head (hmain (by decide))) rfl
  · cases hk

end Taken

/-! ## Every run -/

section Runs

variable {P : Parts n β} {s t : App n β} {event : Nat}

def press (P : Parts n β) (event : Nat) (s : App n β) (j : Name n × Env) : App n β × List Effect :=
  dispatch P s (.custom event j.1, j.2)

theorem press_cases (P : Parts n β) (event : Nat) (s : App n β) (j : Name n × Env) :
    press P event s j = (s, []) ∨
    ∃ scene a, s.scenes.head? = some scene ∧ taken scene event j.1 = some a ∧ press P event s j = handled P s (a, j.2) := by
  cases hb : s.takes event j.1 with
  | none => exact Or.inl (by simp only [press, dispatch, hb])
  | some a =>
    obtain ⟨scene, ht, hk⟩ := Option.bind_eq_some_iff.mp hb
    exact Or.inr ⟨scene, a, ht, hk, by simp only [press, dispatch, hb]⟩

/-- Where the number only leads on, it only leads on, and to where it only leads on. -/
theorem press_settled (h : Placed s) (hq : Settled event s) (j : Name n × Env) :
    Placed (press P event s j).1 ∧ Settled event (press P event s j).1 ∧
      Unharmed s (press P event s j).1 (press P event s j).2 := by
  rcases press_cases P event s j with hn | ⟨scene, a, ht, hk, hs⟩
  · rw [hn]
    exact ⟨h, hq, unharmed_same s⟩
  · have hw := taken_walks hk (hq scene ht)
    refine ⟨dispatch_placed P s _ h, ?_, by rw [hs, handled_walks hw]; exact step_unharmed hw⟩
    rw [hs]
    rcases after_taken (P := P) (e := j.2) h ht hk with hq' | ⟨hact, _⟩
    · exact hq'
    · rw [hq scene ht] at hact
      cases hact

theorem Unharmed.step {u : App n β} {log es : List Effect} (h : Unharmed s t log) (h' : Unharmed t u es) :
    Unharmed s u (log ++ es) := by
  refine ⟨h'.credential.trans h.credential, h'.store.trans h.store, fun x hx => ?_⟩
  rcases List.mem_append.mp hx with hx | hx
  · exact h.effects x hx
  · exact h'.effects x hx

theorem settled_run (h : Placed s) (hq : Settled event s) (again : List (Name n × Env)) :
    Unharmed s (run (press P event) s again).1 (run (press P event) s again).2 := by
  have hstep : ∀ (a : App n β × List Effect) (j : Name n × Env),
      Placed a.1 ∧ Settled event a.1 ∧ Unharmed s a.1 a.2 →
        Placed (logged (press P event) a j).1 ∧ Settled event (logged (press P event) a j).1 ∧
          Unharmed s (logged (press P event) a j).1 (logged (press P event) a j).2 := by
    rintro a j ⟨hp, hq, hu⟩
    obtain ⟨hp', hq', hu'⟩ := press_settled hp hq j
    exact ⟨hp', hq', hu.step hu'⟩
  have hinv := run_outputs_inv (fun a : App n β × List Effect => Placed a.1 ∧ Settled event a.1 ∧ Unharmed s a.1 a.2)
    hstep again (s, []) ⟨h, hq, unharmed_same s⟩
  exact hinv.2.2

end Runs

/-- In every run, whatever numbers arrive in whatever scene: a press comes to nothing, or the
    prompt stays, or the same number delivered any number of times after it changes neither
    the credential nor a file nor `load_path`. -/
theorem pressed_once (P : Parts n β) (files : Files) (c : Credential n β) (is : List (Input n β × Env)) (event : Nat)
    (first : Name n × Env) :
    let s := (run (dispatch P) (appInit files c) is).1
    let x := press P event s first
    x = (s, []) ∨ (acts .mutationSave event = true ∧ Stays s x.1) ∨
      ∀ again, Unharmed x.1 (run (press P event) x.1 again).1 (run (press P event) x.1 again).2 := by
  intro s x
  have hp : Placed s := run_inv Placed (dispatch_placed P) is _ (placed_init files c)
  have hp' : Placed x.1 := dispatch_placed P s _ hp
  rcases press_cases P event s first with hn | ⟨scene, a, ht, hk, hs⟩
  · exact Or.inl hn
  · have hx : x = handled P s (a, first.2) := hs
    rcases after_taken (P := P) (e := first.2) hp ht hk with hq | ⟨hact, hstay⟩
    · rw [← hx] at hq
      exact Or.inr (Or.inr fun again => settled_run hp' hq again)
    · rw [← hx] at hstay
      obtain rfl := Option.some.inj (hstay.prompt.symm.trans ht)
      exact Or.inr (Or.inl ⟨hact, hstay⟩)

end DfcFlipper.Scenes
