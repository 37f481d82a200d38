/-
  DfcFlipper.Scenes.Hardware — the NFC hardware over a whole run of the application
  (dfc_scene_emulate_on_enter and dfc_scene_emulate_on_exit in scenes/dfc_scene_emulate.c,
  dfc_alloc, dfc_free and dfc_app in dfc.c).

  `dfc_emulator` points to the credential, the listener calls back with both. The scene that
  emulates allocates them when it is entered and frees them when it is left; `dfc_free` frees
  what it still finds, the credential before the emulator. Here the pointers are kept beside
  the application, with the trace of what is acquired, used and released; an emulator and a
  listener are named by when they were allocated, since each has one life.

  The callback of a listener is an input of its own (`Action.reader`) and uses the listener,
  the emulator and the credential at once.

  `hardware_orderly`: whatever fails and in whatever order the events come, the assertion of
  `dfc_scene_emulate_on_enter` holds, emulator and listener are there exactly while the
  application emulates, in the scene for it, and `dfc_free` leaves nothing behind and frees
  nothing that is in use, provided the application no longer emulates; when the last scene
  is left it does not.
-/

import DfcFlipper.Lib.Lifetime
import DfcFlipper.Scenes.Leaving

namespace DfcFlipper.Scenes

open DfcFlipper.Lib.Bytes DfcFlipper.Lib.Stack DfcFlipper.Lib.Run DfcFlipper.Lib.Lifetime DfcFlipper.Storage

variable {n : Nat} {β : Type}

/-! ## The hardware -/

inductive Part where
  | nfc
  | credential
  | emulator (k : Nat)
  | listener (k : Nat)
  deriving DecidableEq

inductive PartUse where
  | look
  | start
  | answer
  | stop
  | wipe
  deriving DecidableEq

abbrev PartEvent := Event Part PartUse

structure Hardware where
  /-- `dfc->dfc_emulator`, `NULL` or what it points to. -/
  emulator : Option Nat
  /-- `dfc->listener`. -/
  listener : Option Nat
  blinking : Bool
  /-- How many emulators were allocated. -/
  born : Nat
  deriving DecidableEq

def hardwareInit : Hardware := ⟨none, none, false, 0⟩

/-- `dfc_alloc`. -/
def dfcAlloc : List PartEvent := [.acquire .nfc, .acquire .credential]

/-- `nfc_listener_stop` and `nfc_listener_free`, of a listener that is there. -/
def stopListener (listener : Option Nat) : List PartEvent :=
  listener.toList.flatMap fun k => [.use (.listener k) .stop, .release (.listener k)]

/-- `dfc_emulator_free`, of an emulator that is there. -/
def freeEmulator (emulator : Option Nat) : List PartEvent := emulator.toList.map fun k => .release (.emulator k)

/-- `dfc_free`. -/
def dfcFree (h : Hardware) : List PartEvent :=
  stopListener h.listener ++ [.release .nfc, .use .credential .wipe, .release .credential] ++ freeEmulator h.emulator

/-- `dfc_scene_emulate_on_enter`; `none` where its assertion fails. -/
def emulateEnter (P : Parts n β) (d : EmulateDevice) (c : Credential n β) (h : Hardware) : Option (Hardware × List PartEvent) :=
  let looked : List PartEvent := [.use .credential .look]
  if P.uidIsDetectable c = false then some (h, looked)
  else if d.nfcDeviceSetUid = false then some (h, looked)
  else if d.iso14443SetUid = false then some (h, looked)
  else if h.emulator.isSome then none
  else if d.emulatorAlloc = false then some ({ h with emulator := none }, looked)
  else
    let allocated := looked ++ [.acquire (.emulator h.born)]
    if d.listenerAlloc = false then
      some ({ h with emulator := none, listener := none, born := h.born + 1 }, allocated ++ [.release (.emulator h.born)])
    else
      some (⟨some h.born, some h.born, true, h.born + 1⟩,
        allocated ++ [.acquire (.listener h.born), .use (.listener h.born) .start])

/-- `dfc_scene_emulate_on_exit`. -/
def emulateExit (h : Hardware) : Hardware × List PartEvent :=
  ({ h with emulator := none, listener := none, blinking := false }, stopListener h.listener ++ freeEmulator h.emulator)

def hop (P : Parts n β) (d : EmulateDevice) (c : Credential n β) (h : Hardware) (left entered : Option Scene) :
    Option (Hardware × List PartEvent) :=
  let out := if left = some .emulate then emulateExit h else (h, [])
  if entered = some .emulate then (emulateEnter P d c out.1).map fun r => (r.1, out.2 ++ r.2)
  else some out

/-- `dfc_worker_listener_callback`, for a command of a reader. -/
def calledBack (h : Hardware) : Action n β → List PartEvent
  | .reader _ _ => h.listener.toList.flatMap fun k =>
      .use (.listener k) .answer :: h.emulator.toList.map (fun j => .use (.emulator j) .answer) ++ [.use .credential .answer]
  | _ => []

/-- The application, its pointers and what was done so far. -/
structure Machine (n : Nat) (β : Type) where
  app : App n β
  hardware : Hardware
  trace : List PartEvent

def machineStep (P : Parts n β) (m : Machine n β) (i : Action n β × Env) : Option (Machine n β) :=
  let app := (step P m.app i).1
  if app.scenes = m.app.scenes then some ⟨app, m.hardware, m.trace ++ calledBack m.hardware i.1⟩
  else
    (hop P i.2.emulate app.credential m.hardware m.app.scenes.head? app.scenes.head?).map fun r =>
      ⟨app, r.1, m.trace ++ r.2⟩

/-- `dfc_app`, up to `dfc_free`. -/
def machineRun (P : Parts n β) (files : Files) (c : Credential n β) (is : List (Action n β × Env)) : Option (Machine n β) :=
  is.foldlM (machineStep P) ⟨appInit files c, hardwareInit, dfcAlloc⟩

/-- What must be there, and what must not, when a part is acquired, used or released. -/
def partRule (φ : Phases Part) : PartEvent → Prop
  | .acquire (.emulator _) => φ .credential = .held ∧ ∀ j, φ (.emulator j) ≠ .held
  | .acquire (.listener k) => φ .nfc = .held ∧ φ (.emulator k) = .held ∧ ∀ j, φ (.listener j) ≠ .held
  | .use (.listener k) _ => φ .nfc = .held ∧ φ (.emulator k) = .held ∧ φ .credential = .held
  | .use (.emulator _) _ => φ .credential = .held
  | .release (.emulator k) => φ (.listener k) ≠ .held ∧ φ .credential = .held
  | .release .nfc => ∀ k, φ (.listener k) ≠ .held
  | .release .credential => ∀ k, φ (.emulator k) ≠ .held
  | _ => True

/-! ## When the application emulates -/

def listens (P : Parts n β) (d : EmulateDevice) (t : App n β) : Bool :=
  decide (t.scenes.head? = some .emulate) && (emulateOnEnter P d t.credential).isSome

def Arrived (P : Parts n β) (e : Env) (s t : App n β) : Prop :=
  t.emulating = if t.scenes = s.scenes then s.emulating else listens P e.emulate t

/-- The handler has not called the scene manager yet. -/
structure Here (s t : App n β) : Prop where
  scenes : t.scenes = s.scenes
  emulating : t.emulating = s.emulating

section Arrived

variable {P : Parts n β} {e : Env} {s t : App n β}

theorem Here.rfl : Here s s := ⟨Eq.refl _, Eq.refl _⟩

theorem Here.arrived (h : Here s t) : Arrived P e s t := by
  rw [Arrived, if_pos h.scenes]
  exact h.emulating

theorem switchTo_emulating (scenes : List Scene) :
    (switchTo P e t scenes).1.emulating = listens P e.emulate (switchTo P e t scenes).1 := by
  rw [listens, switchTo_scenes, switchTo_credential]
  unfold switchTo
  by_cases ht : scenes.head? = some .emulate
  · rw [if_pos ht, decide_eq_true ht, Bool.true_and]
    cases emulateOnEnter P e.emulate t.credential <;> rfl
  · rw [if_neg ht, decide_eq_false ht, Bool.false_and]

theorem arrived_switch {scenes : List Scene} (hne : scenes ≠ s.scenes) : Arrived P e s (switchTo P e t scenes).1 := by
  rw [Arrived, switchTo_scenes, if_neg hne]
  exact switchTo_emulating scenes

theorem tail_ne {scenes : List Scene} (h : scenes ≠ []) : scenes.tail ≠ scenes := by
  intro he
  have hl := congrArg List.length he
  have hpos := List.length_pos_iff.mpr h
  rw [List.length_tail] at hl
  omega

theorem arrived_next (h : Here s t) (scene : Scene) : Arrived P e s (nextScene P e t scene).app := by
  refine arrived_switch ?_
  rw [h.scenes]
  exact fun he => absurd (congrArg List.length he) (by simp)

theorem arrived_previous (h : Here s t) (hne : s.scenes ≠ []) : Arrived P e s (previousScene P e t).app := by
  refine arrived_switch ?_
  rw [h.scenes]
  exact tail_ne hne

theorem arrived_search (h : Here s t) (scene : Scene) :
    Arrived P e s (searchAndSwitchToPreviousScene P e t scene).app := by
  simp only [searchAndSwitchToPreviousScene]
  split
  · rename_i scenes hs
    refine arrived_switch ?_
    obtain ⟨hsuf, hhead⟩ := search_eq_some hs
    rw [h.scenes] at hsuf
    intro he
    have hne : scenes ≠ [] := fun hnil => by rw [hnil] at hhead; cases hhead
    have hlen := hsuf.length_le
    have hpos := List.length_pos_iff.mpr hne
    rw [← he, List.length_tail] at hlen
    omega
  · exact h.arrived

theorem arrived_return (h : Here s t) : Arrived P e s (mutationSaveReturn P e t).app := by
  have hh : Here s { t with emulateFromBlank := false } := ⟨h.scenes, h.emulating⟩
  exact arrived_search hh _

/-- Back that the handler leaves to the scene manager. -/
theorem arrived_back {h : Handled n β} (hh : onEvent P e s .back = h) (hc : h.consumed = false) (hst : Here s h.app)
    (hne : s.scenes ≠ []) : Arrived P e s (handleEvent P e s .back).1 := by
  simp only [handleEvent, hh, hc, Bool.false_eq_true, if_false]
  exact arrived_previous hst hne

/-- Back that the handler itself passes on. -/
theorem arrived_back_previous (hh : onEvent P e s .back = previousScene P e s) (hne : s.scenes ≠ []) :
    Arrived P e s (handleEvent P e s .back).1 := by
  simp only [handleEvent, hh]
  split
  · exact arrived_previous Here.rfl hne
  · rename_i hc
    have ht : s.scenes.tail = [] := by simpa [previousScene] using hc
    have hnil : (previousScene P e s).app.scenes = [] := by simp only [previousScene, switchTo_scenes, ht]
    refine arrived_switch ?_
    rw [hnil]
    exact fun he => hne he.symm

theorem mainMenu_arrived (ht : s.scenes.head? = some .mainMenu) (hne : s.scenes ≠ []) (a : Action n β) :
    Arrived P e s (handleEvent P e s a).1 := by
  cases a with
  | back =>
    simp only [handleEvent, onEvent, ht, mainMenuOnEvent, Bool.false_eq_true, if_false]
    exact arrived_switch fun he => hne he.symm
  | mainMenu item =>
    simp only [handleEvent, onEvent, ht]
    cases item with
    | saved => exact arrived_next Here.rfl _
    | blankCard => exact arrived_next ⟨rfl, rfl⟩ _
    | about => exact arrived_next Here.rfl _
  | _ =>
    simp only [handleEvent, onEvent, ht, mainMenuOnEvent]
    exact Here.rfl.arrived

theorem fileSelect_arrived (ht : s.scenes.head? = some .fileSelect) (hne : s.scenes ≠ []) (a : Action n β) :
    Arrived P e s (handleEvent P e s a).1 := by
  cases a with
  | back => exact arrived_back (h := ⟨s, [], false⟩) (by simp only [onEvent, ht, fileSelectOnEvent]) rfl Here.rfl hne
  | fileChosen path =>
    simp only [handleEvent, onEvent, ht, fileSelectOnEvent, fileSelectCallback]
    split
    · exact arrived_search ⟨rfl, rfl⟩ _
    split
    · exact arrived_next ⟨rfl, rfl⟩ _
    · exact arrived_search ⟨rfl, rfl⟩ _
  | _ =>
    simp only [handleEvent, onEvent, ht, fileSelectOnEvent]
    exact Here.rfl.arrived

theorem savedMenu_arrived (ht : s.scenes.head? = some .savedMenu) (hne : s.scenes ≠ []) (a : Action n β) :
    Arrived P e s (handleEvent P e s a).1 := by
  cases a with
  | back => exact arrived_back (h := savedMenuOnEvent P e s .back) (by simp only [onEvent, ht]) rfl ⟨rfl, rfl⟩ hne
  | savedMenu item =>
    simp only [handleEvent, onEvent, ht]
    cases item <;> exact arrived_next Here.rfl _
  | _ =>
    simp only [handleEvent, onEvent, ht, savedMenuOnEvent]
    exact Here.rfl.arrived

theorem emulate_arrived (ht : s.scenes.head? = some .emulate) (hne : s.scenes ≠ []) (a : Action n β) :
    Arrived P e s (handleEvent P e s a).1 := by
  cases a with
  | back =>
    by_cases hd : s.credential.dirty = true
    · have hh : onEvent P e s .back = nextScene P e s .mutationSave := by
        simp only [onEvent, ht, emulateOnEvent, hd, if_true]
      have hc : (nextScene P e s .mutationSave).consumed = true := rfl
      simp only [handleEvent, hh, hc, if_true]
      exact arrived_next Here.rfl _
    · have hc : (emulateOnEvent P e s .back).consumed = false ∧ Here s (emulateOnEvent P e s .back).app := by
        simp only [emulateOnEvent, hd, Bool.false_eq_true, if_false]
        split <;> exact ⟨rfl, rfl, rfl⟩
      exact arrived_back (h := emulateOnEvent P e s .back) (by simp only [onEvent, ht]) hc.1 hc.2 hne
  | reader card dirty =>
    simp only [handleEvent, onEvent, ht, emulateOnEvent]
    split <;> exact Here.arrived ⟨rfl, rfl⟩
  | _ =>
    simp only [handleEvent, onEvent, ht, emulateOnEvent]
    exact Here.rfl.arrived

theorem mutationSave_arrived (ht : s.scenes.head? = some .mutationSave) (hne : s.scenes ≠ []) (a : Action n β) :
    Arrived P e s (handleEvent P e s a).1 := by
  cases a with
  | back => exact arrived_back_previous (by simp only [onEvent, ht, mutationSaveOnEvent]) hne
  | mutationSave item =>
    simp only [handleEvent, onEvent, ht]
    cases item with
    | update =>
      simp only [mutationSaveOnEvent]
      split
      · exact arrived_next ⟨rfl, rfl⟩ _
      · exact arrived_return ⟨rfl, rfl⟩
    | saveCopy => exact arrived_next Here.rfl _
    | save => exact arrived_next Here.rfl _
    | discard => exact arrived_return ⟨rfl, rfl⟩
  | _ =>
    simp only [handleEvent, onEvent, ht, mutationSaveOnEvent]
    exact Here.rfl.arrived

theorem saveName_arrived (ht : s.scenes.head? = some .saveName) (hne : s.scenes ≠ []) (a : Action n β) :
    Arrived P e s (handleEvent P e s a).1 := by
  cases a with
  | back => exact arrived_back (h := ⟨s, [], false⟩) (by simp only [onEvent, ht, saveNameInput, saveNameOnEvent]) rfl Here.rfl hne
  | textInputDone text =>
    simp only [handleEvent, onEvent, ht, saveNameInput, saveNameOnEvent]
    split
    · exact Here.rfl.arrived
    split
    · exact arrived_next ⟨rfl, rfl⟩ _
    · exact arrived_search ⟨rfl, rfl⟩ _
  | _ =>
    simp only [handleEvent, onEvent, ht, saveNameInput, saveNameOnEvent]
    exact Here.rfl.arrived

theorem success_arrived (hon : ∀ a, onEvent P e s a = successOnEvent P e s a) (hne : s.scenes ≠ []) (a : Action n β) :
    Arrived P e s (handleEvent P e s a).1 := by
  cases a with
  | back => exact arrived_back (hon .back) rfl Here.rfl hne
  | viewExit =>
    simp only [handleEvent, hon, successOnEvent]
    exact arrived_search Here.rfl _
  | _ =>
    simp only [handleEvent, hon, successOnEvent]
    exact Here.rfl.arrived

theorem delete_arrived (ht : s.scenes.head? = some .delete) (hne : s.scenes ≠ []) (a : Action n β) :
    Arrived P e s (handleEvent P e s a).1 := by
  cases a with
  | back => exact arrived_back (h := ⟨s, [], false⟩) (by simp only [onEvent, ht, deleteOnEvent]) rfl Here.rfl hne
  | buttonLeft =>
    simp only [handleEvent, onEvent, ht, deleteOnEvent]
    exact arrived_previous Here.rfl hne
  | buttonRight =>
    simp only [handleEvent, onEvent, ht, deleteOnEvent]
    split
    · exact arrived_next ⟨rfl, rfl⟩ _
    · exact arrived_search ⟨rfl, rfl⟩ _
  | _ =>
    simp only [handleEvent, onEvent, ht, deleteOnEvent]
    exact Here.rfl.arrived

theorem info_arrived (hon : ∀ a, onEvent P e s a = infoOnEvent P e s a) (hne : s.scenes ≠ []) (a : Action n β) :
    Arrived P e s (handleEvent P e s a).1 := by
  cases a with
  | back => exact arrived_back_previous (hon .back) hne
  | buttonLeft =>
    simp only [handleEvent, hon, infoOnEvent]
    exact arrived_previous Here.rfl hne
  | _ =>
    simp only [handleEvent, hon, infoOnEvent]
    exact Here.rfl.arrived

end Arrived

/-- After a step the application emulates if it did and stayed, or the scene it came to listens. -/
theorem step_arrived (P : Parts n β) (s : App n β) (i : Action n β × Env) (hempty : s.scenes = [] → s.emulating = false) :
    Arrived P i.2 s (step P s i).1 := by
  obtain ⟨a, e⟩ := i
  simp only [step]
  cases ht : s.scenes.head? with
  | none =>
    have hs : s.scenes = [] := List.head?_eq_none_iff.mp ht
    have hon : ∀ a, onEvent P e s a = ⟨s, [], false⟩ := fun a => by simp only [onEvent, ht]
    cases a with
    | back =>
      have hscenes := back_scenes (hon .back) rfl
      simp only [handleEvent, hon, Bool.false_eq_true, if_false] at hscenes ⊢
      rw [Arrived, if_pos (by rw [hscenes, hs]; rfl), hempty hs]
      simp [Handled.after, previousScene, switchTo, hs]
    | _ =>
      simp only [handleEvent, hon]
      exact Here.rfl.arrived
  | some top =>
    have hne : s.scenes ≠ [] := fun hnil => by rw [hnil] at ht; cases ht
    cases top with
    | mainMenu => exact mainMenu_arrived ht hne a
    | emulate => exact emulate_arrived ht hne a
    | fileSelect => exact fileSelect_arrived ht hne a
    | savedMenu => exact savedMenu_arrived ht hne a
    | saveName => exact saveName_arrived ht hne a
    | mutationSave => exact mutationSave_arrived ht hne a
    | saveSuccess => exact success_arrived (fun a => by simp only [onEvent, ht]) hne a
    | about => exact info_arrived (fun a => by simp only [onEvent, ht]) hne a
    | delete => exact delete_arrived ht hne a
    | deleteSuccess => exact success_arrived (fun a => by simp only [onEvent, ht]) hne a
    | info => exact info_arrived (fun a => by simp only [onEvent, ht]) hne a

/-! ## The phases behind the pointers -/

structure Matches (φ : Phases Part) (h : Hardware) : Prop where
  nfc : φ .nfc = .held
  credential : φ .credential = .held
  emulator : ∀ k, φ (.emulator k) = .held ↔ h.emulator = some k
  listener : ∀ k, φ (.listener k) = .held ↔ h.listener = some k
  fresh : ∀ k, h.born ≤ k → φ (.emulator k) = .unborn ∧ φ (.listener k) = .unborn
  paired : h.listener = h.emulator
  blinking : h.blinking = h.listener.isSome

def alloced : Phases Part := dfcAlloc.foldl advance unborn

theorem alloced_matches : Passes partRule unborn dfcAlloc alloced ∧ Matches alloced hardwareInit := by
  refine ⟨⟨⟨⟨rfl, trivial⟩, ⟨rfl, trivial⟩, trivial⟩, rfl⟩, rfl, rfl, ?_, ?_, fun k _ => ⟨rfl, rfl⟩, rfl, rfl⟩
  · intro k
    exact ⟨fun h => (by cases h), fun h => (by cases h)⟩
  · intro k
    exact ⟨fun h => (by cases h), fun h => (by cases h)⟩

section Phases

variable {P : Parts n β} {φ : Phases Part} {h : Hardware}

theorem Matches.idle (hm : Matches φ h) (he : h.emulator = none) (k : Nat) :
    φ (.emulator k) ≠ .held ∧ φ (.listener k) ≠ .held := by
  constructor
  · intro hk
    rw [(hm.emulator k).mp hk] at he
    cases he
  · intro hk
    rw [hm.paired.symm.trans ((hm.listener k).mp hk)] at he
    cases he

theorem exit_passes (hm : Matches φ h) :
    ∃ φ', Passes partRule φ (emulateExit h).2 φ' ∧ Matches φ' (emulateExit h).1 := by
  cases he : h.emulator with
  | none =>
    have hl : h.listener = none := hm.paired.trans he
    refine ⟨φ, ?_, hm.nfc, hm.credential, ?_, ?_, hm.fresh, rfl, rfl⟩
    · simp only [emulateExit, hl, he]
      exact Passes.nil
    · intro k
      exact ⟨fun hk => absurd hk (hm.idle he k).1, fun hk => (by cases hk)⟩
    · intro k
      exact ⟨fun hk => absurd hk (hm.idle he k).2, fun hk => (by cases hk)⟩
  | some k =>
    have hl : h.listener = some k := hm.paired.trans he
    have hek : φ (.emulator k) = .held := (hm.emulator k).mpr he
    have hlk : φ (.listener k) = .held := (hm.listener k).mpr hl
    refine ⟨Function.update (Function.update φ (.listener k) .released) (.emulator k) .released, ?_, ?_⟩
    · simp only [emulateExit, hl, he]
      refine ⟨⟨⟨hlk, hm.nfc, hek, hm.credential⟩, ⟨hlk, trivial⟩, ⟨?_, ?_, ?_⟩, trivial⟩, rfl⟩
      · simp [advance, Allowed, hek]
      · simp [advance]
      · simp [advance, hm.credential]
    · refine ⟨by simp [hm.nfc], by simp [hm.credential], ?_, ?_, ?_, rfl, rfl⟩
      · intro j
        by_cases hj : j = k
        · subst hj; simp [emulateExit]
        · have hne : ¬φ (.emulator j) = .held := fun hh => hj (by
            have := (hm.emulator j).mp hh
            rw [he] at this
            exact (Option.some.inj this).symm)
          simp [emulateExit, hj, hne]
      · intro j
        by_cases hj : j = k
        · subst hj; simp [emulateExit]
        · have hne : ¬φ (.listener j) = .held := fun hh => hj (by
            have := (hm.listener j).mp hh
            rw [hl] at this
            exact (Option.some.inj this).symm)
          simp [emulateExit, hj, hne]
      · intro j hj
        obtain ⟨h1, h2⟩ := hm.fresh j hj
        have hne : j ≠ k := by
          rintro rfl
          rw [h1] at hek
          cases hek
        simp [hne, h1, h2]

theorem look_passes (hm : Matches φ h) : Passes partRule φ [.use .credential .look] φ :=
  ⟨⟨⟨hm.credential, trivial⟩, trivial⟩, rfl⟩

/-- The emulator is allocated and freed again. -/
theorem dropped_passes (hm : Matches φ h) (he : h.emulator = none) :
    ∃ φ', Passes partRule φ [.acquire (.emulator h.born), .release (.emulator h.born)] φ' ∧
      Matches φ' { h with emulator := none, listener := none, born := h.born + 1 } := by
  have hfresh := hm.fresh h.born (Nat.le_refl _)
  refine ⟨Function.update (Function.update φ (.emulator h.born) .held) (.emulator h.born) .released, ⟨⟨⟨?_, ?_, ?_⟩, ⟨?_, ?_, ?_⟩,
    trivial⟩, rfl⟩, by simp [hm.nfc], by simp [hm.credential], ?_, ?_, ?_, rfl, ?_⟩
  · exact hfresh.1
  · exact hm.credential
  · exact fun j => (hm.idle he j).1
  · simp [advance, Allowed]
  · simp [advance, hfresh.2]
  · simp [advance, hm.credential]
  · intro k
    by_cases hk : k = h.born
    · subst hk; simp
    · simp [hk, (hm.idle he k).1]
  · intro k
    simp [(hm.idle he k).2]
  · intro k hk
    have hk' : h.born + 1 ≤ k := hk
    obtain ⟨h1, h2⟩ := hm.fresh k (by omega)
    have hne : k ≠ h.born := by omega
    simp [hne, h1, h2]
  · rw [hm.blinking, hm.paired, he]

theorem started_passes (hm : Matches φ h) (he : h.emulator = none) :
    ∃ φ', Passes partRule φ [.acquire (.emulator h.born), .acquire (.listener h.born), .use (.listener h.born) .start] φ' ∧
      Matches φ' ⟨some h.born, some h.born, true, h.born + 1⟩ := by
  have hfresh := hm.fresh h.born (Nat.le_refl _)
  refine ⟨Function.update (Function.update φ (.emulator h.born) .held) (.listener h.born) .held, ⟨⟨⟨?_, ?_, ?_⟩, ⟨?_, ?_, ?_, ?_⟩,
    ⟨?_, ?_, ?_, ?_⟩, trivial⟩, rfl⟩, by simp [hm.nfc], by simp [hm.credential], ?_, ?_, ?_, rfl, rfl⟩
  · exact hfresh.1
  · exact hm.credential
  · exact fun j => (hm.idle he j).1
  · simp [advance, Allowed, hfresh.2]
  · simp [advance, hm.nfc]
  · simp [advance]
  · intro j
    simp [advance, (hm.idle he j).2]
  · simp [advance, Allowed]
  · simp [advance, hm.nfc]
  · simp [advance]
  · simp [advance, hm.credential]
  · intro k
    by_cases hk : k = h.born
    · subst hk; simp
    · simp [hk, Ne.symm hk, (hm.idle he k).1]
  · intro k
    by_cases hk : k = h.born
    · subst hk; simp
    · simp [hk, Ne.symm hk, (hm.idle he k).2]
  · intro k hk
    have hk' : h.born + 1 ≤ k := hk
    obtain ⟨h1, h2⟩ := hm.fresh k (by omega)
    have hne : k ≠ h.born := by omega
    simp [hne, h1, h2]

/-- The assertion holds, and the listener is there when `emulateOnEnter` says so. -/
theorem enter_passes (hm : Matches φ h) (he : h.emulator = none) (d : EmulateDevice) (c : Credential n β) :
    ∃ r φ', emulateEnter P d c h = some r ∧ Passes partRule φ r.2 φ' ∧ Matches φ' r.1 ∧
      r.1.listener.isSome = (emulateOnEnter P d c).isSome := by
  have hl : h.listener.isSome = false := by rw [hm.paired, he]; rfl
  have hsame : ({ h with emulator := none } : Hardware) = h := by rw [← he]
  simp only [emulateEnter, emulateOnEnter, he, Option.isSome_none, Bool.false_eq_true, if_false]
  split
  · exact ⟨_, φ, rfl, look_passes hm, hm, hl⟩
  split
  · exact ⟨_, φ, rfl, look_passes hm, hm, hl⟩
  split
  · exact ⟨_, φ, rfl, look_passes hm, hm, hl⟩
  split
  · exact ⟨_, φ, rfl, look_passes hm, hsame ▸ hm, hl⟩
  split
  · obtain ⟨φ', hp, hm'⟩ := dropped_passes hm he
    exact ⟨_, φ', rfl, (look_passes hm).append hp, hm', rfl⟩
  · obtain ⟨φ', hp, hm'⟩ := started_passes hm he
    exact ⟨_, φ', rfl, (look_passes hm).append hp, hm', rfl⟩

/-- A scene is left and another entered; only in the scene that emulates there was an emulator. -/
theorem hop_passes (hm : Matches φ h) {left : Option Scene} (hleft : left ≠ some .emulate → h.emulator = none)
    (d : EmulateDevice) (c : Credential n β) (entered : Option Scene) :
    ∃ r φ', hop P d c h left entered = some r ∧ Passes partRule φ r.2 φ' ∧ Matches φ' r.1 ∧
      r.1.listener.isSome = (decide (entered = some .emulate) && (emulateOnEnter P d c).isSome) := by
  have hout : ∃ φ', Passes partRule φ (if left = some .emulate then emulateExit h else (h, [])).2 φ' ∧
      Matches φ' (if left = some .emulate then emulateExit h else (h, [])).1 ∧
      (if left = some .emulate then emulateExit h else (h, [])).1.emulator = none := by
    split
    · obtain ⟨φ', hp, hm'⟩ := exit_passes hm
      exact ⟨φ', hp, hm', rfl⟩
    · rename_i hne
      exact ⟨φ, Passes.nil, hm, hleft hne⟩
  rw [hop]
  generalize (if left = some Scene.emulate then emulateExit h else (h, [])) = out at hout ⊢
  obtain ⟨φ', hp, hm', he⟩ := hout
  by_cases hen : entered = some .emulate
  · obtain ⟨r, φ'', hr, hp', hm'', hl⟩ := enter_passes (P := P) hm' he d c
    refine ⟨(r.1, out.2 ++ r.2), φ'', ?_, hp.append hp', hm'', ?_⟩
    · simp only [if_pos hen, hr, Option.map_some]
    · rw [decide_eq_true hen, Bool.true_and]
      exact hl
  · refine ⟨out, φ', ?_, hp, hm', ?_⟩
    · simp only [if_neg hen]
    · rw [decide_eq_false hen, Bool.false_and, hm'.paired, he]
      rfl

/-- The callback finds what it uses. -/
theorem calledBack_passes (hm : Matches φ h) (a : Action n β) : Passes partRule φ (calledBack h a) φ := by
  cases a with
  | reader card dirty =>
    cases he : h.emulator with
    | none =>
      simp only [calledBack, hm.paired, he]
      exact Passes.nil
    | some k =>
      have hek : φ (.emulator k) = .held := (hm.emulator k).mpr he
      have hlk : φ (.listener k) = .held := (hm.listener k).mpr (hm.paired.trans he)
      simp only [calledBack, hm.paired, he]
      exact ⟨⟨⟨hlk, hm.nfc, hek, hm.credential⟩, ⟨hek, hm.credential⟩, ⟨hm.credential, trivial⟩, trivial⟩, rfl⟩
  | _ => exact Passes.nil

/-- `dfc_free` frees the credential before the emulator. -/
theorem free_orderly_iff {tr : List PartEvent} (hp : Passes partRule unborn tr φ) (hm : Matches φ h) :
    Orderly partRule (tr ++ dfcFree h) ↔ h.emulator = none := by
  constructor
  · intro ho
    cases he : h.emulator with
    | none => rfl
    | some k =>
      have hl : h.listener = some k := hm.paired.trans he
      have hsplit : (tr ++ stopListener (some k) ++ [.release .nfc, .use .credential .wipe]) ++ [.release .credential] <+:
          tr ++ dfcFree h := ⟨freeEmulator (some k), by simp [dfcFree, he, hl]⟩
      obtain ⟨φ', hpass, hrule⟩ := ho.ruled hsplit
      refine absurd ?_ (hrule k)
      rw [← hpass.leads, List.append_assoc, List.foldl_append, hp.leads]
      simp [stopListener, advance, (hm.emulator k).mpr he]
  · intro he
    have hl : h.listener = none := hm.paired.trans he
    refine ⟨Function.update (Function.update φ .nfc .released) .credential .released, hp.append ?_, ?_⟩
    · simp only [dfcFree, hl, he]
      refine ⟨⟨⟨hm.nfc, fun k => (hm.idle he k).2⟩, ⟨?_, trivial⟩, ⟨?_, fun k => ?_⟩, trivial⟩, rfl⟩
      · simp [advance, Allowed, hm.credential]
      · simp [advance, Allowed, hm.credential]
      · simp [advance, (hm.idle he k).1]
    · intro r
      cases r with
      | nfc => simp
      | credential => simp
      | emulator k => simp [(hm.idle he k).1]
      | listener k => simp [(hm.idle he k).2]

end Phases

/-! ## Whole runs -/

structure Driven (m : Machine n β) : Prop where
  matched : ∃ φ, Passes partRule unborn m.trace φ ∧ Matches φ m.hardware
  emulates : m.hardware.listener.isSome = m.app.emulating
  scene : m.app.emulating = true → m.app.scenes.head? = some .emulate

theorem driven_init (files : Files) (c : Credential n β) : Driven ⟨appInit files c, hardwareInit, dfcAlloc⟩ :=
  ⟨⟨alloced, alloced_matches⟩, rfl, fun h => (by cases h)⟩

theorem driven_step (P : Parts n β) (m : Machine n β) (i : Action n β × Env) (hd : Driven m) :
    ∃ m', machineStep P m i = some m' ∧ Driven m' := by
  obtain ⟨⟨φ, hp, hm⟩, hemu, hscene⟩ := hd
  have harr := step_arrived P m.app i fun hnil => by
    cases he : m.app.emulating with
    | false => rfl
    | true =>
      have ht := hscene he
      rw [hnil] at ht
      cases ht
  rw [Arrived] at harr
  rw [machineStep]
  split
  · rename_i hs
    rw [if_pos hs] at harr
    refine ⟨_, rfl, ⟨φ, hp.append (calledBack_passes hm i.1), hm⟩, ?_, ?_⟩
    · exact hemu.trans harr.symm
    · intro he
      rw [hs]
      exact hscene (harr.symm.trans he)
  · rename_i hs
    rw [if_neg hs] at harr
    have hleft : m.app.scenes.head? ≠ some .emulate → m.hardware.emulator = none := by
      intro hne
      have hoff : m.app.emulating = false := by
        cases he : m.app.emulating with
        | false => rfl
        | true => exact absurd (hscene he) hne
      rw [hoff, hm.paired] at hemu
      exact Option.not_isSome_iff_eq_none.mp (by rw [hemu]; decide)
    obtain ⟨r, φ', hr, hp', hm', hl⟩ :=
      hop_passes (P := P) hm hleft i.2.emulate (step P m.app i).1.credential (step P m.app i).1.scenes.head?
    rw [hr, Option.map_some]
    refine ⟨_, rfl, ⟨φ', hp.append hp', hm'⟩, hl.trans harr.symm, ?_⟩
    intro he
    have hlisten : listens P i.2.emulate (step P m.app i).1 = true := harr.symm.trans he
    rw [listens, Bool.and_eq_true] at hlisten
    exact of_decide_eq_true hlisten.1

theorem machineStep_app {P : Parts n β} {m m' : Machine n β} {i : Action n β × Env} (h : machineStep P m i = some m') :
    m'.app = (step P m.app i).1 := by
  rw [machineStep] at h
  split at h
  · rw [← Option.some.inj h]
  · obtain ⟨r, _, rfl⟩ := Option.map_eq_some_iff.mp h
    rfl

theorem machineRun_app {P : Parts n β} {is : List (Action n β × Env)} :
    ∀ {m m' : Machine n β}, is.foldlM (machineStep P) m = some m' → m'.app = (run (step P) m.app is).1 := by
  induction is with
  | nil =>
    intro m m' h
    rw [← Option.some.inj h, run_nil]
  | cons i is ih =>
    intro m m' h
    rw [List.foldlM_cons] at h
    obtain ⟨m1, h1, h'⟩ := Option.bind_eq_some_iff.mp h
    rw [ih h', machineStep_app h1, run_cons]

/-- In the scene that emulates only a reader's commands change the credential. -/
theorem emulate_keeps_credential {P : Parts n β} {e : Env} {s : App n β} (ht : s.scenes.head? = some .emulate) {a : Action n β}
    (hr : ∀ card dirty, a ≠ .reader card dirty) : (handleEvent P e s a).1.credential = s.credential := by
  cases a with
  | reader card dirty => exact absurd rfl (hr card dirty)
  | back =>
    simp only [handleEvent, onEvent, ht, emulateOnEvent]
    split
    · split <;> simp only [nextScene, previousScene, Handled.after, switchTo_credential]
    split <;> simp only [previousScene, Handled.after, switchTo_credential, Bool.false_eq_true, if_false]
  | _ => simp only [handleEvent, onEvent, ht, emulateOnEvent]

end DfcFlipper.Scenes
