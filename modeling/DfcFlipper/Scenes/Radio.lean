/-
  DfcFlipper.Scenes.Radio — the ATS the listener is started with.

  The listener has one frame size, one bit rate and no NAD, and a load refuses a credential
  whose ATS offers more. The ATS is used later, each time `dfc_scene_emulate_on_enter` starts the
  listener, and in between a reader may have written another; entering checks the UID again, and
  not the ATS. Blank Card never was checked.

  The engine is a parameter: its anticollision answers with the ATS of the credential, or else
  with a default that the listener delivers (`PassesAts`).

  `radio_kept_iff`: in exactly the runs in which Blank Card and every change by a reader leave an ATS
  that a load would accept, every scene that works on the credential has such an ATS before it;
  and then the listener never starts with another. `fast_ats_reentered` is the run that goes wrong.
-/

import DfcFlipper.Scenes.Ats
import DfcFlipper.Scenes.Changes
import DfcFlipper.Scenes.Origin

namespace DfcFlipper.Scenes

open DfcFlipper.Lib.Bytes DfcFlipper.Lib.Run DfcFlipper.Lib.Stack DfcFlipper.Storage

variable {n : Nat} {β : Type}

/-! ## What is assumed -/

/-- The anticollision passes the ATS of the credential through, and answers with the default where there is none. -/
structure PassesAts (P : Parts n β) (default : Octets) : Prop where
  own : ∀ c, c.card.piccAts ≠ [] → P.anticollisionAts c = c.card.piccAts
  absent : ∀ c, c.card.piccAts = [] → P.anticollisionAts c = default
  supported : atsIsRadioSupported default = true

theorem PassesAts.of_supported {P : Parts n β} {default : Octets} (h : PassesAts P default) {c : Credential n β}
    (hc : atsIsRadioSupported c.card.piccAts = true) : atsIsRadioSupported (P.anticollisionAts c) = true := by
  by_cases hn : c.card.piccAts = []
  · rw [h.absent c hn]
    exact h.supported
  · rw [h.own c hn]
    exact hc

/-! ## What the listener delivers -/

/-- The listener's fields: the length is right, FSCI 5, no bit rate but 106 kbit/s, FWI 8 at least, no NAD. -/
structure Delivered (ats : Octets) (d : AtsData) : Prop where
  unpacked : setListenerAts ats = some d
  whole : d.writeOut = ats
  length_eq : d.tl.toNat = ats.length
  fsci : d.t0 &&& 0x0F = 5
  ta1 : d.ta1 = 0
  tb1 : d.t0 &&& 0x20 ≠ 0
  fwi : (8 : UInt8) ≤ d.tb1 >>> 4
  nad : d.tc1 &&& 0x01 = 0

theorem delivered_of_supported {ats : Octets} (hne : ats ≠ []) (h : atsIsRadioSupported ats = true) :
    ∃ d, Delivered ats d := by
  obtain ⟨d, hd, hw, hj⟩ := setListenerAts_exact hne h
  obtain ⟨hwhole, hf, ht, hwi, hn⟩ := (atsIsRadioSupported_iff hne).mp h
  rw [← hj] at hf ht hwi hn
  -- TL and T0 are written out first
  have htl : ats.getD 0 0 = d.tl := by rw [← hw]; rfl
  have ht0 : ats.getD 1 0 = d.t0 := by rw [← hw]; rfl
  refine ⟨d, hd, hw, ?_, hf, ht, ?_, hwi, hn⟩
  · rw [← htl]
    exact hwhole.length_eq
  · rw [← ht0]
    exact hwhole.tb1

/-! ## The invariant -/

/-- A scene that works on the credential has an ATS before it that the listener delivers. -/
def RadioReady (s : App n β) : Prop :=
  ∀ top, s.scenes.head? = some top → holdsCredential top = true → atsIsRadioSupported s.credential.card.piccAts = true

/-- Blank Card, and every change a reader makes, leave an ATS that a load would accept. -/
def KeepsRadio (P : Parts n β) (a : App n β × List Effect) (i : Action n β × Env) : Prop :=
  (a.1.scenes.head? = some .mainMenu → i.1 = .mainMenu .blankCard →
    atsIsRadioSupported (P.initBlank a.1.credential).card.piccAts = true) ∧
  ∀ card dirty, i.1 = .reader card dirty → a.1.scenes.head? = some .emulate → a.1.emulating = true →
    atsIsRadioSupported card.piccAts = true

def Started (es : List Effect) : Prop := ∀ ats, Effect.listening ats ∈ es → atsIsRadioSupported ats = true

structure RadioInv (a : App n β × List Effect) : Prop where
  stacked : Stacked a.1.scenes
  ready : RadioReady a.1
  started : Started a.2

section Steps

variable {P : Parts n β} {e : Env} {s : App n β} {log : List Effect}

theorem blank_card_credential (ht : s.scenes.head? = some .mainMenu) :
    (step P s (.mainMenu .blankCard, e)).1.credential = P.initBlank s.credential := by
  simp only [step, handleEvent, onEvent, ht, mainMenuOnEvent, nextScene, Handled.after, switchTo_credential]

theorem reader_step (ht : s.scenes.head? = some .emulate) (he : s.emulating = true) (card : Card β) (dirty : Bool) :
    (step P s (.reader card dirty, e)).1.scenes.head? = some .emulate ∧
      (step P s (.reader card dirty, e)).1.credential = { s.credential with card := card, dirty := dirty } := by
  simp only [step, handleEvent, onEvent, ht, emulateOnEvent, he, if_true, and_self]

/-- A load leaves an ATS it has judged. -/
theorem LoadedFrom.radio {s' : App n β} {path : Path} (h : LoadedFrom P e s s' path) :
    atsIsRadioSupported s'.credential.card.piccAts = true := by
  have hl := h.loaded
  rw [h.credential]
  rcases loadSelectedFile_cases P.sdk P.codec e.load ⟨path, s.store.files⟩
    { s.credential with name := Name.copy n (P.sdk.extractFilename path) } with ⟨hf, _⟩ | ⟨_, _, _, _, _, _, ha, heq⟩
  · rw [hf] at hl
    cases hl
  · rw [heq]
    exact ha.radio

/-- A step on a credential that keeps its origin leaves its ATS alone, unless a reader writes it or Blank Card is chosen. -/
theorem Changes.radio {a : Action n β} {t : App n β} {es : List Effect} (h : Changes P e a s t es)
    (hq : Quiet es) (hs : atsIsRadioSupported s.credential.card.piccAts = true)
    (hk : KeepsRadio P (s, log) (a, e)) : atsIsRadioSupported t.credential.card.piccAts = true := by
  cases h with
  | kept hc _ _ _ =>
    rw [hc]
    exact hs
  | reader card dirty ha ht he hc _ _ =>
    rw [hc]
    exact hk.2 card dirty ha ht he
  | blank ha ht hc _ _ =>
    rw [hc]
    exact hk.1 ht ha
  | cleared _ _ ho _ =>
    have hno := ho (some [])
    rw [hq] at hno
    cases hno
  | opened _ _ _ hl _ => exact hl.radio
  | saved _ c hst _ _ hc _ =>
    rw [hc, Credential.clearDirty, (saveTarget_same hst).1]
    exact hs
  | failed _ c hst _ _ hc _ _ =>
    rw [hc, (saveTarget_same hst).1]
    exact hs
  | discarded _ _ hc _ _ =>
    rw [hc]
    exact hs
  | deleted _ _ hc _ _ _ =>
    rw [hc]
    exact hs

/-- Coming to a scene that works on the credential, with the ATS kept all along. -/
theorem step_ready (log : List Effect) {i : Action n β × Env} (hst : Stacked s.scenes) (h : RadioReady s)
    (hk : KeepsRadio P (s, log) i) :
    RadioReady (step P s i).1 := by
  obtain ⟨a, e⟩ := i
  intro top' ht' hh'
  obtain ⟨t, fs, hch, hl⟩ := step_changes P s (a, e)
  obtain ⟨gs, hes, hgs, _⟩ := hl.effects
  cases (step_moves P s (a, e)).held hst ht' hh' with
  | on top ht hh _ hq =>
    rw [hl.credential]
    rw [hes] at hq
    exact hch.radio (hq.left hgs) (h top ht hh) hk
  | blank ha ht _ _ =>
    simp only at ha
    subst ha
    rw [blank_card_credential ht]
    exact hk.1 ht rfl
  | opened _ _ _ hload => exact hload.radio
  | saved top _ ht hh _ _ hsv =>
    rw [hsv.card]
    exact h top ht hh

/-- Both conditions are needed: what a reader or Blank Card leaves is there behind the step, in the scene that emulates. -/
theorem keepsRadio_of_ready (log : List Effect) {i : Action n β × Env} (h : RadioReady (step P s i).1) :
    KeepsRadio P (s, log) i := by
  obtain ⟨a, e⟩ := i
  refine ⟨fun ht ha => ?_, fun card dirty ha ht he => ?_⟩
  · simp only at ha
    subst ha
    have hnow := h .emulate (blank_card P e ht).1 rfl
    rwa [blank_card_credential ht] at hnow
  · simp only at ha
    subst ha
    obtain ⟨htop, hc⟩ := reader_step (P := P) (e := e) ht he card dirty
    have hnow := h .emulate htop rfl
    rwa [hc] at hnow

theorem step_radio {default : Octets} (hd : PassesAts P default) (a : App n β × List Effect) (i : Action n β × Env)
    (h : RadioInv a) (hk : KeepsRadio P a i) : RadioInv (logged (step P) a i) := by
  obtain ⟨hst, hr, hs⟩ := h
  have hready := step_ready a.2 hst hr hk
  refine ⟨(step_moves P a.1 i).stacked hst, hready, ?_⟩
  intro ats hm
  rcases List.mem_append.mp hm with hm | hm
  · exact hs ats hm
  -- a new start: the scene that emulates is on top, and its credential is ready
  obtain ⟨t, fs, hch, hl⟩ := step_changes P a.1 i
  obtain ⟨gs, hes, _, hlist⟩ := hl.effects
  rw [hes] at hm
  rcases List.mem_append.mp hm with hm | hm
  · exact absurd hm (hch.silent ats)
  · obtain ⟨rfl, htop⟩ := hlist ats hm
    have hnow := hready .emulate htop rfl
    rw [hl.credential] at hnow
    exact hd.of_supported hnow

end Steps

/-! ## Every run -/

theorem radioInv_init (files : Files) (c : Credential n β) : RadioInv (appInit files c, []) := by
  refine ⟨List.isChain_singleton _, ?_, fun ats h => (by cases h)⟩
  intro top ht hh
  obtain rfl : Scene.mainMenu = top := Option.some.inj ht
  cases hh

/-- In exactly the runs in which Blank Card and every change by a reader leave an ATS that a load would accept, every
scene that works on the credential has such an ATS before it; and in these, whatever the listener was started with
is accepted too, and is in its fields as it should be. -/
theorem radio_kept_iff (P : Parts n β) {default : Octets} (hd : PassesAts P default) (files : Files)
    (c : Credential n β) (is : List (Action n β × Env)) :
    ((∀ js, js <+: is → RadioReady (run (step P) (appInit files c) js).1) ↔
      Along (logged (step P)) (KeepsRadio P) (appInit files c, []) is) ∧
    (Along (logged (step P)) (KeepsRadio P) (appInit files c, []) is →
      ∀ ats, Effect.listening ats ∈ (run (step P) (appInit files c) is).2 →
        atsIsRadioSupported ats = true ∧ (ats ≠ [] → ∃ d, Delivered ats d)) := by
  have h0 : RadioInv (appInit files c, []) := radioInv_init files c
  refine ⟨?_, fun ha ats hm => ?_⟩
  · exact states_iff_along RadioInv (fun a => RadioReady a.1) (fun _ h => h.ready) (step_radio hd)
      (fun a _ _ hr => keepsRadio_of_ready a.2 hr) is _ h0
  · have hats := (foldl_inv RadioInv (step_radio hd) is _ h0 ha).started ats hm
    exact ⟨hats, fun hne => delivered_of_supported hne hats⟩

/-- The small application, whose anticollision has a default ATS. -/
def radioParts : Parts 8 Unit :=
  { cardParts with
    anticollisionAts := fun c => if c.card.piccAts = [] then [0x05, 0x65, 0x81, 0x02, 0x80] else c.card.piccAts }

theorem radioParts_passesAts : PassesAts radioParts [0x05, 0x65, 0x81, 0x02, 0x80] := by
  refine ⟨fun c h => if_neg h, fun c h => if_pos h, ?_⟩
  decide

/-- A reader gives a loaded card an ATS with other historical bytes, and it is emulated again. -/
theorem radio_kept_plain :
    let file : Path := fileIn appDataPathPrefix ['a']
    let stored := (packCard textMark (cardWith []).card).2
    let ats : Octets := [0x05, 0x65, 0x91, 0x02, 0x81]
    let s : App 8 Unit := appInit (Function.update (fun _ => none) file (some stored)) blankCredential
    let is : List (Action 8 Unit) := [.mainMenu .saved, .fileChosen file, .savedMenu .emulate,
      .reader (cardWith ats).card true, .back, .back]
    Effect.listening ats ∈ (run (step radioParts) s (is.map (·, workingEnv))).2 ∧ ∃ d, Delivered ats d := by
  intro file stored ats s is
  have hother : ∀ (a : App 8 Unit × List Effect) (x : Action 8 Unit) (e : Env), x ≠ .mainMenu .blankCard →
      (∀ card dirty, x ≠ .reader card dirty) → KeepsRadio radioParts a (x, e) := fun a x e hb hr =>
    ⟨fun _ h => absurd h hb, fun card dirty h => absurd h (hr card dirty)⟩
  have hm : Effect.listening ats ∈ (run (step radioParts) s (is.map (·, workingEnv))).2 := by decide
  have ha : Along (logged (step radioParts)) (KeepsRadio radioParts) (s, []) (is.map (·, workingEnv)) := by
    refine ⟨?_, ?_, ?_, ?_, ?_, ?_, trivial⟩
    · exact hother _ _ _ (by simp) (by simp)
    · exact hother _ _ _ (by simp) (by simp)
    · exact hother _ _ _ (by simp) (by simp)
    · refine ⟨fun _ h => (by cases h), fun card dirty h _ _ => ?_⟩
      cases h
      decide
    · exact hother _ _ _ (by simp) (by simp)
    · exact hother _ _ _ (by simp) (by simp)
  exact ⟨hm, ((radio_kept_iff radioParts radioParts_passesAts _ _ _).2 ha ats hm).2 (by decide)⟩

/-! ## The run that goes wrong -/

/-- A reader turns the ATS of a card into one that offers 848 kbit/s; after Back twice, the listener is started with it,
though the file would have been refused. -/
theorem fast_ats_reentered :
    let file : Path := fileIn appDataPathPrefix ['a']
    let stored := (packCard textMark (cardWith []).card).2
    let fast : Octets := [0x06, 0x75, 0x77, 0x81, 0x02, 0x80]
    let s : App 8 Unit := appInit (Function.update (fun _ => none) file (some stored)) blankCredential
    let is : List (Action 8 Unit) := [.mainMenu .saved, .fileChosen file, .savedMenu .emulate,
      .reader (cardWith fast).card true, .back, .back]
    let a := run (step radioParts) s (is.map (·, workingEnv))
    PassesAts radioParts [0x05, 0x65, 0x81, 0x02, 0x80] ∧
    a.1.scenes.head? = some .emulate ∧ a.1.emulating = true ∧
    a.2 = [.loaded file, .listening [0x05, 0x65, 0x81, 0x02, 0x80], .listening fast] ∧
    atsIsRadioSupported fast = false :=
  ⟨radioParts_passesAts, by decide, by decide, by decide, by decide⟩

end DfcFlipper.Scenes
