/-
  DfcFlipper.IsoDep.Stale — which I-blocks answer the command that was answered last.

  The trace of a run fixes, at each point, the response that stands: the one answered
  last, none once an I-block of a later command was accepted (`standing`). A trace is
  fresh when every I-block in it is a block of the response that stands (`FreshFrom`).

  The listener keeps its cached frame until the next response. The I-block branch does not
  replay it while a command is open (`!iso_dep_command_len`); the R-block branch replays it
  then too, and after an oversized chain was dropped both do (`stale_replay`). A run is
  fresh exactly when no frame of it is replayed while nothing stands (`fresh_iff`).
-/

import DfcFlipper.IsoDep.Response

namespace DfcFlipper.IsoDep

open DfcFlipper.Lib.Bytes DfcFlipper.Lib.Run

variable {L : Limits} {σ : Type} {E : Engine L σ}

/-! ## The response that stands -/

def answerAfter (m : Option Octets) : Effect → Option Octets
  | .answer resp => some resp
  | .append _ => none
  | _ => m

/-- The response answered last, unless an I-block of a later command was accepted since. -/
def standing (m : Option Octets) (out : List Effect) : Option Octets := out.foldl answerAfter m

def Carries (frame resp : Octets) : Prop := ∃ number off, Sendable resp off ∧ frame = blockAt resp number off

/-- Every I-block is a block of the response that stands when it is sent. -/
def FreshFrom : Option Octets → List Effect → Prop
  | _, [] => True
  | m, e :: out =>
    (∀ frame, e.iBlock? = some frame → ∃ resp, m = some resp ∧ Carries frame resp) ∧ FreshFrom (answerAfter m e) out

theorem freshFrom_cons {m : Option Octets} {e : Effect} {out : List Effect} : FreshFrom m (e :: out) ↔
    (∀ frame, e.iBlock? = some frame → ∃ resp, m = some resp ∧ Carries frame resp) ∧ FreshFrom (answerAfter m e) out :=
  Iff.rfl

theorem standing_append (m : Option Octets) (a b : List Effect) :
    standing m (a ++ b) = standing (standing m a) b := List.foldl_append ..

theorem freshFrom_append (a b : List Effect) (m : Option Octets) :
    FreshFrom m (a ++ b) ↔ FreshFrom m a ∧ FreshFrom (standing m a) b := by
  induction a generalizing m with
  | nil => simp [FreshFrom, standing]
  | cons e a ih => simp only [List.cons_append, FreshFrom, ih, and_assoc]; rfl

def Effect.inert (e : Effect) : Prop := e.iBlock? = none ∧ ∀ m, answerAfter m e = m

theorem fresh_inert {out : List Effect} (h : ∀ e ∈ out, e.inert) (m : Option Octets) :
    FreshFrom m out ∧ standing m out = m := by
  induction out with
  | nil => exact ⟨trivial, rfl⟩
  | cons e out ih =>
    obtain ⟨he, hm⟩ := h e (List.mem_cons_self ..)
    obtain ⟨hf, hs⟩ := ih fun e he => h e (List.mem_cons_of_mem _ he)
    refine ⟨freshFrom_cons.mpr ⟨fun frame h => ?_, by rw [hm]; exact hf⟩, ?_⟩
    · rw [he] at h; cases h
    show standing (answerAfter m e) out = m
    rw [hm, hs]

theorem inert_of_engineSide (e : Effect) (h : e.engineSide) : e.inert := by
  cases e <;> first | exact ⟨rfl, fun _ => rfl⟩ | cases h

theorem inert_sendFrame {frame : Octets} (h : ¬isIPcb (frame.headD 0)) : ∀ e ∈ sendFrame L frame, e.inert := by
  intro e he
  unfold sendFrame at he
  split at he
  · obtain rfl := List.mem_singleton.mp he
    exact ⟨by simp only [Effect.iBlock?, if_neg h], fun _ => rfl⟩
  · cases he

theorem inert_sendControl {pcb : UInt8} (h : ¬isIPcb pcb) (u : Bool) (c : UInt8) :
    ∀ e ∈ sendControl L pcb u c, e.inert := by
  cases u with
  | false => exact inert_sendFrame h
  | true => exact inert_sendFrame (mt (isIPcb_cid pcb).mp h)

/-- One I-block on its own. -/
theorem freshFrom_tx {frame : Octets} (h : isIPcb (frame.headD 0)) (m : Option Octets) :
    FreshFrom m [.tx frame] ↔ ∃ resp, m = some resp ∧ Carries frame resp := by
  have hb : Effect.iBlock? (.tx frame) = some frame := if_pos h
  refine ⟨fun hf => hf.1 frame hb, fun hr => freshFrom_cons.mpr ⟨fun f hf => ?_, trivial⟩⟩
  rw [hb] at hf
  exact Option.some.inj hf ▸ hr

/-- A mark opens no I-block. -/
theorem freshFrom_mark {m : Option Octets} {e : Effect} {out : List Effect} (he : e.iBlock? = none)
    (h : FreshFrom (answerAfter m e) out) : FreshFrom m (e :: out) :=
  freshFrom_cons.mpr ⟨fun _ hb => absurd (he ▸ hb) (by simp), h⟩

/-! ## One frame -/

/-- The response that stands is the one in the buffer, as far as the state goes. -/
structure Stands (s : Listener L σ) (m : Option Octets) : Prop where
  sent : ∀ resp, m = some resp → s.lastResponseValid = true → s.txBuffer.data = resp
  pending : s.responseOffset ≠ 0 → m = some s.txBuffer.data

/-- The frame takes one of the two branches that send the cached frame again. -/
inductive Replayed (s : Listener L σ) (rx : Octets) : Prop
  | rBlock {pcb : UInt8} {u : Bool} {c : UInt8} : RBlock rx pcb u c → cidMismatch s u c = false →
      s.lastResponseValid = true → blockNumber pcb = s.piccBlock → Replayed s rx
  | iBlock {pcb : UInt8} {u : Bool} {c : UInt8} : IBlock rx pcb u c → cidMismatch s u c = false →
      blockNumber pcb ≠ s.expectedPcdBlock → s.lastResponseValid = true → s.commandLen = 0 → Replayed s rx

theorem carries_cached {s : Listener L σ} (h : Inv s) (hv : s.lastResponseValid = true) :
    Carries (cachedFrame s) s.txBuffer.data := by
  obtain ⟨_, off, hs, hc, _⟩ := h.cached hv
  exact ⟨s.piccBlock, off, hs, hc⟩

theorem fresh_answered {s s' : Listener L σ} {header apdu : Octets} {out : List Effect} (m : Option Octets)
    (h : Answered E s header apdu s' out) (hi : isIPcb (s'.txBuffer.data.headD 0)) :
    FreshFrom m out ∧ standing m out = some s'.txBuffer.data := by
  let eff := (handleApdu E s.engine header.length apdu (s.txBuffer.reset.appendBytes header)).effects
  have hinert : ∀ e ∈ Effect.dispatch apdu :: eff, e.inert := by
    intro e he
    rcases List.mem_cons.mp he with rfl | he
    · exact ⟨rfl, fun _ => rfl⟩
    · exact inert_of_engineSide e (handleApdu_engineSide _ _ _ _ e he)
  obtain ⟨hf, hs⟩ := fresh_inert hinert m
  have hout : out = (.dispatch apdu :: eff) ++
      [.answer s'.txBuffer.data, .tx (blockAt s'.txBuffer.data s.expectedPcdBlock header.length)] := h.out_eq
  rw [hout, freshFrom_append, standing_append]
  refine ⟨⟨hf, freshFrom_mark rfl ?_⟩, rfl⟩
  exact (freshFrom_tx (blockAt_isIPcb hi _ _) _).mpr ⟨_, rfl, _, _, h.sendable, rfl⟩

theorem stands_some (s : Listener L σ) : Stands s (some s.txBuffer.data) :=
  ⟨fun _ h _ => Option.some.inj h, fun _ => rfl⟩

/-- A frame that is not replayed while nothing stands sends only blocks of what stands. -/
theorem fresh_rx (hk : E.KeepsPrefix) {s s' : Listener L σ} {rx : Octets} {out : List Effect} {m : Option Octets}
    (h : Inv s) (hm : Stands s m) (hr : Rx E s rx s' out) (hn : m = none → ¬Replayed s rx) :
    FreshFrom m out ∧ Stands s' (standing m out) := by
  have hinert : ∀ {s' : Listener L σ} {out : List Effect}, (∀ e ∈ out, e.inert) → Stands s' m →
      FreshFrom m out ∧ Stands s' (standing m out) := by
    intro s' out ho hs
    obtain ⟨hf, hst⟩ := fresh_inert ho m
    exact ⟨hf, by rw [hst]; exact hs⟩
  have hreplay : s.lastResponseValid = true → Replayed s rx →
      FreshFrom m (sendFrame L (cachedFrame s)) ∧ Stands s (standing m (sendFrame L (cachedFrame s))) := by
    intro hv hrep
    obtain ⟨hs, hi⟩ := sendFrame_cached h hv
    rw [hs]
    refine ⟨(freshFrom_tx hi m).mpr ?_, hm⟩
    cases m with
    | none => exact absurd hrep (hn rfl)
    | some resp => exact ⟨resp, rfl, hm.sent resp rfl hv ▸ carries_cached h hv⟩
  have hbound : ∀ u c, Stands (bindCid s u c) m := fun u c => ⟨by simpa using hm.sent, by simpa using hm.pending⟩
  cases hr with
  | ignored => exact ⟨trivial, hm⟩
  | pps pcb hp => exact hinert (inert_sendControl (pps_not_isIPcb pcb hp) _ _) hm
  | replayR hb ha hv hn => exact hreplay hv (.rBlock hb ha hv hn)
  | nextBlock _ _ _ ho _ =>
    obtain ⟨hs, hout⟩ := nextSent_eq h ho
    rw [hout, hs]
    have hsend := h.sendable ho
    refine ⟨(freshFrom_tx (blockAt_isIPcb (h.cached (h.busy ho).1).1 _ _) m).mpr ?_, ?_⟩
    · exact ⟨_, hm.pending ho, _, _, hsend, rfl⟩
    · exact ⟨fun resp hr _ => hm.sent resp hr (h.busy ho).1, fun _ => hm.pending ho⟩
  | ackR => exact hinert (inert_sendControl (ack_not_isIPcb _).1 _ _) hm
  | @deselect pcb _ _ hh hp =>
    refine hinert ?_ ⟨fun _ _ hv => by simp [endActivation] at hv, fun ho => absurd rfl ho⟩
    intro e he
    rcases List.mem_append.mp he with he | he
    · refine inert_sendFrame ?_ e he
      have hhead : rx.headD 0 = pcb := by
        have := hh.head
        cases rx with
        | nil => cases this
        | cons a r => simpa using this
      rw [hhead]
      exact deselect_not_isIPcb pcb hp
    · obtain rfl := List.mem_singleton.mp he
      exact ⟨rfl, fun _ => rfl⟩
  | replayI hb ha hn hv hc => exact hreplay hv (.iBlock hb ha hn hv hc)
  | ackI => exact hinert (inert_sendControl (ack_pcb_not_isIPcb _) _ _) hm
  | nakI => exact hinert (inert_sendControl (ack_not_isIPcb _).2 _ _) (hbound _ _)
  | refused => exact hinert (inert_sendControl (ack_not_isIPcb _).2 _ _) (hbound _ _)
  | overflow =>
    have hb := hbound ‹Bool› ‹UInt8›
    exact hinert (inert_sendControl (ack_not_isIPcb _).2 _ _) ⟨hb.sent, hb.pending⟩
  | @chained pcb u c _ ho =>
    obtain ⟨hf, hst⟩ := fresh_inert (inert_sendControl (L := L) (ack_pcb_not_isIPcb pcb) u c) none
    refine ⟨freshFrom_mark rfl hf, ?_⟩
    show Stands _ (standing none _)
    rw [hst]
    refine ⟨fun _ h => (by cases h), fun ho' => absurd ?_ ho'⟩
    simpa [toggleExpected, appendInf] using ho
  | @lastBlock _ u c he ho _ hfit _ _ _ _ hd =>
    obtain ⟨hans, hinv⟩ := answered_lastBlock hk h he ho hfit hd
    obtain ⟨hf, hst⟩ := fresh_answered none hans (hinv.cached hans.valid).1
    refine ⟨freshFrom_mark rfl hf, ?_⟩
    show Stands _ (standing none _)
    rw [hst]
    exact stands_some _
  | @single _ u c he _ _ _ hc _ _ hd =>
    obtain ⟨hans, hinv⟩ := answered_single hk h he hc hd
    obtain ⟨hf, hst⟩ := fresh_answered m hans (hinv.cached hans.valid).1
    exact ⟨hf, by rw [hst]; exact stands_some _⟩

/-! ## Replays -/

/-- A replayed frame changes nothing and sends the cached frame. -/
theorem receivedData_replayed {s : Listener L σ} {rx : Octets} (h : Replayed s rx) :
    receivedData E s rx = (s, sendFrame L (cachedFrame s)) := by
  cases h with
  | @rBlock pcb u c hb ha hv hn =>
    have hk : ¬(pcb &&& 0xE6 ≠ 0xA2 ∨ rx.length ≠ headerLen u) := by simp [hb.kind, hb.bare]
    rw [receivedData_rBlock hb, receivedRBlock, if_neg hk, if_neg (by simp [ha]), if_pos ⟨hv, hn⟩]
    rfl
  | @iBlock pcb u c hb ha hn hv hc =>
    have hk : ¬(pcb &&& 0xE2 ≠ 0x02 ∨ pcb &&& nadMask ≠ 0) := by
      have := hb.kind
      simp [isIPcb] at this
      simp [this, hb.noNad]
    rw [receivedData_iBlock hb, receivedIBlock, if_neg hk, if_neg (by simp [ha]), bindCid_eq ha,
      addressedIBlock, if_pos hn, if_pos ⟨hv, hc⟩]
    rfl

theorem Replayed.valid {s : Listener L σ} {rx : Octets} (h : Replayed s rx) : s.lastResponseValid = true := by
  cases h with
  | rBlock _ _ hv _ => exact hv
  | iBlock _ _ _ hv _ => exact hv

/-! ## Runs -/

def NoReplayMidCommand (a : Listener L σ × List Effect) : Event → Prop
  | .receivedData rx => standing none a.2 = none → ¬Replayed a.1 rx
  | _ => True

theorem fresh_callback (hk : E.KeepsPrefix) {a : Listener L σ × List Effect} (h : Inv a.1)
    (hs : Stands a.1 (standing none a.2)) (ev : Event) (hn : NoReplayMidCommand a ev) :
    FreshFrom (standing none a.2) (workerListenerCallback E a.1 ev).2 ∧
      Stands (workerListenerCallback E a.1 ev).1 (standing (standing none a.2) (workerListenerCallback E a.1 ev).2) := by
  have hlost : FreshFrom (standing none a.2) (activationLost E a.1).2 ∧
      Stands (activationLost E a.1).1 (standing (standing none a.2) (activationLost E a.1).2) :=
    ⟨freshFrom_mark rfl (freshFrom_mark rfl trivial),
      fun _ _ hv => by simp [activationLost, endActivation] at hv, fun ho => absurd rfl ho⟩
  cases ev with
  | receivedData rx => exact fresh_rx hk h hs (receivedData_rx a.1 rx) hn
  | halted => exact hlost
  | fieldOff => exact hlost

/-- A replay while nothing stands puts an I-block on the air that is not fresh. -/
theorem stale_callback {a : Listener L σ × List Effect} (h : Inv a.1) {ev : Event} (hn : ¬NoReplayMidCommand a ev) :
    ¬FreshFrom (standing none a.2) (workerListenerCallback E a.1 ev).2 := by
  cases ev with
  | receivedData rx =>
    simp only [NoReplayMidCommand, Classical.not_imp, Classical.not_not] at hn
    obtain ⟨hm, hrep⟩ := hn
    obtain ⟨hsend, hi⟩ := sendFrame_cached h hrep.valid
    show ¬FreshFrom _ (receivedData E a.1 rx).2
    rw [receivedData_replayed hrep, hm, hsend, freshFrom_tx hi]
    rintro ⟨_, h, _⟩
    cases h
  | halted => exact absurd trivial hn
  | fieldOff => exact absurd trivial hn

theorem fresh_run_iff (hk : E.KeepsPrefix) (evs : List Event) :
    ∀ a : Listener L σ × List Effect, Inv a.1 → Stands a.1 (standing none a.2) →
      (FreshFrom (standing none a.2) (run (workerListenerCallback E) a.1 evs).2 ↔
        Along (logged (workerListenerCallback E)) NoReplayMidCommand a evs) := by
  induction evs with
  | nil => intro a _ _; exact Iff.rfl
  | cons ev evs ih =>
    intro a h hs
    rw [run_cons, freshFrom_append]
    by_cases hn : NoReplayMidCommand a ev
    · obtain ⟨hf, hs'⟩ := fresh_callback hk h hs ev hn
      rw [← standing_append] at hs' ⊢
      have hrest := ih (logged (workerListenerCallback E) a ev) (inv_callback hk a.1 ev h) hs'
      exact ⟨fun hr => ⟨hn, hrest.mp hr.2⟩, fun hr => ⟨hf, hrest.mpr hr.2⟩⟩
    · exact ⟨fun hr => absurd hr.1 (stale_callback h hn), fun hr => absurd hr.1 hn⟩

/-- Over any run from the start, every I-block answers the command answered last, with no
    I-block of a later command accepted in between, exactly when no frame is replayed
    while an I-block of a later command has been accepted and not answered. -/
theorem fresh_iff (hk : E.KeepsPrefix) (st : σ) (evs : List Event) :
    FreshFrom none (run (workerListenerCallback E) (listenerInit L st) evs).2 ↔
      Along (logged (workerListenerCallback E)) NoReplayMidCommand (listenerInit L st, []) evs :=
  fresh_run_iff hk evs (listenerInit L st, []) (inv_init L st)
    ⟨fun _ h => (by cases h), fun ho => absurd rfl ho⟩

/-- SelectApplication answered, then a chained command in two blocks: nothing is replayed. -/
theorem fresh_iff_chained :
    FreshFrom none (run (workerListenerCallback piccEngine) (listenerInit smallLimits false)
      [.receivedData [0x02, 0x5A, 0, 0, 0], .receivedData [0x13, 0x5A], .receivedData [0x02, 0, 0, 0]]).2 ↔
      Along (logged (workerListenerCallback piccEngine)) NoReplayMidCommand (listenerInit smallLimits false, [])
        [.receivedData [0x02, 0x5A, 0, 0, 0], .receivedData [0x13, 0x5A], .receivedData [0x02, 0, 0, 0]] :=
  fresh_iff piccEngine_keepsPrefix false _

/-- SelectApplication is answered `00`. The first block of the next command is accepted and
    acknowledged; R(NAK) with the number of the old answer brings that answer once more. -/
theorem stale_replay :
    ¬FreshFrom none (run (workerListenerCallback piccEngine) (listenerInit smallLimits false)
      [.receivedData [0x02, 0x5A, 0, 0, 0], .receivedData [0x13, 0x5A], .receivedData [0xB2]]).2 := by
  have hr : (run (workerListenerCallback piccEngine) (listenerInit smallLimits false)
      [.receivedData [0x02, 0x5A, 0, 0, 0], .receivedData [0x13, 0x5A], .receivedData [0xB2]]).2 =
      [.dispatch [0x5A, 0, 0, 0], .command [0x5A, 0, 0, 0], .answer [0x02, 0x00], .tx [0x02, 0x00]] ++
        [.append [0x5A], .tx [0xA3]] ++ [.tx [0x02, 0x00]] := by decide +kernel
  rw [hr, freshFrom_append]
  rintro ⟨_, hf⟩
  obtain ⟨_, h, _⟩ := (freshFrom_tx (by decide) _).mp hf
  cases h

end DfcFlipper.IsoDep
