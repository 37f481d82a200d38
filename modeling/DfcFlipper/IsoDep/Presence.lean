/-
  DfcFlipper.IsoDep.Presence — R(NAK) while nothing is under way, which is how a reader asks
  whether the card is still there.

  The listener answers it by the numbers: with R(ACK) when it bears the number expected
  next, with the last response when it bears the number of that. So the two numbers have to
  differ whenever no chain is open and no response is unfinished (`InStep`).

  An accepted block of a chain moves the expected number alone. The last block, and every
  reset, bring the two back in step; the branch that drops a chain for its length does
  not, and after an odd number of blocks a presence check is answered with the last
  response (`overflow_out_of_step`). `presence_iff`: nothing else breaks it.
-/

import DfcFlipper.IsoDep.Frames
import DfcFlipper.IsoDep.Sent

namespace DfcFlipper.IsoDep

open DfcFlipper.Lib.Bytes DfcFlipper.Lib.Run

variable {L : Limits} {σ : Type} {E : Engine L σ}

/-! ## The two numbers -/

structure Idle (s : Listener L σ) : Prop where
  closed : s.commandLen = 0
  out : s.responseOffset = 0

def InStep (s : Listener L σ) : Prop := s.expectedPcdBlock = !s.piccBlock

instance (s : Listener L σ) : Decidable (InStep s) := inferInstanceAs (Decidable (_ = _))

/-- A chain overflows only after an even number of its blocks was accepted. -/
def OverflowInStep (a : Listener L σ × List Effect) : Event → Prop
  | .receivedData rx => Overflows a.1 rx → InStep a.1
  | _ => True

/-- A presence check, with the address the activation is bound to. -/
structure Presence (E : Engine L σ) (a : Listener L σ × List Effect) (cid : Option UInt8) : Prop where
  /-- R(NAK) with the expected number: R(ACK) with the other, and nothing else. -/
  acknowledged : workerListenerCallback E a.1 (.receivedData (rFrame true a.1.expectedPcdBlock cid)) =
    (a.1, [.tx (rFrame false (!a.1.expectedPcdBlock) cid)])
  /-- R(NAK) with the number of the last response: that response. -/
  replayed : ∀ frame, lastSent a.2 = some frame →
    workerListenerCallback E a.1 (.receivedData (rFrame true (blockNumber (frame.headD 0)) cid)) = (a.1, [.tx frame])

/-! ## R(NAK) -/

theorem rPcb_or : ∀ nak number : Bool,
    rPcb nak number false = (if nak then 0xB2 else 0xA2) ||| number.toUInt8 ∧
    rPcb nak number true = ((if nak then 0xB2 else 0xA2) ||| number.toUInt8) ||| cidMask := by decide

/-- A control block is the R-block with its number and CID. -/
theorem sendControl_rFrame (nak number : Bool) (cid : Option UInt8) :
    sendControl L ((if nak then 0xB2 else 0xA2) ||| number.toUInt8) cid.isSome (cid.getD 0) =
      [.tx (rFrame nak number cid)] := by
  have hfit := L.prefix_fits
  obtain ⟨h0, h1⟩ := rPcb_or nak number
  cases cid with
  | none => simp [sendControl, sendFrame, rFrame, h0]; omega
  | some c => simp [sendControl, sendFrame, rFrame, h1]; omega

theorem receivedData_nak {s : Listener L σ} (hi : Idle s) {number : Bool} {cid : Option UInt8}
    (ha : cidMismatch s cid.isSome (cid.getD 0) = false) :
    receivedData E s (rFrame true number cid) =
      if s.lastResponseValid = true ∧ number = s.piccBlock then (s, sendFrame L (cachedFrame s))
      else (s, [.tx (rFrame false s.piccBlock cid)]) := by
  have hb := rFrame_rBlock true number cid
  have hk : ¬(rPcb true number cid.isSome &&& 0xE6 ≠ 0xA2 ∨ (rFrame true number cid).length ≠ headerLen cid.isSome) := by
    simp [hb.kind, hb.bare]
  have hnak : rPcb true number cid.isSome &&& 0x10 ≠ 0 := by rw [ne_eq, rPcb_nak]; simp
  have hack := sendControl_rFrame (L := L) false s.piccBlock cid
  have hout : ¬(s.responseOffset ≠ 0 ∧ rPcb true number cid.isSome &&& 0x10 = 0) := fun h => h.1 hi.out
  rw [receivedData_rBlock hb, receivedRBlock, if_neg hk, if_neg (by simp [ha]), rPcb_number, if_neg hout, if_pos hnak]
  split
  · rfl
  · exact congrArg (Prod.mk s) hack

/-- The cached frame bears the listener's number. -/
theorem cachedFrame_number {s : Listener L σ} (h : Inv s) (hv : s.lastResponseValid = true) :
    blockNumber ((cachedFrame s).headD 0) = s.piccBlock := by
  obtain ⟨_, off, _, hc, _⟩ := h.cached hv
  rw [hc]
  exact headerByte_number _ _ _

theorem presence_inStep {a : Listener L σ × List Effect} (h : Remembered a) (hi : Idle a.1) (hs : InStep a.1)
    {cid : Option UInt8} (ha : cidMismatch a.1 cid.isSome (cid.getD 0) = false) : Presence E a cid := by
  refine ⟨?_, fun frame hf => ?_⟩
  · have hne : ¬(a.1.lastResponseValid = true ∧ a.1.expectedPcdBlock = a.1.piccBlock) := by
      rw [hs]
      simp
    refine (receivedData_nak hi ha).trans ?_
    rw [if_neg hne, hs, Bool.not_not]
  · rw [h.last] at hf
    split at hf
    · rename_i hv
      obtain rfl := Option.some.inj hf
      refine (receivedData_nak hi ha).trans ?_
      rw [if_pos ⟨hv, cachedFrame_number h.inv hv⟩, (sendFrame_cached h.inv hv).1]
    · cases hf

/-! ## One event -/

structure Stepped (a : Listener L σ × List Effect) : Prop where
  inv : Inv a.1
  inStep : a.1.commandLen = 0 → InStep a.1

theorem stepped_rx (hk : E.KeepsPrefix) {s s' : Listener L σ} {rx : Octets} {out : List Effect} (hi : Inv s)
    (h : s.commandLen = 0 → InStep s) (hr : Rx E s rx s' out) (ho : Overflows s rx → InStep s)
    (hc : s'.commandLen = 0) : InStep s' := by
  cases hr with
  | ignored => exact h hc
  | pps => exact h hc
  | replayR => exact h hc
  | nextBlock => simp [InStep, nextSent]
  | ackR => exact h hc
  | deselect => rfl
  | replayI => exact h hc
  | ackI => exact h hc
  | nakI => simpa [InStep] using h (by simpa using hc)
  | refused => simpa [InStep] using h (by simpa using hc)
  | overflow he hoff hl hm hbig => simpa [InStep, dropChain] using ho (.block he hoff hl hm hbig)
  | chained _ _ hl =>
    simp only [toggleExpected, appendInf, bindCid_commandLen, List.length_drop] at hc
    omega
  | @lastBlock _ u c he hoff _ hfit _ _ _ _ hd =>
    obtain ⟨hans, _⟩ := answered_lastBlock hk hi he hoff hfit hd
    rw [InStep, hans.expected, hans.picc]
  | @single _ u c he _ _ _ hopen _ _ hd =>
    obtain ⟨hans, _⟩ := answered_single hk hi he hopen hd
    rw [InStep, hans.expected, hans.picc]

theorem stepped_callback (hk : E.KeepsPrefix) (a : Listener L σ × List Effect) (ev : Event) (h : Stepped a)
    (ho : OverflowInStep a ev) : Stepped (logged (workerListenerCallback E) a ev) := by
  refine ⟨inv_callback hk a.1 ev h.inv, ?_⟩
  cases ev with
  | receivedData rx => exact stepped_rx hk h.inv h.inStep (receivedData_rx a.1 rx) ho
  | halted => exact fun _ => rfl
  | fieldOff => exact fun _ => rfl

/-- An overflow leaves the listener idle, with the numbers as they were. -/
theorem overflows_idle {s : Listener L σ} {rx : Octets} (h : Overflows s rx) :
    Idle (receivedData E s rx).1 ∧ (InStep (receivedData E s rx).1 → InStep s) := by
  cases h with
  | block he ho hl hm hbig =>
    rw [receivedData_overflow he ho hl hbig hm]
    exact ⟨⟨rfl, by simpa [dropChain] using ho⟩, fun hs => by simpa [InStep, dropChain] using hs⟩

theorem overflowInStep_of_idle {a : Listener L σ × List Effect} {ev : Event}
    (h : Idle (logged (workerListenerCallback E) a ev).1 → InStep (logged (workerListenerCallback E) a ev).1) :
    OverflowInStep a ev := by
  cases ev with
  | receivedData rx =>
    intro hov
    obtain ⟨hidle, hback⟩ := overflows_idle (E := E) hov
    exact hback (h hidle)
  | halted => trivial
  | fieldOff => trivial

/-! ## Every run -/

/-- In exactly the runs in which chains overflow in step the numbers are in step whenever the
    listener is idle; and then presence checks are harmless. -/
theorem presence_iff (hk : E.KeepsPrefix) (st : σ) (evs : List Event) :
    ((∀ es, es <+: evs → Idle (run (workerListenerCallback E) (listenerInit L st) es).1 →
        InStep (run (workerListenerCallback E) (listenerInit L st) es).1) ↔
      Along (logged (workerListenerCallback E)) OverflowInStep (listenerInit L st, []) evs) ∧
    (Along (logged (workerListenerCallback E)) OverflowInStep (listenerInit L st, []) evs →
      let a := run (workerListenerCallback E) (listenerInit L st) evs
      Idle a.1 → ∀ cid, cidMismatch a.1 cid.isSome (cid.getD 0) = false → Presence E a cid) := by
  have h0 : Stepped ((listenerInit L st, []) : Listener L σ × List Effect) := ⟨inv_init L st, fun _ => rfl⟩
  refine ⟨?_, fun h => ?_⟩
  · exact states_iff_along Stepped (fun a => Idle a.1 → InStep a.1) (fun _ hs hi => hs.inStep hi.closed)
      (stepped_callback hk) (fun _ _ _ h => overflowInStep_of_idle h) evs _ h0
  · intro a hi cid ha
    have hs := foldl_inv Stepped (stepped_callback hk) evs _ h0 h
    exact presence_inStep (lastSent_run hk st evs) hi (hs.inStep hi.closed) ha

/-- SelectApplication in two blocks: answered, and the numbers in step. -/
theorem presence_iff_select :
    let evs : List Event := [.receivedData [0x12, 0x5A], .receivedData [0x03, 0, 0, 0]]
    ((∀ es, es <+: evs → Idle (run (workerListenerCallback piccEngine) (listenerInit smallLimits false) es).1 →
        InStep (run (workerListenerCallback piccEngine) (listenerInit smallLimits false) es).1) ↔
      Along (logged (workerListenerCallback piccEngine)) OverflowInStep (listenerInit smallLimits false, []) evs) ∧
    (Along (logged (workerListenerCallback piccEngine)) OverflowInStep (listenerInit smallLimits false, []) evs →
      let a := run (workerListenerCallback piccEngine) (listenerInit smallLimits false) evs
      Idle a.1 → ∀ cid, cidMismatch a.1 cid.isSome (cid.getD 0) = false → Presence piccEngine a cid) :=
  presence_iff piccEngine_keepsPrefix false _

/-- SelectApplication is answered `03 00`. A chain then overflows in its second block. The presence
    check with the number expected next is answered with the old response. -/
theorem overflow_out_of_step :
    let evs : List Event := [.receivedData [0x02, 0x5A, 0, 0, 0], .receivedData [0x03, 0x5A, 0, 0, 0],
      .receivedData (0x12 :: List.replicate 100 0xEE), .receivedData (0x13 :: List.replicate 100 0xEE)]
    let a := run (workerListenerCallback piccEngine) (listenerInit smallLimits false) evs
    Idle a.1 ∧ ¬InStep a.1 ∧ a.1.expectedPcdBlock = true ∧
      (workerListenerCallback piccEngine a.1 (.receivedData (rFrame true true none))).2 = [.tx [0x03, 0x00]] := by
  intro evs a
  refine ⟨⟨?_, ?_⟩, ?_, ?_, ?_⟩
  · decide +kernel
  · decide +kernel
  · decide +kernel
  · decide +kernel
  · decide +kernel

end DfcFlipper.IsoDep
