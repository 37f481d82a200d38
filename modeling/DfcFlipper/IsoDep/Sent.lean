/-
  DfcFlipper.IsoDep.Sent — the I-blocks among what the listener transmits.

  `iBlocks` picks them out of the effects. Only two branches add any: a replay sends the
  cached frame, the next block of a response the block at its offset; R-blocks and the
  answer to a PPS are never I-blocks. An answered APDU sends exactly its first block.

  `lastSent_run`: a response was sent in this activation exactly when
  `iso_dep_last_response_valid` says so, and the last I-block of it is the cached frame.
-/

import DfcFlipper.IsoDep.Invariant

namespace DfcFlipper.IsoDep

open DfcFlipper.Lib.Bytes DfcFlipper.Lib.Run

variable {L : Limits} {σ : Type} {E : Engine L σ}

/-! ## Frames on the air -/

def Effect.iBlock? : Effect → Option Octets
  | .tx frame => if isIPcb (frame.headD 0) then some frame else none
  | _ => none

def iBlocks (out : List Effect) : List Octets := out.filterMap Effect.iBlock?

@[simp] theorem iBlocks_nil : iBlocks [] = [] := rfl

def Effect.frame? : Effect → Option Octets
  | .tx frame => some frame
  | _ => none

def framesSent (out : List Effect) : List Octets := out.filterMap Effect.frame?

theorem framesSent_append (a b : List Effect) : framesSent (a ++ b) = framesSent a ++ framesSent b :=
  List.filterMap_append ..

theorem framesSent_engineSide {out : List Effect} (h : ∀ e ∈ out, e.engineSide) : framesSent out = [] := by
  rw [framesSent, List.filterMap_eq_nil_iff]
  intro e he
  have hs := h e he
  cases e <;> first | rfl | cases hs

theorem iBlocks_append (a b : List Effect) : iBlocks (a ++ b) = iBlocks a ++ iBlocks b := List.filterMap_append ..

theorem iBlocks_tx {frame : Octets} (h : isIPcb (frame.headD 0)) : iBlocks [.tx frame] = [frame] := by
  simp only [iBlocks, List.filterMap_cons, Effect.iBlock?, if_pos h, List.filterMap_nil]

theorem isIPcb_cid : ∀ pcb : UInt8, isIPcb (pcb ||| cidMask) ↔ isIPcb pcb :=
  forall_octet (by decide +kernel)

theorem iBlocks_sendFrame {frame : Octets} (h : ¬isIPcb (frame.headD 0)) : iBlocks (sendFrame L frame) = [] := by
  unfold sendFrame
  split
  · simp only [iBlocks, List.filterMap_cons, Effect.iBlock?, if_neg h, List.filterMap_nil]
  · rfl

/-- A control block whose PCB is none of an I-block. -/
theorem iBlocks_sendControl {pcb : UInt8} (h : ¬isIPcb pcb) (u : Bool) (c : UInt8) :
    iBlocks (sendControl L pcb u c) = [] := by
  cases u with
  | false => exact iBlocks_sendFrame h
  | true => exact iBlocks_sendFrame (mt (isIPcb_cid pcb).mp h)

theorem ack_not_isIPcb : ∀ n : Bool, ¬isIPcb (0xA2 ||| n.toUInt8) ∧ ¬isIPcb (0xB2 ||| n.toUInt8) := by decide

theorem ack_pcb_not_isIPcb : ∀ pcb : UInt8, ¬isIPcb (0xA2 ||| (pcb &&& 1)) :=
  forall_octet (by decide +kernel)

theorem pps_not_isIPcb : ∀ pcb : UInt8, pcb &&& 0xF0 = 0xD0 → ¬isIPcb pcb :=
  forall_octet (by decide +kernel)

theorem deselect_not_isIPcb : ∀ pcb : UInt8, pcb &&& ~~~cidMask = 0xC2 → ¬isIPcb pcb :=
  forall_octet (by decide +kernel)

theorem iBlocks_engineSide {out : List Effect} (h : ∀ e ∈ out, e.engineSide) : iBlocks out = [] := by
  rw [iBlocks, List.filterMap_eq_nil_iff]
  intro e he
  have hs := h e he
  cases e <;> first | rfl | cases hs

/-! ## Replays and blocks of a response -/

/-- The head of a block of a response whose PCB is that of an I-block. -/
theorem blockAt_isIPcb {resp : Octets} (h : isIPcb (resp.headD 0)) (number : Bool) (off : Nat) :
    isIPcb ((blockAt resp number off).headD 0) :=
  headerByte_isIPcb _ number (moreAt resp off) h

/-- A valid cached frame is an I-block and fits a radio buffer. -/
theorem sendFrame_cached {s : Listener L σ} (h : Inv s) (hv : s.lastResponseValid = true) :
    sendFrame L (cachedFrame s) = [.tx (cachedFrame s)] ∧ isIPcb ((cachedFrame s).headD 0) := by
  obtain ⟨hi, off, hs, hc, _⟩ := h.cached hv
  rw [hc]
  exact ⟨sendFrame_blockAt s.txBuffer s.piccBlock hs, blockAt_isIPcb hi _ _⟩

theorem iBlocks_replay {s : Listener L σ} (h : Inv s) (hv : s.lastResponseValid = true) :
    iBlocks (sendFrame L (cachedFrame s)) = [cachedFrame s] := by
  obtain ⟨hs, hi⟩ := sendFrame_cached h hv
  rw [hs, iBlocks_tx hi]

theorem iBlocks_nextBlock {s : Listener L σ} (h : Inv s) (ho : s.responseOffset ≠ 0) :
    iBlocks (sendNextIResponse { s with piccBlock := !s.piccBlock }).2 =
      [blockAt s.txBuffer.data (!s.piccBlock) s.responseOffset] := by
  rw [(nextSent_eq h ho).2]
  exact iBlocks_tx (blockAt_isIPcb (h.cached (h.busy ho).1).1 _ _)

theorem iBlocks_answered {s s' : Listener L σ} {header apdu : Octets} {out : List Effect}
    (h : Answered E s header apdu s' out) (hi : isIPcb (s'.txBuffer.data.headD 0)) :
    iBlocks out = [blockAt s'.txBuffer.data s.expectedPcdBlock header.length] := by
  have hb := iBlocks_tx (blockAt_isIPcb hi s.expectedPcdBlock header.length)
  have he := iBlocks_engineSide (handleApdu_engineSide (E := E) s.engine header.length apdu
    (s.txBuffer.reset.appendBytes header))
  rw [h.out_eq]
  show iBlocks (_ ++ [_, _]) = _
  rw [iBlocks_append, he]
  exact hb

/-! ## The end of an activation -/

def Effect.resets : Effect → Bool
  | .resetActivation => true
  | _ => false

def resets (out : List Effect) : Bool := out.any Effect.resets

theorem resets_append (a b : List Effect) : resets (a ++ b) = (resets a || resets b) := List.any_append

theorem resets_cons {e : Effect} {out : List Effect} (he : e.resets = false) : resets (e :: out) = resets out := by
  simp [resets, he]

theorem resets_sendFrame (frame : Octets) : resets (sendFrame L frame) = false := by
  unfold sendFrame; split <;> rfl

theorem resets_sendControl (pcb : UInt8) (u : Bool) (c : UInt8) : resets (sendControl L pcb u c) = false :=
  resets_sendFrame _

theorem resets_sendNextIResponse (s : Listener L σ) : resets (sendNextIResponse s).2 = false := by
  unfold sendNextIResponse
  simp only
  split
  · rfl
  · exact resets_sendFrame _

theorem resets_dispatch {s s' : Listener L σ} {header apdu : Octets} {out : List Effect}
    (hd : dispatch E s header apdu = (s', out)) : resets out = false := by
  have heng : ∀ st tx, resets (handleApdu E st header.length apdu tx).effects = false := by
    intro st tx
    simp only [resets, List.any_eq_false]
    intro e he
    have hs := handleApdu_engineSide (E := E) _ _ _ _ e he
    cases e <;> first | exact Bool.false_ne_true | cases hs
  rw [← (Prod.mk.inj hd).2]
  simp only [sendIResponse]
  rw [resets_append, resets_cons rfl, heng, Bool.false_or]
  split
  · rfl
  · exact resets_sendNextIResponse _

/-! ## The last I-block of an activation -/

def sentAfter (m : Option Octets) (e : Effect) : Option Octets := if e.resets then none else e.iBlock?.or m

def lastSent (out : List Effect) : Option Octets := out.foldl sentAfter none

theorem foldl_sentAfter {out : List Effect} (h : resets out = false) (m : Option Octets) :
    out.foldl sentAfter m = (iBlocks out).getLast?.or m := by
  induction out generalizing m with
  | nil => rfl
  | cons e out ih =>
    rw [resets, List.any_cons, Bool.or_eq_false_iff] at h
    rw [List.foldl_cons, ih h.2, sentAfter, h.1, if_neg Bool.false_ne_true]
    cases he : e.iBlock? with
    | none =>
      rw [show iBlocks (e :: out) = iBlocks out from List.filterMap_cons_none he]
      rfl
    | some f =>
      rw [show iBlocks (e :: out) = f :: iBlocks out from List.filterMap_cons_some he, List.getLast?_cons]
      cases (iBlocks out).getLast? <;> rfl

theorem lastSent_append {log out : List Effect} (h : resets out = false) :
    lastSent (log ++ out) = (iBlocks out).getLast?.or (lastSent log) := by
  rw [lastSent, List.foldl_append, foldl_sentAfter h]
  rfl

structure Remembered (a : Listener L σ × List Effect) : Prop where
  inv : Inv a.1
  last : lastSent a.2 = if a.1.lastResponseValid then some (cachedFrame a.1) else none

theorem cachedFrame_nextSent {s : Listener L σ} (h : Inv s) (ho : s.responseOffset ≠ 0) :
    cachedFrame (nextSent s) = blockAt s.txBuffer.data (!s.piccBlock) s.responseOffset := by
  have hs := h.sendable ho
  obtain ⟨_, ht⟩ := nextFrame_eq (!s.piccBlock) s.responseOffset h.frame_size hs.whole
  rw [← length_blockAt (!s.piccBlock) s.responseOffset hs.whole] at ht
  rw [(nextSent_eq h ho).1]
  exact ht

/-- Nothing is sent that is an I-block, and the cached frame stays. -/
theorem Remembered.silent {s s' : Listener L σ} {log out : List Effect} (h : Remembered (s, log)) (hi : Inv s')
    (hr : resets out = false) (ho : iBlocks out = []) (hv : s'.lastResponseValid = s.lastResponseValid)
    (hc : cachedFrame s' = cachedFrame s) : Remembered (s', log ++ out) := by
  have hl : lastSent log = if s.lastResponseValid then some (cachedFrame s) else none := h.last
  refine ⟨hi, ?_⟩
  rw [lastSent_append hr, ho, List.getLast?_nil, Option.none_or, hl, hv, hc]

/-- The cached frame is sent. -/
theorem remembered_sent {s' : Listener L σ} {log out : List Effect} (hi : Inv s') (hr : resets out = false)
    (ho : iBlocks out = [cachedFrame s']) (hv : s'.lastResponseValid = true) : Remembered (s', log ++ out) := by
  refine ⟨hi, ?_⟩
  rw [lastSent_append hr, ho, if_pos hv]
  rfl

theorem remembered_rx (hk : E.KeepsPrefix) {s s' : Listener L σ} {rx : Octets} {log out : List Effect}
    (h : Remembered (s, log)) (hrx : Rx E s rx s' out) : Remembered (s', log ++ out) := by
  have hi : Inv s := h.inv
  have hi' : Inv s' := inv_rx hk hi hrx
  cases hrx with
  | ignored => exact h.silent hi' rfl rfl rfl rfl
  | pps pcb hp => exact h.silent hi' (resets_sendControl _ _ _) (iBlocks_sendControl (pps_not_isIPcb pcb hp) _ _) rfl rfl
  | replayR _ _ hv => exact remembered_sent hi' (resets_sendFrame _) (iBlocks_replay hi hv) hv
  | nextBlock _ _ _ ho =>
    refine remembered_sent hi' (resets_sendNextIResponse _) ?_ (by rw [(nextSent_eq hi ho).1])
    rw [iBlocks_nextBlock hi ho, cachedFrame_nextSent hi ho]
  | ackR => exact h.silent hi' (resets_sendControl _ _ _) (iBlocks_sendControl (ack_not_isIPcb _).1 _ _) rfl rfl
  | deselect =>
    refine ⟨hi', ?_⟩
    rw [lastSent, ← List.append_assoc, List.foldl_append]
    rfl
  | replayI _ _ _ hv => exact remembered_sent hi' (resets_sendFrame _) (iBlocks_replay hi hv) hv
  | ackI => exact h.silent hi' (resets_sendControl _ _ _) (iBlocks_sendControl (ack_pcb_not_isIPcb _) _ _) rfl rfl
  | nakI =>
    exact h.silent hi' (resets_sendControl _ _ _) (iBlocks_sendControl (ack_not_isIPcb _).2 _ _) (by simp) (by simp [cachedFrame])
  | refused =>
    exact h.silent hi' (resets_sendControl _ _ _) (iBlocks_sendControl (ack_not_isIPcb _).2 _ _) (by simp) (by simp [cachedFrame])
  | overflow =>
    refine h.silent hi' (resets_sendControl _ _ _) (iBlocks_sendControl (ack_not_isIPcb _).2 _ _) ?_ ?_
    · simp [dropChain]
    · simp [dropChain, cachedFrame]
  | chained =>
    refine h.silent hi' ((resets_cons rfl).trans (resets_sendControl _ _ _))
      (iBlocks_sendControl (ack_pcb_not_isIPcb _) _ _) ?_ ?_
    · simp [toggleExpected, appendInf]
    · simp [toggleExpected, appendInf, cachedFrame]
  | @lastBlock _ u c he ho _ hfit _ _ _ _ hd =>
    obtain ⟨hans, _⟩ := answered_lastBlock hk hi he ho hfit hd
    have hb := iBlocks_answered hans (hi'.cached hans.valid).1
    refine remembered_sent hi' ((resets_cons rfl).trans (resets_dispatch hd)) ?_ hans.valid
    rw [cachedFrame, hans.frame]
    exact hb
  | @single _ u c he _ _ _ hc _ _ hd =>
    obtain ⟨hans, _⟩ := answered_single hk hi he hc hd
    refine remembered_sent hi' (resets_dispatch hd) ?_ hans.valid
    rw [cachedFrame, hans.frame]
    exact iBlocks_answered hans (hi'.cached hans.valid).1

theorem remembered_callback (hk : E.KeepsPrefix) (a : Listener L σ × List Effect) (ev : Event) (h : Remembered a) :
    Remembered (logged (workerListenerCallback E) a ev) := by
  have hlost : Remembered ((activationLost E a.1).1, a.2 ++ (activationLost E a.1).2) := by
    refine ⟨inv_activationLost h.inv, ?_⟩
    rw [lastSent, List.foldl_append]
    rfl
  cases ev with
  | receivedData rx => exact remembered_rx hk h (receivedData_rx a.1 rx)
  | halted => exact hlost
  | fieldOff => exact hlost

theorem lastSent_run (hk : E.KeepsPrefix) (st : σ) (evs : List Event) :
    Remembered (run (workerListenerCallback E) (listenerInit L st) evs) :=
  run_outputs_inv Remembered (remembered_callback hk) evs (listenerInit L st, []) ⟨inv_init L st, rfl⟩

end DfcFlipper.IsoDep
