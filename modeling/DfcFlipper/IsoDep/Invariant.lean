/-
  DfcFlipper.IsoDep.Invariant — what holds of the listener in every reachable state.

  `Sized` holds for any engine: the arrays keep their sizes and the command stays inside
  its array. `Inv` holds for an engine that keeps the prefix:
  - a cached frame is the block the response buffer holds at some offset, under the
    listener's own number, and the offset to go on from is the one after it;
  - while a response is unfinished no command is open and the expected number is the
    complement of the listener's own.
-/

import DfcFlipper.IsoDep.Step

namespace DfcFlipper.IsoDep

open DfcFlipper.Lib.Bytes DfcFlipper.Lib.Run

variable {L : Limits} {σ : Type} {E : Engine L σ}

def ListenerReachable (E : Engine L σ) (st : σ) : Listener L σ → Prop :=
  Reachable (workerListenerCallback E) (listenerInit L st)

/-! ## Sizes -/

structure Sized (s : Listener L σ) : Prop where
  frame_size : s.lastFrame.length = isoDepFrameMax
  command_size : s.command.length = L.workerMaxBufferSize
  command_le : s.commandLen ≤ L.workerMaxBufferSize

theorem sized_init (L : Limits) (st : σ) : Sized (listenerInit L st) :=
  ⟨by simp [listenerInit], by simp [listenerInit], Nat.zero_le _⟩

theorem sized_bindCid {s : Listener L σ} (h : Sized s) (u : Bool) (c : UInt8) : Sized (bindCid s u c) :=
  ⟨by simpa using h.frame_size, by simpa using h.command_size, by simpa using h.command_le⟩

theorem sized_dropChain {s : Listener L σ} (h : Sized s) : Sized (dropChain s) :=
  ⟨h.frame_size, h.command_size, Nat.zero_le _⟩

theorem sized_endActivation {s : Listener L σ} (h : Sized s) : Sized (endActivation E s) :=
  ⟨h.frame_size, h.command_size, Nat.zero_le _⟩

/-- An INF that the size check lets through. -/
theorem sized_appendInf {s : Listener L σ} (h : Sized s) {inf : Octets}
    (hl : inf.length ≤ L.workerMaxBufferSize - s.commandLen) : Sized (appendInf s inf) := by
  have hc := h.command_le
  refine ⟨h.frame_size, ?_, ?_⟩
  · show (writeAt s.command s.commandLen inf).length = _
    rw [length_writeAt (by rw [h.command_size]; omega), h.command_size]
  · show s.commandLen + inf.length ≤ _
    omega

/-- What is collected with the INF of the last block. -/
theorem take_appendInf {s : Listener L σ} (h : Sized s) (inf : Octets) :
    (appendInf s inf).command.take (appendInf s inf).commandLen = s.command.take s.commandLen ++ inf :=
  take_writeAt (by rw [h.command_size]; exact h.command_le)

theorem sendNextIResponse_command (s : Listener L σ) :
    (sendNextIResponse s).1.command = s.command ∧ (sendNextIResponse s).1.commandLen = s.commandLen := by
  unfold sendNextIResponse; simp only; split <;> exact ⟨rfl, rfl⟩

theorem sized_sendNextIResponse {s : Listener L σ} (h : Sized s) : Sized (sendNextIResponse s).1 := by
  obtain ⟨h1, h2⟩ := sendNextIResponse_command s
  exact ⟨frame_size_sendNextIResponse s h.frame_size, by rw [h1]; exact h.command_size, by rw [h2]; exact h.command_le⟩

theorem sized_nextSent {s : Listener L σ} (h : Sized s) : Sized (nextSent s) := by
  have hs : Sized { s with piccBlock := !s.piccBlock } := ⟨h.frame_size, h.command_size, h.command_le⟩
  obtain ⟨h1, h2, h3⟩ := sized_sendNextIResponse hs
  exact ⟨h1, h2, h3⟩

theorem sized_dispatch {s : Listener L σ} (h : Sized s) (header apdu : Octets) : Sized (dispatch E s header apdu).1 := by
  simp only [dispatch, sendIResponse]
  split
  · exact ⟨h.frame_size, h.command_size, h.command_le⟩
  · exact sized_sendNextIResponse ⟨h.frame_size, h.command_size, h.command_le⟩

theorem sized_rx {s s' : Listener L σ} {rx : Octets} {out : List Effect} (h : Sized s) (hr : Rx E s rx s' out) :
    Sized s' := by
  cases hr with
  | ignored => exact h
  | pps => exact h
  | replayR => exact h
  | nextBlock => exact sized_nextSent h
  | ackR => exact h
  | deselect => exact sized_endActivation h
  | replayI => exact h
  | ackI => exact h
  | nakI => exact sized_bindCid h _ _
  | refused => exact sized_bindCid h _ _
  | overflow => exact sized_dropChain (sized_bindCid h _ _)
  | @chained _ u c _ _ _ hfit _ =>
    have ha := sized_appendInf (sized_bindCid h u c) (by rw [bindCid_commandLen]; exact hfit)
    exact ⟨ha.frame_size, ha.command_size, ha.command_le⟩
  | @lastBlock _ u c _ _ _ hfit _ _ s' out hd =>
    have ha := sized_appendInf (sized_bindCid h u c) (by rw [bindCid_commandLen]; exact hfit)
    have hds := sized_dispatch (E := E) (sized_dropChain ha) (rx.take (headerLen u))
      ((appendInf s (rx.drop (headerLen u))).command.take (appendInf s (rx.drop (headerLen u))).commandLen)
    rwa [hd] at hds
  | @single _ u c _ _ _ _ _ s' out hd =>
    have hds := sized_dispatch (E := E) (sized_bindCid h u c) (rx.take (headerLen u)) (rx.drop (headerLen u))
    rwa [hd] at hds

theorem sized_callback (E : Engine L σ) (s : Listener L σ) (e : Event) (h : Sized s) :
    Sized (workerListenerCallback E s e).1 := by
  cases e with
  | receivedData rx => exact sized_rx h (receivedData_rx s rx)
  | halted => exact ⟨h.frame_size, h.command_size, Nat.zero_le _⟩
  | fieldOff => exact ⟨h.frame_size, h.command_size, Nat.zero_le _⟩

theorem sized_reachable {st : σ} {s : Listener L σ} (h : ListenerReachable E st s) : Sized s :=
  Reachable.inv Sized (sized_init L st) (sized_callback E) h

/-! ## Responses -/

structure Inv (s : Listener L σ) : Prop extends Sized s where
  cached : s.lastResponseValid = true → isIPcb (s.txBuffer.data.headD 0) ∧
    ∃ off, Sendable s.txBuffer.data off ∧ cachedFrame s = blockAt s.txBuffer.data s.piccBlock off ∧
      s.responseOffset = nextOffset s.txBuffer.data off
  busy : s.responseOffset ≠ 0 →
    s.lastResponseValid = true ∧ s.commandLen = 0 ∧ s.expectedPcdBlock = !s.piccBlock

theorem inv_init (L : Limits) (st : σ) : Inv (listenerInit L st) :=
  { sized_init L st with cached := fun h => by simp [listenerInit] at h, busy := fun h => absurd rfl h }

/-- The offset a response is continued from lies in it. -/
theorem Inv.sendable {s : Listener L σ} (h : Inv s) (ho : s.responseOffset ≠ 0) :
    Sendable s.txBuffer.data s.responseOffset := by
  obtain ⟨_, off, hs, _, he⟩ := h.cached (h.busy ho).1
  rw [he] at ho ⊢
  exact hs.next ho

theorem inv_bindCid {s : Listener L σ} (h : Inv s) (u : Bool) (c : UInt8) : Inv (bindCid s u c) :=
  { sized_bindCid h.toSized u c with
    cached := by simpa [cachedFrame] using h.cached
    busy := by simpa using h.busy }

theorem inv_endActivation {s : Listener L σ} (h : Inv s) : Inv (endActivation E s) :=
  { sized_endActivation h.toSized with
    cached := fun hv => by simp [endActivation] at hv
    busy := fun ho => absurd rfl ho }

theorem inv_dropChain {s : Listener L σ} (h : Inv s) : Inv (dropChain s) :=
  { sized_dropChain h.toSized with
    cached := h.cached
    busy := fun ho => ⟨(h.busy ho).1, rfl, (h.busy ho).2.2⟩ }

theorem inv_appendInf {s : Listener L σ} (h : Inv s) (ho : s.responseOffset = 0) {inf : Octets}
    (hl : inf.length ≤ L.workerMaxBufferSize - s.commandLen) : Inv (appendInf s inf) :=
  { sized_appendInf h.toSized hl with cached := h.cached, busy := fun ho' => absurd ho ho' }

theorem inv_toggleExpected {s : Listener L σ} (h : Inv s) (ho : s.responseOffset = 0) : Inv (toggleExpected s) :=
  { h with busy := fun ho' => absurd ho ho' }

theorem inv_answered {s s' : Listener L σ} {header apdu : Octets} {out : List Effect} (h : Sized s)
    (hi : isIPcb (header.headD 0)) (hne : header ≠ []) (h0 : s.commandLen = 0)
    (ha : Answered E s header apdu s' out) : Inv s' := by
  refine ⟨⟨ha.frame_size, by rw [ha.command]; exact h.command_size, by rw [ha.commandLen]; exact h.command_le⟩, ?_, ?_⟩
  · intro _
    refine ⟨?_, header.length, ha.sendable, ?_, ha.offset⟩
    · obtain ⟨t, ht⟩ := ha.starts
      rw [← ht]
      cases header with
      | nil => exact absurd rfl hne
      | cons a r => exact hi
    · rw [cachedFrame, ha.frame, ha.picc]
  · intro _
    exact ⟨ha.valid, by rw [ha.commandLen]; exact h0, by rw [ha.expected, ha.picc]⟩

theorem nextSent_eq {s : Listener L σ} (h : Inv s) (ho : s.responseOffset ≠ 0) :
    nextSent s = { s with
        piccBlock := !s.piccBlock
        expectedPcdBlock := s.piccBlock
        lastFrame := nextFrame s.txBuffer.data s.lastFrame (!s.piccBlock) s.responseOffset
        lastFrameLen := (blockAt s.txBuffer.data (!s.piccBlock) s.responseOffset).length
        responseOffset := nextOffset s.txBuffer.data s.responseOffset
        lastResponseValid := true } ∧
      (sendNextIResponse { s with piccBlock := !s.piccBlock }).2 =
        [.tx (blockAt s.txBuffer.data (!s.piccBlock) s.responseOffset)] := by
  have hs := h.sendable ho
  rw [nextSent, sendNextIResponse_eq { s with piccBlock := !s.piccBlock } h.frame_size hs.whole]
  exact ⟨by simp, sendFrame_blockAt s.txBuffer (!s.piccBlock) hs⟩

theorem inv_nextSent {s : Listener L σ} (h : Inv s) (ho : s.responseOffset ≠ 0) : Inv (nextSent s) := by
  have hs := h.sendable ho
  obtain ⟨hv, hc, _⟩ := h.busy ho
  obtain ⟨_, htake⟩ := nextFrame_eq (!s.piccBlock) s.responseOffset h.frame_size hs.whole
  rw [← length_blockAt (!s.piccBlock) s.responseOffset hs.whole] at htake
  have hz := sized_nextSent h.toSized
  rw [(nextSent_eq h ho).1] at hz ⊢
  exact { hz with
    cached := fun _ => ⟨(h.cached hv).1, s.responseOffset, hs, htake, rfl⟩
    busy := fun _ => ⟨rfl, hc, by simp⟩ }

theorem headD_take_header {rx : Octets} {pcb : UInt8} {u : Bool} {c : UInt8} (h : Header rx pcb u c) :
    (rx.take (headerLen u)).headD 0 = pcb := by
  have hh := h.head
  cases rx with
  | nil => simp at hh
  | cons a r =>
    simp at hh; subst hh
    unfold headerLen; split <;> rfl

theorem length_take_header {rx : Octets} {pcb : UInt8} {u : Bool} {c : UInt8} (h : Header rx pcb u c) :
    (rx.take (headerLen u)).length = headerLen u := by
  have := h.long; simp; omega

/-- The PCB says how long the header is. -/
theorem prefixLen_take_header {rx : Octets} {pcb : UInt8} {u : Bool} {c : UInt8} (h : Header rx pcb u c) :
    prefixLen (rx.take (headerLen u)) = (rx.take (headerLen u)).length := by
  rw [length_take_header h, prefixLen, headD_take_header h, headerLen, h.useCid_eq]
  by_cases e : pcb &&& cidMask = 0 <;> simp [e]

theorem take_header_ne_nil {rx : Octets} {pcb : UInt8} {u : Bool} {c : UInt8} (h : Header rx pcb u c) :
    rx.take (headerLen u) ≠ [] := by
  intro e
  have := length_take_header h
  rw [e] at this
  unfold headerLen at this; split at this <;> simp at this

/-- An accepted last block is answered, and the invariant holds after it. -/
theorem answered_block (hk : E.KeepsPrefix) {s s' : Listener L σ} {rx apdu : Octets} {pcb : UInt8} {u : Bool} {c : UInt8}
    {out : List Effect} (h : Inv s) (hb : IBlock rx pcb u c) (h0 : s.commandLen = 0)
    (hd : dispatch E s (rx.take (headerLen u)) apdu = (s', out)) :
    Answered E s (rx.take (headerLen u)) apdu s' out ∧ Inv s' := by
  have ha := dispatch_answered hk s (rx.take (headerLen u)) apdu h.frame_size (prefixLen_take_header hb.toHeader)
  rw [hd] at ha
  exact ⟨ha, inv_answered h.toSized (by rw [headD_take_header hb.toHeader]; exact hb.kind) (take_header_ne_nil hb.toHeader) h0 ha⟩

/-- The last block of a chain, with the chain closed and its INF appended. -/
theorem answered_lastBlock (hk : E.KeepsPrefix) {s s' : Listener L σ} {rx apdu : Octets} {pcb : UInt8} {u : Bool} {c : UInt8}
    {out : List Effect} (h : Inv s) (he : Expected s rx pcb u c) (ho : s.responseOffset = 0)
    (hfit : (rx.drop (headerLen u)).length ≤ L.workerMaxBufferSize - s.commandLen)
    (hd : dispatch E (dropChain (appendInf (bindCid s u c) (rx.drop (headerLen u)))) (rx.take (headerLen u)) apdu =
      (s', out)) :
    Answered E (dropChain (appendInf (bindCid s u c) (rx.drop (headerLen u)))) (rx.take (headerLen u)) apdu s' out ∧
      Inv s' := by
  have hs0 := inv_dropChain (inv_appendInf (inv_bindCid h u c) (by simpa using ho) (by rw [bindCid_commandLen]; exact hfit))
  exact answered_block hk hs0 he.toIBlock rfl hd

/-- A block outside a chain. -/
theorem answered_single (hk : E.KeepsPrefix) {s s' : Listener L σ} {rx apdu : Octets} {pcb : UInt8} {u : Bool} {c : UInt8}
    {out : List Effect} (h : Inv s) (he : Expected s rx pcb u c) (hc : s.commandLen = 0)
    (hd : dispatch E (bindCid s u c) (rx.take (headerLen u)) apdu = (s', out)) :
    Answered E (bindCid s u c) (rx.take (headerLen u)) apdu s' out ∧ Inv s' :=
  answered_block hk (inv_bindCid h u c) he.toIBlock (by simpa using hc) hd

/-- Every branch keeps the invariant. -/
theorem inv_rx (hk : E.KeepsPrefix) {s s' : Listener L σ} {rx : Octets} {out : List Effect} (h : Inv s)
    (hr : Rx E s rx s' out) : Inv s' := by
  cases hr with
  | ignored => exact h
  | pps => exact h
  | replayR => exact h
  | nextBlock _ _ _ ho _ => exact inv_nextSent h ho
  | ackR => exact h
  | deselect => exact inv_endActivation h
  | replayI => exact h
  | ackI => exact h
  | nakI => exact inv_bindCid h _ _
  | refused => exact inv_bindCid h _ _
  | overflow => exact inv_dropChain (inv_bindCid h _ _)
  | @chained _ u c _ ho _ hfit _ =>
    have ha := inv_appendInf (inv_bindCid h u c) (by simpa using ho) (by rw [bindCid_commandLen]; exact hfit)
    exact inv_toggleExpected ha (by simpa [appendInf] using ho)
  | @lastBlock _ u c he ho _ hfit _ _ _ _ hd =>
    exact (answered_lastBlock hk h he ho hfit hd).2
  | @single _ u c he ho _ _ hc _ _ hd =>
    exact (answered_single hk h he hc hd).2

theorem inv_activationLost {s : Listener L σ} (h : Inv s) : Inv (activationLost E s).1 :=
  ⟨⟨h.frame_size, h.command_size, Nat.zero_le _⟩, fun hv => by simp [activationLost, endActivation] at hv,
    fun ho => absurd rfl ho⟩

theorem inv_callback (hk : E.KeepsPrefix) (s : Listener L σ) (e : Event) (h : Inv s) :
    Inv (workerListenerCallback E s e).1 := by
  cases e with
  | receivedData rx => exact inv_rx hk h (receivedData_rx s rx)
  | halted => exact inv_activationLost h
  | fieldOff => exact inv_activationLost h

theorem inv_reachable (hk : E.KeepsPrefix) {st : σ} {s : Listener L σ} (h : ListenerReachable E st s) : Inv s :=
  Reachable.inv Inv (inv_init L st) (inv_callback hk) h

end DfcFlipper.IsoDep
