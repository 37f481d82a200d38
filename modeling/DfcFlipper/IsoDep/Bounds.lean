/-
  DfcFlipper.IsoDep.Bounds — the listener's arithmetic and copies stay in bounds.

  Of the engine only `LeavesPrefix` is assumed: it leaves what is in the response buffer in
  place, and the ISO wrapping keeps it. A wrapped response that the buffer cannot take leaves
  it empty, and nothing is sent.

  `Bounded` holds in every reachable state: both arrays keep their size, so every copy into
  them stayed inside, and an offset to go on from lies behind the prefix and before the end of
  the response. `StepBounded` is about what one event does from there: each mark of a copy
  fits its array, the response begins with its whole prefix, and at most one frame is sent.
-/

import DfcFlipper.IsoDep.Sent

namespace DfcFlipper.IsoDep

open DfcFlipper.Lib.Bytes DfcFlipper.Lib.Run

variable {L : Limits} {σ : Type} {E : Engine L σ}

/-! ## The engine -/

def Starts (header : Octets) (tx : DfcByteBuf L) : Prop := header <+: tx.data ∨ tx.data = []

theorem wrapResponse_starts (hl : E.LeavesPrefix) {header : Octets} {tx : DfcByteBuf L} (h : header <+: tx.data) :
    Starts header (wrapResponse E header.length tx) := by
  unfold wrapResponse
  split
  · rename_i hlt
    split
    · rename_i out ho
      have hp := hl.wrap tx header.length out hlt ho
      rw [← List.prefix_iff_eq_take.mp h] at hp
      by_cases hfit : out.length ≤ L.bytebufMax
      · left
        rw [DfcByteBuf.appendBytes_data (by simpa using hfit)]
        simpa using hp
      · right
        rw [DfcByteBuf.appendBytes, dif_neg (by simpa using hfit)]
        rfl
    · exact Or.inl h
  · exact Or.inl h

theorem handleNative_starts (hl : E.LeavesPrefix) (st : σ) (header apdu : Octets) {tx : DfcByteBuf L}
    (h : header <+: tx.data) : Starts header (handleNative E st header.length apdu tx).txBuffer := by
  unfold handleNative
  split
  · split
    · exact Or.inl (h.trans (lengthError_keeps st tx))
    · exact wrapResponse_starts hl (h.trans (hl.command _ _ _))
  · exact Or.inl (h.trans (hl.command _ _ _))

theorem handleApdu_starts (hl : E.LeavesPrefix) (st : σ) (header apdu : Octets) {tx : DfcByteBuf L}
    (h : header <+: tx.data) : Starts header (handleApdu E st header.length apdu tx).txBuffer := by
  unfold handleApdu
  split
  · exact Or.inl (h.trans (lengthError_keeps st tx))
  · split
    · simp only
      split
      · exact Or.inl (h.trans (hl.select _ _ _ _))
      · exact handleNative_starts hl _ _ _ (h.trans (hl.select _ _ _ _))
    · exact handleNative_starts hl _ _ _ h

/-- A native command fits the scratch buffer: INS and Lc octets. -/
theorem native_fits {apdu : Octets} (h : ¬badLc L apdu) :
    (apdu.getD 1 0 :: (apdu.drop 5).take (apdu.getD 4 0).toNat).length ≤ L.workerMaxBufferSize := by
  have hpos := L.worker_pos
  simp only [badLc, not_or] at h
  simp only [List.length_cons, List.length_take]
  omega

/-! ## What one event does -/

/-- What a mark says of the copy it stands for, and a frame of its length. -/
def Effect.Fits (s : Listener L σ) : Effect → Prop
  | .tx frame => frame.length ≤ isoDepFrameMax
  | .select apdu => apdu.length ≤ L.workerMaxBufferSize
  | .command apdu => apdu.length ≤ L.workerMaxBufferSize
  | .append inf => s.commandLen + inf.length ≤ L.workerMaxBufferSize
  | .answer response => prefixLen response ≤ response.length ∧ prefixLen response ≤ isoDepFrameMax
  | _ => True

structure StepBounded (s : Listener L σ) (out : List Effect) : Prop where
  fits : ∀ e ∈ out, e.Fits s
  atMostOne : (framesSent out).length ≤ 1

theorem stepBounded_nil (s : Listener L σ) : StepBounded s [] := ⟨fun _ h => (by cases h), Nat.zero_le _⟩

/-- A mark of something that fits, before the rest. -/
theorem StepBounded.cons {s : Listener L σ} {e : Effect} {out : List Effect} (h : StepBounded s out) (he : e.Fits s)
    (hf : e.frame? = none) : StepBounded s (e :: out) := by
  refine ⟨fun e' hm => ?_, ?_⟩
  · rcases List.mem_cons.mp hm with rfl | hm
    · exact he
    · exact h.fits e' hm
  · rw [framesSent, List.filterMap_cons_none hf]
    exact h.atMostOne

theorem stepBounded_sendFrame (s : Listener L σ) {frame : Octets} (h : frame.length ≤ isoDepFrameMax) :
    StepBounded s (sendFrame L frame) := by
  unfold sendFrame
  split
  · refine ⟨fun e he => ?_, Nat.le_refl 1⟩
    obtain rfl := List.mem_singleton.mp he
    exact h
  · exact stepBounded_nil s

theorem stepBounded_sendControl (s : Listener L σ) (pcb : UInt8) (u : Bool) (c : UInt8) :
    StepBounded s (sendControl L pcb u c) := by
  refine stepBounded_sendFrame s ?_
  cases u <;> simp [isoDepFrameMax]

/-- What the engine side does before the rest: no frame, and every APDU within `iso_dep_command`. -/
theorem StepBounded.after {s : Listener L σ} {effects out : List Effect} (h : StepBounded s out)
    (he : ∀ e ∈ effects, e.engineSide) (hf : ∀ e ∈ effects, e.Fits s) : StepBounded s (effects ++ out) := by
  refine ⟨fun e hm => ?_, ?_⟩
  · rcases List.mem_append.mp hm with hm | hm
    · exact hf e hm
    · exact h.fits e hm
  · rw [framesSent_append, framesSent_engineSide he]
    exact h.atMostOne

theorem handleCommand_fits (s : Listener L σ) (st : σ) {apdu : Octets} (tx : DfcByteBuf L)
    (h : apdu.length ≤ L.workerMaxBufferSize) : ∀ e ∈ (handleCommand E st apdu tx).effects, e.Fits s := by
  intro e he
  have hs := handleCommand_engineSide (E := E) st apdu tx e he
  cases e with
  | command a =>
    simp only [handleCommand, List.mem_append, List.mem_cons, List.mem_map] at he
    rcases he with (he | ⟨_, _, he⟩) | he
    · cases he; exact h
    · cases he
    · split at he
      · cases he
      · simp at he
  | select a =>
    simp only [handleCommand, List.mem_append, List.mem_cons, List.mem_map] at he
    rcases he with (he | ⟨_, _, he⟩) | he
    · cases he
    · cases he
    · split at he
      · cases he
      · simp at he
  | notify _ => trivial
  | _ => cases hs

theorem handleNative_fits (s : Listener L σ) (st : σ) (off : Nat) {apdu : Octets} (tx : DfcByteBuf L)
    (h : apdu.length ≤ L.workerMaxBufferSize) : ∀ e ∈ (handleNative E st off apdu tx).effects, e.Fits s := by
  unfold handleNative
  split
  · split
    · intro e he; cases he
    · rename_i hlc
      exact handleCommand_fits s st tx (native_fits hlc)
  · exact handleCommand_fits s st tx h

theorem handleApdu_fits (s : Listener L σ) (st : σ) (off : Nat) (apdu : Octets) (tx : DfcByteBuf L) :
    ∀ e ∈ (handleApdu E st off apdu tx).effects, e.Fits s := by
  unfold handleApdu
  split
  · intro e he; cases he
  rename_i hlong
  have hle : apdu.length ≤ L.workerMaxBufferSize := by omega
  split
  · simp only
    split
    · intro e he
      rcases List.mem_cons.mp he with rfl | he
      · exact hle
      · split at he
        · simp at he; subst he; trivial
        · cases he
    · intro e he
      rcases List.mem_cons.mp he with rfl | he
      · exact hle
      · exact handleNative_fits s _ _ _ hle e he
  · exact handleNative_fits s _ _ _ hle

/-! ## Every run -/

structure Bounded (s : Listener L σ) : Prop extends Sized s where
  frame_le : s.lastFrameLen ≤ isoDepFrameMax
  offset : s.responseOffset ≠ 0 →
    prefixLen s.txBuffer.data ≤ s.responseOffset ∧ s.responseOffset < s.txBuffer.data.length

theorem bounded_init (L : Limits) (st : σ) : Bounded (listenerInit L st) :=
  { sized_init L st with frame_le := Nat.zero_le _, offset := fun h => absurd rfl h }

theorem prefixLen_le_frameMax (resp : Octets) : prefixLen resp ≤ isoDepFrameMax := by
  have := prefixLen_le resp
  rw [isoDepFrameMax]
  omega

/-- Where a response goes on is before its end. -/
theorem nextOffset_bounds {resp : Octets} {off : Nat} (h : Sendable resp off) (hn : nextOffset resp off ≠ 0) :
    prefixLen resp ≤ nextOffset resp off ∧ nextOffset resp off < resp.length := by
  refine ⟨(h.next hn).low, ?_⟩
  unfold nextOffset at hn ⊢
  split at hn
  · rename_i hm
    rw [if_pos hm]
    simpa [moreAt] using hm
  · exact absurd rfl hn

/-- Sending a block of a response from an offset in it. -/
theorem bounded_send {s : Listener L σ} (h : Sized s) (hs : Sendable s.txBuffer.data s.responseOffset) (t : Listener L σ) :
    Bounded (sendNextIResponse s).1 ∧ StepBounded t (sendNextIResponse s).2 := by
  have hz := sized_sendNextIResponse h
  have hlen := (length_blockAt_le s.piccBlock s.responseOffset hs.whole).1
  rw [sendNextIResponse_eq s h.frame_size hs.whole] at hz ⊢
  refine ⟨{ hz with frame_le := hlen, offset := fun hn => ?_ }, stepBounded_sendFrame t hlen⟩
  exact nextOffset_bounds hs hn

/-- An APDU handed on: whatever the engine leaves, the answer is sent from inside it. -/
theorem bounded_dispatch (hl : E.LeavesPrefix) {s s' : Listener L σ} {header apdu : Octets} {out : List Effect}
    (h : Bounded s) (ho : s.responseOffset = 0) (hh : prefixLen header = header.length)
    (hd : dispatch E s header apdu = (s', out)) (t : Listener L σ) : Bounded s' ∧ StepBounded t out := by
  have h1 := prefixLen_pos header
  have h2 := prefixLen_le header
  have hfit := L.prefix_fits
  have h0 : header ≠ [] := by intro e; subst e; simp [prefixLen] at hh
  have hin : header <+: (s.txBuffer.reset.appendBytes header).data := by
    rw [DfcByteBuf.appendBytes_data (by simp; omega)]; simp
  let r := handleApdu E s.engine header.length apdu (s.txBuffer.reset.appendBytes header)
  have hstarts : Starts header r.txBuffer := handleApdu_starts hl s.engine header apdu hin
  have hout : ∀ {es}, StepBounded t es → StepBounded t (.dispatch apdu :: r.effects ++ es) := by
    intro es hes
    refine StepBounded.cons ?_ trivial rfl
    exact hes.after (handleApdu_engineSide _ _ _ _) (handleApdu_fits t _ _ _ _)
  obtain ⟨rfl, rfl⟩ := Prod.mk.inj hd.symm
  by_cases hempty : r.txBuffer.data.length = 0
  · simp only [sendIResponse, r] at hempty ⊢
    rw [if_pos hempty]
    refine ⟨?_, hout (stepBounded_nil t)⟩
    exact ⟨⟨h.frame_size, h.command_size, h.command_le⟩, h.frame_le, fun hn => absurd ho hn⟩
  · have hpre : header <+: r.txBuffer.data := by
      rcases hstarts with hp | he
      · exact hp
      · exact absurd (by rw [he]; rfl) hempty
    have hpl : prefixLen r.txBuffer.data = header.length := by rw [prefixLen_of_starts h0 hpre, hh]
    have hle := hpre.length_le
    have hsend : Sendable r.txBuffer.data (prefixLen r.txBuffer.data) := Sendable.start (by omega)
    simp only [sendIResponse, r] at hempty hsend hpl hle hout ⊢
    rw [if_neg hempty]
    obtain ⟨hb, hs⟩ := bounded_send (s := { s with
      engine := r.state
      txBuffer := r.txBuffer
      piccBlock := s.expectedPcdBlock
      expectedPcdBlock := !s.expectedPcdBlock
      responseOffset := prefixLen r.txBuffer.data }) ⟨h.frame_size, h.command_size, h.command_le⟩ hsend t
    refine ⟨hb, hout (hs.cons ?_ rfl)⟩
    exact ⟨by omega, prefixLen_le_frameMax _⟩

theorem bounded_bindCid {s : Listener L σ} (h : Bounded s) (u : Bool) (c : UInt8) : Bounded (bindCid s u c) :=
  { sized_bindCid h.toSized u c with
    frame_le := by rw [bindCid_lastFrameLen]; exact h.frame_le
    offset := by rw [bindCid_responseOffset, bindCid_txBuffer]; exact h.offset }

theorem bounded_endActivation {s : Listener L σ} (h : Bounded s) : Bounded (endActivation E s) :=
  { sized_endActivation h.toSized with frame_le := h.frame_le, offset := fun ho => absurd rfl ho }

/-- An INF that fits what is left of `iso_dep_command`. -/
theorem bounded_appendInf {s : Listener L σ} (h : Bounded s) {inf : Octets}
    (hfit : inf.length ≤ L.workerMaxBufferSize - s.commandLen) :
    Bounded (appendInf s inf) ∧ s.commandLen + inf.length ≤ L.workerMaxBufferSize := by
  have hc := h.command_le
  have ha := sized_appendInf h.toSized hfit
  exact ⟨{ ha with frame_le := h.frame_le, offset := h.offset }, by omega⟩

theorem stepBounded_cached {s : Listener L σ} (h : Bounded s) : StepBounded s (sendFrame L (cachedFrame s)) := by
  refine stepBounded_sendFrame s ?_
  have hle := h.frame_le
  rw [cachedFrame, List.length_take]
  omega

/-- A frame, whatever it is, leaves everything within its bounds. -/
theorem bounded_rx (hl : E.LeavesPrefix) {s s' : Listener L σ} {rx : Octets} {out : List Effect} (h : Bounded s)
    (hr : Rx E s rx s' out) : Bounded s' ∧ StepBounded s out := by
  cases hr with
  | ignored => exact ⟨h, stepBounded_nil s⟩
  | pps => exact ⟨h, stepBounded_sendControl s _ _ _⟩
  | replayR => exact ⟨h, stepBounded_cached h⟩
  | nextBlock _ _ _ ho _ =>
    obtain ⟨hlow, hhigh⟩ := h.offset ho
    have hs : Sendable s.txBuffer.data s.responseOffset := ⟨by omega, hlow, by omega⟩
    have hz : Sized { s with piccBlock := !s.piccBlock } := ⟨h.frame_size, h.command_size, h.command_le⟩
    obtain ⟨hb, hstep⟩ := bounded_send hz hs s
    refine ⟨?_, hstep⟩
    exact ⟨⟨hb.frame_size, hb.command_size, hb.command_le⟩, hb.frame_le, hb.offset⟩
  | ackR => exact ⟨h, stepBounded_sendControl s _ _ _⟩
  | @deselect _ u _ _ _ hlen _ =>
    have hle : rx.length ≤ isoDepFrameMax := by
      rw [hlen, headerLen, isoDepFrameMax]
      split <;> omega
    refine ⟨bounded_endActivation h, ?_⟩
    have hb := stepBounded_sendFrame s hle
    refine ⟨fun e he => ?_, ?_⟩
    · rcases List.mem_append.mp he with he | he
      · exact hb.fits e he
      · obtain rfl := List.mem_singleton.mp he
        trivial
    · rw [framesSent_append]
      show (framesSent (sendFrame L rx) ++ []).length ≤ 1
      rw [List.append_nil]
      exact hb.atMostOne
  | replayI => exact ⟨h, stepBounded_cached h⟩
  | ackI => exact ⟨h, stepBounded_sendControl s _ _ _⟩
  | nakI => exact ⟨bounded_bindCid h _ _, stepBounded_sendControl s _ _ _⟩
  | refused => exact ⟨bounded_bindCid h _ _, stepBounded_sendControl s _ _ _⟩
  | @overflow _ u c =>
    have hb := bounded_bindCid h u c
    exact ⟨{ sized_dropChain hb.toSized with frame_le := hb.frame_le, offset := hb.offset }, stepBounded_sendControl s _ _ _⟩
  | @chained _ u c _ _ _ hfit _ =>
    obtain ⟨ha, hle⟩ := bounded_appendInf (bounded_bindCid h u c) (by rw [bindCid_commandLen]; exact hfit)
    rw [bindCid_commandLen] at hle
    refine ⟨?_, (stepBounded_sendControl s _ _ _).cons hle rfl⟩
    exact ⟨⟨ha.frame_size, ha.command_size, ha.command_le⟩, ha.frame_le, ha.offset⟩
  | @lastBlock _ u c he ho _ hfit _ _ _ _ hd =>
    obtain ⟨ha, hle⟩ := bounded_appendInf (bounded_bindCid h u c) (by rw [bindCid_commandLen]; exact hfit)
    rw [bindCid_commandLen] at hle
    have hb : Bounded (dropChain (appendInf (bindCid s u c) (rx.drop (headerLen u)))) :=
      { sized_dropChain ha.toSized with frame_le := ha.frame_le, offset := ha.offset }
    have ho' : (dropChain (appendInf (bindCid s u c) (rx.drop (headerLen u)))).responseOffset = 0 := by
      simpa [dropChain, appendInf] using ho
    obtain ⟨hs', hstep⟩ := bounded_dispatch hl hb ho' (prefixLen_take_header he.toHeader) hd s
    exact ⟨hs', hstep.cons hle rfl⟩
  | @single _ u c he ho _ _ _ _ _ hd =>
    exact bounded_dispatch hl (bounded_bindCid h u c) (by simpa using ho) (prefixLen_take_header he.toHeader) hd s

theorem bounded_callback (hl : E.LeavesPrefix) (s : Listener L σ) (ev : Event) (h : Bounded s) :
    Bounded (workerListenerCallback E s ev).1 ∧ StepBounded s (workerListenerCallback E s ev).2 := by
  have hlost : Bounded (activationLost E s).1 ∧ StepBounded s (activationLost E s).2 := by
    have he := bounded_endActivation (E := E) h
    refine ⟨⟨⟨he.frame_size, he.command_size, he.command_le⟩, Nat.zero_le _, he.offset⟩, ?_⟩
    have hview : StepBounded s [.notify .emulate] := (stepBounded_nil s).cons (e := .notify .emulate) trivial rfl
    exact hview.cons (e := .resetActivation) trivial rfl
  cases ev with
  | receivedData rx => exact bounded_rx hl h (receivedData_rx s rx)
  | halted => exact hlost
  | fieldOff => exact hlost

/-- After any events, whatever the frames and the engine: the state is within its bounds, and so
is all that the next event does. -/
theorem in_bounds (hl : E.LeavesPrefix) (st : σ) (evs : List Event) :
    let s := (run (workerListenerCallback E) (listenerInit L st) evs).1
    Bounded s ∧ prefixLen s.txBuffer.data ≤ isoDepFrameMax ∧ ∀ ev, StepBounded s (workerListenerCallback E s ev).2 := by
  intro s
  have h : Bounded s :=
    run_inv Bounded (fun s ev h => (bounded_callback hl s ev h).1) evs (listenerInit L st) (bounded_init L st)
  exact ⟨h, prefixLen_le_frameMax _, fun ev => (bounded_callback hl s ev h).2⟩

/-- Whatever comes after a selection of the PICC level. -/
theorem in_bounds_select :
    let s := (run (workerListenerCallback piccEngine) (listenerInit smallLimits false)
      [.receivedData [0x02, 0x5A, 0, 0, 0]]).1
    Bounded s ∧ prefixLen s.txBuffer.data ≤ isoDepFrameMax ∧
      ∀ ev, StepBounded s (workerListenerCallback piccEngine s ev).2 :=
  in_bounds piccEngine_keepsPrefix.toLeavesPrefix false _

end DfcFlipper.IsoDep
