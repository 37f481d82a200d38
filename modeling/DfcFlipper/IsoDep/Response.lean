/-
  DfcFlipper.IsoDep.Response — a response chain loses, repeats and reorders nothing.

  `segment resp n i` is the `i`-th I-block of a response whose first block has number `n`.
  After an APDU was answered the listener has sent segments `0 .. k` for some `k`, each
  replayed any number of times before the next one, and stands behind segment `k`
  (`Sending`). Every frame that neither adds to a command nor ends the activation keeps
  that, with the same `k` or the next one (`sending_rx`). What the reader gets to see
  follows from the segments alone (`InOrder`).
-/

import DfcFlipper.IsoDep.Sent

namespace DfcFlipper.IsoDep

open DfcFlipper.Lib.Bytes DfcFlipper.Lib.Run

variable {L : Limits} {σ : Type} {E : Engine L σ}

/-! ## Segments -/

/-- What the engine left after the prefix. -/
def payload (resp : Octets) : Octets := resp.drop (prefixLen resp)

def cidOctet (frame : Octets) : Octets := (frame.take (prefixLen frame)).tail

def offsetAt (resp : Octets) (i : Nat) : Nat := prefixLen resp + i * chunkMax resp

def segment (resp : Octets) (number : Bool) (i : Nat) : Octets := blockAt resp (numberAt number i) (offsetAt resp i)

def segments (resp : Octets) (number : Bool) (n : Nat) : List Octets := (List.range n).map (segment resp number)

theorem offsetAt_succ (resp : Octets) (i : Nat) : offsetAt resp (i + 1) = offsetAt resp i + chunkMax resp := by
  rw [offsetAt, offsetAt, Nat.succ_mul]; omega

theorem segments_succ (resp : Octets) (number : Bool) (n : Nat) :
    segments resp number (n + 1) = segments resp number n ++ [segment resp number n] := by
  rw [segments, List.range_succ, List.map_append]; rfl

theorem segment_number (resp : Octets) (number : Bool) (i : Nat) :
    blockNumber ((segment resp number i).headD 0) = numberAt number i := headerByte_number _ _ _

theorem segment_chaining (resp : Octets) (number : Bool) (i : Nat) :
    chaining ((segment resp number i).headD 0) = moreAt resp (offsetAt resp i) := headerByte_chaining _ _ _

/-- Two segments in a row are never the same frame: their numbers differ. -/
theorem segment_succ_ne (resp : Octets) (number : Bool) (i : Nat) :
    segment resp number i ≠ segment resp number (i + 1) := by
  intro h
  have hn := congrArg (fun f : Octets => blockNumber (f.headD 0)) h
  simp only [segment_number, numberAt_succ] at hn
  cases numberAt number i <;> simp at hn

theorem cidOctet_segment {resp : Octets} (number : Bool) (i : Nat) (hw : prefixLen resp ≤ resp.length) :
    cidOctet (segment resp number i) = cidOctet resp := by
  have hh := length_header hw (headerByte (resp.headD 0) (numberAt number i) (moreAt resp (offsetAt resp i)))
  rw [cidOctet, segment, prefixLen_blockAt, blockAt, List.take_append_of_le_length (by omega),
    List.take_of_length_le (by omega)]
  rfl

/-- The payloads of the first `n` segments are the first `n` chunks of the payload. -/
theorem segments_inf {resp : Octets} (number : Bool) (hw : prefixLen resp ≤ resp.length) (n : Nat) :
    (segments resp number n).flatMap inf = (payload resp).take (n * chunkMax resp) := by
  induction n with
  | zero => simp [segments]
  | succ n ih =>
    rw [segments_succ, List.flatMap_append, ih, Nat.succ_mul, List.take_add]
    congr 1
    rw [List.flatMap_singleton, segment, inf_blockAt _ _ hw, chunkAt, payload, List.drop_drop, offsetAt]

theorem moreAt_last (resp : Octets) (off : Nat) : moreAt resp off = false ↔ nextOffset resp off = 0 := by
  have hpos := chunkMax_pos resp
  rw [nextOffset]
  cases moreAt resp off with
  | false => simp
  | true =>
    simp
    omega

/-- With nothing behind the segment `k`, they are the whole payload. -/
theorem segments_whole {resp : Octets} {k : Nat} (number : Bool) (hw : prefixLen resp ≤ resp.length)
    (h : nextOffset resp (offsetAt resp k) = 0) : (segments resp number (k + 1)).flatMap inf = payload resp := by
  have hend : resp.length ≤ offsetAt resp k + chunkMax resp := by
    simpa [moreAt] using (moreAt_last resp _).mpr h
  rw [segments_inf _ hw, List.take_of_length_le]
  rw [payload, List.length_drop, Nat.succ_mul]
  unfold offsetAt at hend; omega

/-! ## What the reader sees -/

/-- `blocks` are what a reader may see of the response `resp` to a command whose last
    I-block is `rx`, while the listener goes on at `offset` (0: the response is out). -/
structure InOrder (rx resp : Octets) (offset : Nat) (blocks : List Octets) : Prop where
  starts : blocks ≠ []
  payload_part : blocks.flatMap inf <+: payload resp
  payload_whole : offset = 0 → blocks.flatMap inf = payload resp
  full : ∀ b ∈ blocks, chaining (b.headD 0) = true → b.length = isoDepFrameMax
  chained : ∀ b ∈ blocks.dropLast, chaining (b.headD 0) = true
  last : ∀ b, blocks.getLast? = some b → (chaining (b.headD 0) = false ↔ offset = 0)
  number : ∀ i (h : i < blocks.length), blockNumber (blocks[i].headD 0) = numberAt (blockNumber (rx.headD 0)) i
  cid : ∀ b ∈ blocks, cidOctet b = cidOctet rx

theorem mem_segments {resp : Octets} {number : Bool} {n : Nat} {b : Octets} (h : b ∈ segments resp number n) :
    ∃ i, i < n ∧ segment resp number i = b := by
  simpa [segments] using h

/-- Segments `0 .. k` of a response, all but the last followed by more. -/
theorem inOrder_segments {rx resp : Octets} {offset k : Nat} (hw : prefixLen resp ≤ resp.length)
    (hcid : cidOctet resp = cidOctet rx) (hmore : ∀ i, i < k → moreAt resp (offsetAt resp i) = true)
    (ho : offset = nextOffset resp (offsetAt resp k)) :
    InOrder rx resp offset (segments resp (blockNumber (rx.headD 0)) (k + 1)) := by
  have hlast : moreAt resp (offsetAt resp k) = false ↔ offset = 0 := by rw [ho]; exact moreAt_last resp _
  refine ⟨by simp [segments_succ], ?_, ?_, ?_, ?_, ?_, ?_, ?_⟩
  · rw [segments_inf _ hw]; exact List.take_prefix _ _
  · exact fun h0 => segments_whole _ hw (ho ▸ h0)
  · intro b hb hc
    obtain ⟨i, _, rfl⟩ := mem_segments hb
    rw [segment_chaining] at hc
    exact (length_blockAt_le _ _ hw).2 hc
  · intro b hb
    rw [segments_succ, List.dropLast_concat] at hb
    obtain ⟨i, hi, rfl⟩ := mem_segments hb
    rw [segment_chaining]; exact hmore i hi
  · intro b hb
    rw [segments_succ, List.getLast?_concat] at hb
    obtain rfl := Option.some.inj hb
    rw [segment_chaining]; exact hlast
  · intro i hi
    simp only [segments, List.getElem_map, List.getElem_range, segment_number]
  · intro b hb
    obtain ⟨i, _, rfl⟩ := mem_segments hb
    rw [cidOctet_segment _ _ hw, hcid]

/-! ## Sending a response -/

/-- The listener has sent segments `0 .. k` of `resp`, the trace ends with segment `k`. -/
structure Sending (resp : Octets) (number : Bool) (k : Nat) (a : Listener L σ × List Effect) : Prop where
  inv : Inv a.1
  txBuffer : a.1.txBuffer.data = resp
  whole : prefixLen resp ≤ resp.length
  valid : a.1.lastResponseValid = true
  closed : a.1.commandLen = 0
  picc : a.1.piccBlock = numberAt number k
  cached : cachedFrame a.1 = segment resp number k
  offset : a.1.responseOffset = nextOffset resp (offsetAt resp k)
  more : ∀ i, i < k → moreAt resp (offsetAt resp i) = true
  sent : (iBlocks a.2).eraseReps = segments resp number (k + 1)
  last : (iBlocks a.2).getLast? = some (segment resp number k)

/-- Neither an INF nor an APDU is taken, and the activation goes on. -/
def Effect.quiet : Effect → Prop
  | .append _ => False
  | .dispatch _ => False
  | .resetActivation => False
  | _ => True

instance : DecidablePred Effect.quiet
  | .append _ => isFalse id
  | .dispatch _ => isFalse id
  | .resetActivation => isFalse id
  | .tx _ => isTrue trivial
  | .select _ => isTrue trivial
  | .command _ => isTrue trivial
  | .notify _ => isTrue trivial
  | .answer _ => isTrue trivial

/-- Nothing new on the air, or the last segment again. -/
theorem Sending.again {resp : Octets} {number : Bool} {k : Nat} {s : Listener L σ} {tr out : List Effect}
    (h : Sending resp number k (s, tr)) (ho : iBlocks out = [] ∨ iBlocks out = [cachedFrame s]) :
    Sending resp number k (s, tr ++ out) := by
  rcases ho with ho | ho
  · exact { h with
      sent := by rw [iBlocks_append, ho, List.append_nil]; exact h.sent
      last := by rw [iBlocks_append, ho, List.append_nil]; exact h.last }
  · have hc : cachedFrame s = segment resp number k := h.cached
    exact { h with
      sent := by rw [iBlocks_append, ho, hc, eraseReps_repeat h.last]; exact h.sent
      last := by rw [iBlocks_append, ho, List.getLast?_concat, hc] }

/-- The reader acknowledged segment `k`. -/
theorem Sending.next {resp : Octets} {number : Bool} {k : Nat} {s : Listener L σ} {tr : List Effect}
    (h : Sending resp number k (s, tr)) (ho : s.responseOffset ≠ 0) :
    Sending resp number (k + 1) (nextSent s, tr ++ (sendNextIResponse { s with piccBlock := !s.piccBlock }).2) := by
  have hoff : s.responseOffset = nextOffset resp (offsetAt resp k) := h.offset
  have hmore : moreAt resp (offsetAt resp k) = true := by
    cases hm : moreAt resp (offsetAt resp k) with
    | true => rfl
    | false => exact absurd (by rw [hoff, nextOffset, hm]; rfl) ho
  have hat : s.responseOffset = offsetAt resp (k + 1) := by
    rw [hoff, nextOffset, if_pos hmore, offsetAt_succ]
  have hpicc : (!s.piccBlock) = numberAt number (k + 1) := by
    rw [numberAt_succ]; exact congrArg _ h.picc
  have htx : s.txBuffer.data = resp := h.txBuffer
  have hseg : blockAt s.txBuffer.data (!s.piccBlock) s.responseOffset = segment resp number (k + 1) := by
    rw [htx, hpicc, hat, segment]
  have hout := iBlocks_nextBlock h.inv ho
  have hcached : cachedFrame (nextSent s) = segment resp number (k + 1) := by
    rw [cachedFrame_nextSent h.inv ho, hseg]
  rw [hseg] at hout
  have hinv := inv_nextSent h.inv ho
  rw [(nextSent_eq h.inv ho).1] at hcached hinv ⊢
  refine { inv := hinv, txBuffer := htx, whole := h.whole, valid := rfl, closed := h.closed, picc := hpicc,
           cached := hcached, offset := ?_, more := ?_, sent := ?_, last := ?_ }
  · show nextOffset s.txBuffer.data s.responseOffset = _
    rw [htx, hat]
  · intro i hi
    rcases Nat.lt_succ_iff_lt_or_eq.mp hi with hlt | rfl
    · exact h.more i hlt
    · exact hmore
  · have hsent : (iBlocks tr).eraseReps = segments resp number (k + 1) := h.sent
    rw [iBlocks_append, hout, eraseReps_new h.last (segment_succ_ne resp number k), hsent, ← segments_succ]
  · rw [iBlocks_append, hout, List.getLast?_concat]

/-- With a response out and no command open, a bound CID is not bound again. -/
theorem Expected.bound {s : Listener L σ} {rx : Octets} {pcb : UInt8} {u : Bool} {c : UInt8}
    (h : Expected s rx pcb u c) (hv : s.lastResponseValid = true) : bindCid s u c = s := by
  refine bindCid_eq ?_
  cases hm : cidMismatch s u c with
  | false => rfl
  | true => have := (h.addressed hm).1; rw [hv] at this; cases this

theorem sending_rx {resp : Octets} {number : Bool} {k : Nat} {s s' : Listener L σ} {rx : Octets} {tr out : List Effect}
    (h : Sending resp number k (s, tr)) (hr : Rx E s rx s' out) (hq : ∀ e ∈ out, e.quiet) :
    ∃ k', Sending resp number k' (s', tr ++ out) := by
  have hv : s.lastResponseValid = true := h.valid
  have hc : s.commandLen = 0 := h.closed
  cases hr with
  | ignored => exact ⟨k, h.again (Or.inl rfl)⟩
  | pps pcb hp => exact ⟨k, h.again (Or.inl (iBlocks_sendControl (pps_not_isIPcb pcb hp) _ _))⟩
  | replayR => exact ⟨k, h.again (Or.inr (iBlocks_replay h.inv hv))⟩
  | nextBlock _ _ _ ho _ => exact ⟨k + 1, h.next ho⟩
  | ackR => exact ⟨k, h.again (Or.inl (iBlocks_sendControl (ack_not_isIPcb _).1 _ _))⟩
  | deselect => exact absurd (hq .resetActivation (by simp)) id
  | replayI => exact ⟨k, h.again (Or.inr (iBlocks_replay h.inv hv))⟩
  | ackI => exact ⟨k, h.again (Or.inl (iBlocks_sendControl (ack_pcb_not_isIPcb _) _ _))⟩
  | nakI _ _ hv' => rw [hv] at hv'; cases hv'
  | refused he =>
    rw [he.bound hv]
    exact ⟨k, h.again (Or.inl (iBlocks_sendControl (ack_not_isIPcb _).2 _ _))⟩
  | overflow he =>
    have hd : dropChain s = s := by
      obtain ⟨_, _, _, _, _, _, _, _, _, _, _, _⟩ := s
      simp only at hc
      rw [hc]; rfl
    rw [he.bound hv, hd]
    exact ⟨k, h.again (Or.inl (iBlocks_sendControl (ack_not_isIPcb _).2 _ _))⟩
  | chained => exact absurd (hq _ (List.mem_cons_self ..)) id
  | lastBlock => exact absurd (hq _ (List.mem_cons_self ..)) id
  | @single _ u c _ _ _ _ _ _ _ hd =>
    have hmem : Effect.dispatch (rx.drop (headerLen u)) ∈
        (dispatch E (bindCid s u c) (rx.take (headerLen u)) (rx.drop (headerLen u))).2 := List.mem_cons_self ..
    rw [hd] at hmem
    exact absurd (hq _ hmem) id

theorem sending_callback {resp : Octets} {number : Bool} {k : Nat} {a : Listener L σ × List Effect}
    (h : Sending resp number k a) (ev : Event) (hq : ∀ e ∈ (workerListenerCallback E a.1 ev).2, e.quiet) :
    ∃ k', Sending resp number k' (logged (workerListenerCallback E) a ev) := by
  cases ev with
  | receivedData rx => exact sending_rx h (receivedData_rx a.1 rx) hq
  | halted => exact absurd (hq .resetActivation (by simp [workerListenerCallback, activationLost])) id
  | fieldOff => exact absurd (hq .resetActivation (by simp [workerListenerCallback, activationLost])) id

/-! ## The answered command -/

/-- The last I-block of a command was taken: `s0` is the listener with the whole command
    `apdu`, the effects are those of answering it, after the mark of an appended INF. -/
structure Taken (E : Engine L σ) (s : Listener L σ) (rx : Octets) (s' : Listener L σ) (out : List Effect)
    (u : Bool) (s0 : Listener L σ) (apdu : Octets) : Prop where
  expected : ∃ pcb c, Expected s rx pcb u c ∧ chaining pcb = false
  closed : s0.commandLen = 0
  number : s0.expectedPcdBlock = s.expectedPcdBlock
  inv : Inv s'
  answered : ∃ out0, (out = out0 ∨ out = .append (rx.drop (headerLen u)) :: out0) ∧
    Answered E s0 (rx.take (headerLen u)) apdu s' out0

theorem answer_not_mem_sendFrame (resp frame : Octets) : Effect.answer resp ∉ sendFrame L frame := by
  unfold sendFrame; split <;> simp

theorem answer_not_mem_sendControl (resp : Octets) (pcb : UInt8) (u : Bool) (c : UInt8) :
    Effect.answer resp ∉ sendControl L pcb u c := answer_not_mem_sendFrame resp _

/-- Only the last I-block of a command is answered. -/
theorem rx_answer (hk : E.KeepsPrefix) {s s' : Listener L σ} {rx resp : Octets} {out : List Effect} (h : Inv s)
    (hr : Rx E s rx s' out) (ha : .answer resp ∈ out) : ∃ u s0 apdu, Taken E s rx s' out u s0 apdu := by
  cases hr with
  | ignored => cases ha
  | pps => exact absurd ha (answer_not_mem_sendControl resp _ _ _)
  | replayR => exact absurd ha (answer_not_mem_sendFrame resp _)
  | nextBlock _ _ _ ho _ => rw [(nextSent_eq h ho).2] at ha; simp at ha
  | ackR => exact absurd ha (answer_not_mem_sendControl resp _ _ _)
  | deselect =>
    rcases List.mem_append.mp ha with ha | ha
    · exact absurd ha (answer_not_mem_sendFrame resp _)
    · simp at ha
  | replayI => exact absurd ha (answer_not_mem_sendFrame resp _)
  | ackI => exact absurd ha (answer_not_mem_sendControl resp _ _ _)
  | nakI => exact absurd ha (answer_not_mem_sendControl resp _ _ _)
  | refused => exact absurd ha (answer_not_mem_sendControl resp _ _ _)
  | overflow => exact absurd ha (answer_not_mem_sendControl resp _ _ _)
  | chained =>
    rcases List.mem_cons.mp ha with ha | ha
    · cases ha
    · exact absurd ha (answer_not_mem_sendControl resp _ _ _)
  | @lastBlock pcb u c he ho _ hfit hl _ _ _ hd =>
    obtain ⟨hans, hinv⟩ := answered_lastBlock hk h he ho hfit hd
    refine ⟨u, _, _, ⟨pcb, c, he, hl⟩, rfl, ?_, hinv, _, Or.inr rfl, hans⟩
    simp [dropChain, appendInf]
  | @single pcb u c he _ _ hl hc _ _ hd =>
    obtain ⟨hans, hinv⟩ := answered_single hk h he hc hd
    exact ⟨u, _, _, ⟨pcb, c, he, hl⟩, by simpa using hc, by simp, hinv, _, Or.inl rfl, hans⟩

theorem Taken.sending {s s' s0 : Listener L σ} {rx apdu resp : Octets} {out : List Effect} {u : Bool}
    (h : Taken E s rx s' out u s0 apdu) (ha : .answer resp ∈ out) :
    Sending resp (blockNumber (rx.headD 0)) 0 (s', out) ∧ cidOctet resp = cidOctet rx := by
  obtain ⟨⟨pcb, c, he, _⟩, hclosed, hnum, hinv, out0, hout, hans⟩ := h
  have hh := he.toHeader
  have hhead : rx.headD 0 = pcb := by
    have := hh.head
    cases rx with
    | nil => simp at this
    | cons a r => simpa using this
  have hpl : prefixLen (rx.take (headerLen u)) = headerLen u := by
    rw [prefixLen_take_header hh, length_take_header hh]
  have hplrx : prefixLen rx = headerLen u := by
    rw [← hpl, prefixLen, prefixLen, headD_take_header hh, hhead]
  have hstart := prefixLen_of_starts (take_header_ne_nil hh) hans.starts
  rw [hpl] at hstart
  have hresp : resp = s'.txBuffer.data := by
    have hmem : Effect.answer resp ∈ out0 := by
      rcases hout with rfl | rfl
      · exact ha
      · simpa using ha
    rw [hans.out_eq] at hmem
    rcases List.mem_cons.mp hmem with hm | hm
    · cases hm
    rcases List.mem_append.mp hm with hm | hm
    · exact absurd (handleApdu_engineSide _ _ _ _ _ hm) id
    · simpa using hm
  have hlen := length_take_header hh
  have hseg : blockAt s'.txBuffer.data s0.expectedPcdBlock (rx.take (headerLen u)).length =
      segment resp (blockNumber (rx.headD 0)) 0 := by
    have hn : s0.expectedPcdBlock = numberAt (blockNumber (rx.headD 0)) 0 := by
      rw [hnum, hhead, he.number]; simp [numberAt]
    rw [segment, offsetAt, hresp, hstart, hlen, hn, Nat.zero_mul, Nat.add_zero]
  have hib : iBlocks out = [segment resp (blockNumber (rx.headD 0)) 0] := by
    rw [← hseg, ← iBlocks_answered hans (hinv.cached hans.valid).1]
    rcases hout with rfl | rfl <;> rfl
  refine ⟨{ inv := hinv, txBuffer := hresp.symm, whole := ?_, valid := hans.valid, closed := ?_, picc := ?_,
            cached := ?_, offset := ?_, more := fun i hi => absurd hi (Nat.not_lt_zero i), sent := ?_, last := ?_ }, ?_⟩
  · rw [hresp]; exact hans.sendable.whole
  · show s'.commandLen = 0
    rw [hans.commandLen]; exact hclosed
  · show s'.piccBlock = _
    rw [hans.picc, hnum, ← he.number, hhead]; simp [numberAt]
  · show cachedFrame s' = _
    rw [cachedFrame, hans.frame, hseg]
  · show s'.responseOffset = _
    rw [hans.offset, hlen, hresp, offsetAt, hstart, Nat.zero_mul, Nat.add_zero]
  · rw [hib]; rfl
  · rw [hib]; rfl
  · obtain ⟨t, ht⟩ := hans.starts
    rw [cidOctet, cidOctet, hresp, hstart, hplrx, ← ht, List.take_append_of_le_length (by omega), List.take_take,
      Nat.min_self]

/-! ## Runs -/

/-- From any reachable state, whatever response `resp` answers the frame `rx`, and whatever
    events follow up to the next accepted I-block or reset: without the replays, the
    I-blocks sent are the response in order, and the response buffer still holds it. -/
theorem response_in_order (hk : E.KeepsPrefix) {st : σ} {s : Listener L σ} {rx resp : Octets}
    (hs : ListenerReachable E st s) (ha : .answer resp ∈ (workerListenerCallback E s (.receivedData rx)).2)
    (evs : List Event)
    (hq : ∀ e ∈ (run (workerListenerCallback E) (workerListenerCallback E s (.receivedData rx)).1 evs).2, e.quiet) :
    let first := workerListenerCallback E s (.receivedData rx)
    let later := run (workerListenerCallback E) first.1 evs
    InOrder rx resp later.1.responseOffset (iBlocks (first.2 ++ later.2)).eraseReps ∧
      later.1.txBuffer.data = resp := by
  obtain ⟨u, s0, apdu, ht⟩ := rx_answer hk (inv_reachable hk hs) (receivedData_rx s rx) ha
  obtain ⟨h0, hcid⟩ := ht.sending ha
  obtain ⟨k, hend⟩ := run_logged_inv (fun a => ∃ k, Sending resp (blockNumber (rx.headD 0)) k a)
    (fun a ev ⟨k, h⟩ hq => sending_callback h ev hq) evs _ ⟨0, h0⟩ hq
  refine ⟨?_, hend.txBuffer⟩
  have hord := inOrder_segments hend.whole hcid hend.more hend.offset
  rwa [← hend.sent] at hord

/-- A response of three blocks: the first one and the second repeated by R(NAK), the others fetched by R(ACK). -/
theorem response_in_order_read :
    let first := workerListenerCallback (dataEngine 130) (listenerInit smallLimits ()) (.receivedData [0x02, 0xAD])
    let later := run (workerListenerCallback (dataEngine 130)) first.1
      [.receivedData [0xB2], .receivedData [0xA3], .receivedData [0xB3], .receivedData [0xA2]]
    InOrder [0x02, 0xAD] (0x02 :: 0x00 :: List.replicate 130 0xA5) later.1.responseOffset (iBlocks (first.2 ++ later.2)).eraseReps ∧
      later.1.txBuffer.data = 0x02 :: 0x00 :: List.replicate 130 0xA5 := by
  have hk : (dataEngine 130).KeepsPrefix := appending_keepsPrefix _ _
  have hr : ListenerReachable (dataEngine 130) () (listenerInit smallLimits ()) := Reachable.init _
  exact response_in_order hk hr (by decide +kernel) _ (by decide +kernel)

end DfcFlipper.IsoDep
