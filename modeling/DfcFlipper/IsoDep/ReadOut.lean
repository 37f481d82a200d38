/-
  DfcFlipper.IsoDep.ReadOut — a response as the reader gets it, from the frames sent.

  The last block of a command hands the whole command on (`receivedData_whole`), and its answer
  is the first block of a response. A reader acknowledges each chained block it gets until one
  ends the response (`readOut`); what it has then are the INFs of the I-blocks sent.

  `readOut_received`: that is the response behind its prefix, whole, and nothing of it is
  left to send, as long as the engine left the prefix in place for this one command. The
  acknowledgements call no engine (`readOut_engine`).
-/

import DfcFlipper.IsoDep.Frames
import DfcFlipper.IsoDep.Response

namespace DfcFlipper.IsoDep

open DfcFlipper.Lib.Bytes DfcFlipper.Lib.Run

variable {L : Limits} {σ : Type} {E : Engine L σ}

/-! ## Engine calls -/

instance : ∀ e : Effect, Decidable e.engineSide
  | .select _ => isTrue trivial
  | .command _ => isTrue trivial
  | .notify _ => isTrue trivial
  | .tx _ => isFalse id
  | .resetActivation => isFalse id
  | .append _ => isFalse id
  | .dispatch _ => isFalse id
  | .answer _ => isFalse id

def engineCalls (out : List Effect) : List Effect := out.filter fun e => decide e.engineSide

theorem engineCalls_append (a b : List Effect) : engineCalls (a ++ b) = engineCalls a ++ engineCalls b :=
  List.filter_append ..

theorem engineCalls_cons {e : Effect} {out : List Effect} (he : ¬e.engineSide) : engineCalls (e :: out) = engineCalls out :=
  List.filter_cons_of_neg (by simpa using he)

theorem engineCalls_engineSide {out : List Effect} (h : ∀ e ∈ out, e.engineSide) : engineCalls out = out := by
  rw [engineCalls, List.filter_eq_self]
  intro e he
  simpa using h e he

theorem engineCalls_sendFrame (frame : Octets) : engineCalls (sendFrame L frame) = [] := by
  unfold sendFrame
  split
  · exact engineCalls_cons id
  · rfl

theorem engineCalls_sendControl (pcb : UInt8) (u : Bool) (c : UInt8) : engineCalls (sendControl L pcb u c) = [] :=
  engineCalls_sendFrame _

theorem sendNextIResponse_engine (s : Listener L σ) :
    (sendNextIResponse s).1.engine = s.engine ∧ engineCalls (sendNextIResponse s).2 = [] := by
  unfold sendNextIResponse
  simp only
  split
  · exact ⟨rfl, rfl⟩
  · exact ⟨rfl, engineCalls_sendFrame _⟩

theorem sendIResponse_engine (s : Listener L σ) :
    (sendIResponse s).1.engine = s.engine ∧ engineCalls (sendIResponse s).2 = [] := by
  unfold sendIResponse
  split
  · exact ⟨rfl, rfl⟩
  · obtain ⟨he, hc⟩ := sendNextIResponse_engine { s with
      piccBlock := s.expectedPcdBlock
      expectedPcdBlock := !s.expectedPcdBlock
      responseOffset := prefixLen s.txBuffer.data }
    exact ⟨he, (engineCalls_cons id).trans hc⟩

/-- A whole APDU does to the engine what `handleApdu` says, and no more. -/
theorem dispatch_engine (E : Engine L σ) (s : Listener L σ) (header apdu : Octets) :
    let r := handleApdu E s.engine header.length apdu (DfcByteBuf.empty.appendBytes header)
    (dispatch E s header apdu).1.engine = r.state ∧ engineCalls (dispatch E s header apdu).2 = r.effects := by
  intro r
  have hside : ∀ e ∈ r.effects, e.engineSide := handleApdu_engineSide _ _ _ _
  obtain ⟨he, hc⟩ := sendIResponse_engine { s with engine := r.state, txBuffer := r.txBuffer }
  refine ⟨he, ?_⟩
  show engineCalls (.dispatch apdu :: r.effects ++ (sendIResponse { s with engine := r.state, txBuffer := r.txBuffer }).2) = _
  rw [List.cons_append, engineCalls_cons id, engineCalls_append, engineCalls_engineSide hside, hc, List.append_nil]

/-- Nor does an R-block do anything to it. -/
theorem rFrame_engine (s : Listener L σ) (nak n : Bool) (cid : Option UInt8) :
    (receivedData E s (rFrame nak n cid)).1.engine = s.engine ∧ engineCalls (receivedData E s (rFrame nak n cid)).2 = [] := by
  rw [receivedData_rBlock (rFrame_rBlock nak n cid)]
  unfold receivedRBlock
  split
  · exact ⟨rfl, rfl⟩
  split
  · exact ⟨rfl, rfl⟩
  split
  · exact ⟨rfl, engineCalls_sendFrame _⟩
  split
  · exact sendNextIResponse_engine { s with piccBlock := !s.piccBlock }
  split
  · exact ⟨rfl, engineCalls_sendControl _ _ _⟩
  · exact ⟨rfl, rfl⟩

/-! ## The last block of a command -/

/-- `s0` is the listener the whole command `apdu` is handed to, once its last block `rx` is taken. -/
structure Whole (s : Listener L σ) (rx : Octets) (u : Bool) (c : UInt8) (s0 : Listener L σ) (apdu : Octets) : Prop where
  apdu_eq : apdu = s.command.take s.commandLen ++ rx.drop (headerLen u)
  sized : Sized s0
  engine : s0.engine = s.engine
  closed : s0.commandLen = 0
  number : s0.expectedPcdBlock = s.expectedPcdBlock
  bound : cidMismatch s0 u c = false

theorem receivedData_whole {s : Listener L σ} {rx : Octets} {pcb : UInt8} {u : Bool} {c : UInt8} (hs : Sized s)
    (h : Expected s rx pcb u c) (ho : s.responseOffset = 0) (hl : headerLen u < rx.length)
    (hfit : s.commandLen = 0 ∨ (rx.drop (headerLen u)).length ≤ L.workerMaxBufferSize - s.commandLen)
    (hm : chaining pcb = false) :
    ∃ s0 apdu front, Whole s rx u c s0 apdu ∧ (front = [] ∨ front = [.append (rx.drop (headerLen u))]) ∧
      receivedData E s rx = ((dispatch E s0 (rx.take (headerLen u)) apdu).1,
        front ++ (dispatch E s0 (rx.take (headerLen u)) apdu).2) := by
  by_cases hc : s.commandLen = 0
  · refine ⟨bindCid s u c, rx.drop (headerLen u), [], ?_, Or.inl rfl, receivedData_single h ho hl hm hc⟩
    exact { apdu_eq := by rw [hc]; rfl, sized := sized_bindCid hs u c, engine := by simp, closed := by simpa using hc,
            number := by simp, bound := cidMismatch_bindCid s u c }
  · have hroom := hfit.resolve_left hc
    have ha := sized_appendInf (sized_bindCid hs u c) (by rw [bindCid_commandLen]; exact hroom)
    have heq := receivedData_lastBlock (E := E) h ho hl hroom hm hc
    rw [take_appendInf hs] at heq
    refine ⟨dropChain (appendInf (bindCid s u c) (rx.drop (headerLen u))), _, [.append (rx.drop (headerLen u))], ?_,
      Or.inr rfl, heq⟩
    exact { apdu_eq := rfl, sized := sized_dropChain ha, engine := by simp [dropChain, appendInf], closed := rfl,
            number := by simp [dropChain, appendInf], bound := cidMismatch_bindCid s u c }

/-! ## Reading the response out -/

/-- The reader's R(ACK) to an I-block: the next number, the same CID. -/
def ackTo (cid : Option UInt8) (frame : Octets) : Event := .receivedData (rFrame false (!blockNumber (frame.headD 0)) cid)

/-- As long as the I-block sent last is chained the reader acknowledges it, up to `n` times. -/
def readOut (E : Engine L σ) (cid : Option UInt8) : Nat → Listener L σ × List Effect → Listener L σ × List Effect
  | 0, a => a
  | n + 1, a =>
    match (iBlocks a.2).getLast? with
    | none => a
    | some frame =>
      if chaining (frame.headD 0) then readOut E cid n (logged (workerListenerCallback E) a (ackTo cid frame)) else a

theorem readOut_engine (cid : Option UInt8) (n : Nat) : ∀ a : Listener L σ × List Effect,
    (readOut E cid n a).1.engine = a.1.engine ∧ engineCalls (readOut E cid n a).2 = engineCalls a.2 := by
  induction n with
  | zero => exact fun a => ⟨rfl, rfl⟩
  | succ n ih =>
    intro a
    unfold readOut
    split
    · exact ⟨rfl, rfl⟩
    rename_i frame _
    split
    · obtain ⟨he, hc⟩ := ih (logged (workerListenerCallback E) a (ackTo cid frame))
      obtain ⟨he', hc'⟩ := rFrame_engine (E := E) a.1 false (!blockNumber (frame.headD 0)) cid
      refine ⟨he.trans he', hc.trans ?_⟩
      show engineCalls (a.2 ++ _) = _
      rw [engineCalls_append]
      exact (congrArg (engineCalls a.2 ++ ·) hc').trans (List.append_nil _)
    · exact ⟨rfl, rfl⟩

/-- The listener stands behind segment `k`, and each segment was sent once. -/
structure SentOnce (resp : Octets) (number : Bool) (cid : Option UInt8) (k : Nat) (a : Listener L σ × List Effect) : Prop
    extends Sending resp number k a where
  once : iBlocks a.2 = segments resp number (k + 1)
  bound : cidMismatch a.1 cid.isSome (cid.getD 0) = false

theorem SentOnce.ack {resp : Octets} {number : Bool} {cid : Option UInt8} {k : Nat} {a : Listener L σ × List Effect}
    (h : SentOnce resp number cid k a) (hm : moreAt resp (offsetAt resp k) = true) :
    SentOnce resp number cid (k + 1) (logged (workerListenerCallback E) a (ackTo cid (segment resp number k))) := by
  have ho : a.1.responseOffset ≠ 0 := by
    rw [h.offset, ne_eq, ← moreAt_last, hm]
    simp
  have hn : (!blockNumber ((segment resp number k).headD 0)) ≠ a.1.piccBlock := by
    rw [segment_number, h.picc]
    simp
  have hstep := receivedData_ack (E := E) h.bound hn ho
  have hnext : Sending resp number (k + 1)
      (nextSent a.1, a.2 ++ (sendNextIResponse { a.1 with piccBlock := !a.1.piccBlock }).2) := h.toSending.next ho
  have hseg : iBlocks (sendNextIResponse { a.1 with piccBlock := !a.1.piccBlock }).2 = [segment resp number (k + 1)] := by
    rw [iBlocks_nextBlock h.inv ho, h.txBuffer, h.picc, ← numberAt_succ, h.offset, nextOffset, if_pos hm, ← offsetAt_succ]
    rfl
  have hcid : cidMismatch (nextSent a.1) cid.isSome (cid.getD 0) = false := by
    rw [(nextSent_eq h.inv ho).1]
    exact h.bound
  show SentOnce resp number cid (k + 1) ((receivedData E a.1 (rFrame _ _ cid)).1, a.2 ++ (receivedData E a.1 (rFrame _ _ cid)).2)
  rw [hstep]
  exact { hnext with
    once := by rw [iBlocks_append, h.once, hseg, ← segments_succ]
    bound := hcid }

/-- Each acknowledged block carries some of the response, so that as many as there are octets are enough. -/
theorem SentOnce.readOut {resp : Octets} {number : Bool} {cid : Option UInt8} (n : Nat) :
    ∀ {k : Nat} {a : Listener L σ × List Effect}, SentOnce resp number cid k a → resp.length ≤ offsetAt resp k + n →
      ∃ k', SentOnce resp number cid k' (readOut E cid n a) ∧ (IsoDep.readOut E cid n a).1.responseOffset = 0 := by
  induction n with
  | zero =>
    intro k a h hn
    refine ⟨k, h, ?_⟩
    have hlast : moreAt resp (offsetAt resp k) = false := by
      rw [moreAt, decide_eq_false_iff_not]
      omega
    show a.1.responseOffset = 0
    rw [h.offset, (moreAt_last _ _).mp hlast]
  | succ n ih =>
    intro k a h hn
    have hlast : (iBlocks a.2).getLast? = some (segment resp number k) := h.last
    unfold IsoDep.readOut
    rw [hlast]
    simp only [segment_chaining]
    cases hm : moreAt resp (offsetAt resp k) with
    | false =>
      rw [if_neg Bool.false_ne_true]
      exact ⟨k, h, by rw [h.offset, (moreAt_last _ _).mp hm]⟩
    | true =>
      rw [if_pos rfl]
      have hpos := chunkMax_pos resp
      exact ih (h.ack hm) (by rw [offsetAt_succ]; omega)

/-- The first block of the response to a whole command. -/
theorem whole_sentOnce {s : Listener L σ} {rx apdu : Octets} {pcb : UInt8} {cid : Option UInt8} {s0 : Listener L σ}
    {front log : List Effect} (h : Expected s rx pcb cid.isSome (cid.getD 0)) (hm : chaining pcb = false)
    (hw : Whole s rx cid.isSome (cid.getD 0) s0 apdu) (hf : front = [] ∨ front = [.append (rx.drop (headerLen cid.isSome))])
    (hlog : iBlocks log = [])
    (hpre : rx.take (headerLen cid.isSome) <+:
      (handleApdu E s.engine (headerLen cid.isSome) apdu (DfcByteBuf.empty.appendBytes (rx.take (headerLen cid.isSome)))).txBuffer.data) :
    let resp := (handleApdu E s.engine (headerLen cid.isSome) apdu
      (DfcByteBuf.empty.appendBytes (rx.take (headerLen cid.isSome)))).txBuffer.data
    let r := dispatch E s0 (rx.take (headerLen cid.isSome)) apdu
    prefixLen resp = headerLen cid.isSome ∧
      SentOnce resp (blockNumber (rx.headD 0)) cid 0 (r.1, log ++ (front ++ r.2)) := by
  intro resp r
  have hlen := length_take_header h.toHeader
  have hh := prefixLen_take_header h.toHeader
  have ha : Answered E s0 (rx.take (headerLen cid.isSome)) apdu r.1 r.2 := by
    refine dispatch_starts hw.sized.frame_size hh ?_
    rw [hlen, hw.engine]
    exact hpre
  have hi : Inv r.1 := inv_answered hw.sized (by rw [headD_take_header h.toHeader]; exact h.kind)
    (take_header_ne_nil h.toHeader) hw.closed ha
  have hresp : r.1.txBuffer.data = resp := by
    rw [ha.response, hlen, hw.engine]
    rfl
  have hout : Effect.answer r.1.txBuffer.data ∈ front ++ r.2 := by
    rw [ha.out_eq]
    simp
  have ht : Taken E s rx r.1 (front ++ r.2) cid.isSome s0 apdu := by
    refine ⟨⟨pcb, _, h, hm⟩, hw.closed, hw.number, hi, r.2, ?_, ha⟩
    rcases hf with rfl | rfl
    · exact Or.inl rfl
    · exact Or.inr rfl
  obtain ⟨hs, _⟩ := ht.sending hout
  rw [hresp] at hs
  have honce : iBlocks (front ++ r.2) = segments resp (blockNumber (rx.headD 0)) 1 := by
    have hb := iBlocks_answered ha (hi.cached ha.valid).1
    have hlast := hs.last
    have hfront : iBlocks (front ++ r.2) = iBlocks r.2 := by rcases hf with rfl | rfl <;> rfl
    simp only [hfront, hb, List.getLast?_singleton, Option.some.injEq] at hlast ⊢
    rw [hlast]
    rfl
  have hbound : cidMismatch r.1 cid.isSome (cid.getD 0) = false := by
    have := hw.bound
    rw [cidMismatch, ha.cidValid, ha.cid]
    exact this
  refine ⟨?_, { hs with sent := ?_, last := ?_, once := ?_, bound := hbound }⟩
  · rw [← hresp, prefixLen_of_starts (take_header_ne_nil h.toHeader) ha.starts, hh, hlen]
  · show (iBlocks (log ++ (front ++ r.2))).eraseReps = _
    rw [iBlocks_append, hlog]
    exact hs.sent
  · show (iBlocks (log ++ (front ++ r.2))).getLast? = _
    rw [iBlocks_append, hlog]
    exact hs.last
  · show iBlocks (log ++ (front ++ r.2)) = _
    rw [iBlocks_append, hlog]
    exact honce

/-- What the reader has read out is the response without its prefix, and nothing is left of it. -/
theorem readOut_received {s : Listener L σ} {rx apdu : Octets} {pcb : UInt8} {cid : Option UInt8} {s0 : Listener L σ}
    {front log : List Effect} (h : Expected s rx pcb cid.isSome (cid.getD 0)) (hm : chaining pcb = false)
    (hw : Whole s rx cid.isSome (cid.getD 0) s0 apdu) (hf : front = [] ∨ front = [.append (rx.drop (headerLen cid.isSome))])
    (hlog : iBlocks log = [])
    (hpre : rx.take (headerLen cid.isSome) <+:
      (handleApdu E s.engine (headerLen cid.isSome) apdu (DfcByteBuf.empty.appendBytes (rx.take (headerLen cid.isSome)))).txBuffer.data) :
    let r := dispatch E s0 (rx.take (headerLen cid.isSome)) apdu
    let b := readOut E cid L.bytebufMax (r.1, log ++ (front ++ r.2))
    (iBlocks b.2).flatMap inf = (handleApdu E s.engine (headerLen cid.isSome) apdu
      (DfcByteBuf.empty.appendBytes (rx.take (headerLen cid.isSome)))).txBuffer.data.drop (headerLen cid.isSome) ∧
      b.1.responseOffset = 0 := by
  intro r b
  obtain ⟨hpl, h0⟩ := whole_sentOnce h hm hw hf hlog hpre
  obtain ⟨k, hk, ho⟩ := h0.readOut (E := E) L.bytebufMax (by
    have := (handleApdu E s.engine (headerLen cid.isSome) apdu
      (DfcByteBuf.empty.appendBytes (rx.take (headerLen cid.isSome)))).txBuffer.fits
    omega)
  refine ⟨?_, ho⟩
  rw [hk.once, segments_whole _ hk.whole (by rw [← hk.offset]; exact ho), payload, hpl]

end DfcFlipper.IsoDep
