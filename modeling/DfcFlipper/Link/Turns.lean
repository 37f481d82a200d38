/-
  DfcFlipper.Link.Turns — the listener's turn, given the reader's.

  `listen` is the listener on one block of a reader. For a reader that always uses one CID
  each of its four blocks has one outcome, given by what the listener holds:
  `listen_nak`, `listen_ack`, `listen_repeated`, and for an expected I-block
  `listen_chained`, `listen_whole`.

  `Standing s cur tail`: the listener has a response out, the INF of its current block is
  `cur` and `tail` is still to come. A repetition shows `cur` again (`Standing.replay`), the
  reader's R(ACK) makes it show the next part of `tail` (`Standing.next`), and an
  answered APDU starts with the whole response (`answered_standing`).
-/

import DfcFlipper.IsoDep.Delivery
import DfcFlipper.Link.Client

namespace DfcFlipper.Link

open DfcFlipper.Lib.Bytes DfcFlipper.Lib.Run DfcFlipper.IsoDep

variable {L : Limits} {σ : Type} {E : Engine L σ}

def listen (E : Engine L σ) (cid : Option UInt8) (s : Listener L σ) (f : Sent) : Listener L σ × List Effect :=
  workerListenerCallback E s (.receivedData (f.encode cid))

def frameOf (out : List Effect) : Option Octets := out.findSome? Effect.frame?

/-! ## What a turn does -/

def Effect.answer? : Effect → Option Octets
  | .answer response => some response
  | _ => none

/-- The payloads of the responses the listener set out to send. -/
def heard (out : List Effect) : List Octets := (out.filterMap Effect.answer?).map payload

theorem heard_append (a b : List Effect) : heard (a ++ b) = heard a ++ heard b := by
  rw [heard, List.filterMap_append, List.map_append]; rfl

theorem heard_engineSide {out : List Effect} (h : ∀ e ∈ out, e.engineSide) : heard out = [] := by
  rw [heard, List.filterMap_eq_nil_iff.mpr]
  · rfl
  · intro e he
    have hs := h e he
    cases e <;> first | rfl | cases hs

def Plain (out : List Effect) : Prop := engineCalls out = [] ∧ heard out = []

theorem plain_nil : Plain [] := ⟨rfl, rfl⟩

theorem plain_sendFrame (frame : Octets) : Plain (sendFrame L frame) := by
  refine ⟨engineCalls_sendFrame frame, ?_⟩
  unfold sendFrame
  split <;> rfl

theorem plain_sendNextIResponse (s : Listener L σ) : Plain (sendNextIResponse s).2 := by
  refine ⟨(sendNextIResponse_engine s).2, ?_⟩
  unfold sendNextIResponse
  simp only
  split
  · rfl
  · exact (plain_sendFrame _).2

theorem plain_chained (inf : Octets) (pcb : UInt8) (u : Bool) (c : UInt8) :
    Plain (.append inf :: sendControl L pcb u c) := by
  obtain ⟨hc, ha⟩ := plain_sendFrame (L := L) (if u then [pcb ||| cidMask, c] else [pcb])
  exact ⟨(engineCalls_cons id).trans hc, ha⟩

def unbound (s : Listener L σ) (cid : Option UInt8) : Bool := cidMismatch s cid.isSome (cid.getD 0)

/-- Only before the first I-block. -/
def Bound (s : Listener L σ) (cid : Option UInt8) : Prop :=
  unbound s cid = true → s.lastResponseValid = false ∧ s.commandLen = 0

theorem Bound.same {s : Listener L σ} {cid : Option UInt8} (h : Bound s cid) (hb : s.lastResponseValid = true ∨ s.commandLen ≠ 0) :
    unbound s cid = false := by
  cases hu : unbound s cid with
  | false => rfl
  | true =>
    obtain ⟨hv, hc⟩ := h hu
    rcases hb with hb | hb
    · rw [hv] at hb; cases hb
    · exact absurd hc hb

/-! ## Control blocks -/

theorem listen_unbound (E : Engine L σ) {s : Listener L σ} {cid : Option UInt8} (nak n : Bool) (h : unbound s cid = true) :
    receivedData E s (rFrame nak n cid) = (s, []) := by
  have hb := rFrame_rBlock nak n cid
  have hk : ¬(rPcb nak n cid.isSome &&& 0xE6 ≠ 0xA2 ∨ (rFrame nak n cid).length ≠ headerLen cid.isSome) := by
    simp [hb.kind, hb.bare]
  have hm : cidMismatch s cid.isSome (cid.getD 0) = true := h
  rw [receivedData_rBlock hb, receivedRBlock, if_neg hk, if_pos hm]

/-- R(NAK): the cached frame again, or R(ACK). -/
theorem listen_nak (E : Engine L σ) {s : Listener L σ} {cid : Option UInt8} (n : Bool) (h : unbound s cid = false) :
    listen E cid s (.nak n) = (s, if s.lastResponseValid = true ∧ n = s.piccBlock then sendFrame L (cachedFrame s)
      else sendControl L (0xA2 ||| s.piccBlock.toUInt8) cid.isSome (cid.getD 0)) := by
  have hb := rFrame_rBlock true n cid
  have hk : ¬(rPcb true n cid.isSome &&& 0xE6 ≠ 0xA2 ∨ (rFrame true n cid).length ≠ headerLen cid.isSome) := by
    simp [hb.kind, hb.bare]
  have hnak : rPcb true n cid.isSome &&& 0x10 ≠ 0 := by rw [ne_eq, rPcb_nak]; simp
  have hm : cidMismatch s cid.isSome (cid.getD 0) ≠ true := by rw [show cidMismatch s _ _ = unbound s cid from rfl, h]; simp
  show receivedData E s (rFrame true n cid) = _
  rw [receivedData_rBlock hb, receivedRBlock, if_neg hk, if_neg hm, rPcb_number]
  by_cases hv : s.lastResponseValid = true ∧ n = s.piccBlock
  · rw [if_pos hv, if_pos hv]; rfl
  · rw [if_neg hv, if_neg hv, if_neg (fun hc => hnak hc.2), if_pos hnak]

/-- R(ACK) under the listener's own number: the cached frame again. -/
theorem listen_ack_same (E : Engine L σ) {s : Listener L σ} {cid : Option UInt8} {n : Bool} (h : unbound s cid = false)
    (hv : s.lastResponseValid = true) (hn : n = s.piccBlock) :
    listen E cid s (.ack n) = (s, sendFrame L (cachedFrame s)) := by
  have hb := rFrame_rBlock false n cid
  have hk : ¬(rPcb false n cid.isSome &&& 0xE6 ≠ 0xA2 ∨ (rFrame false n cid).length ≠ headerLen cid.isSome) := by
    simp [hb.kind, hb.bare]
  have hm : cidMismatch s cid.isSome (cid.getD 0) ≠ true := by rw [show cidMismatch s _ _ = unbound s cid from rfl, h]; simp
  show receivedData E s (rFrame false n cid) = _
  rw [receivedData_rBlock hb, receivedRBlock, if_neg hk, if_neg hm, rPcb_number, if_pos ⟨hv, hn⟩]
  rfl

/-- R(ACK) under the other number: the next block. -/
theorem listen_ack_next (E : Engine L σ) {s : Listener L σ} {cid : Option UInt8} {n : Bool} (h : unbound s cid = false)
    (hn : n ≠ s.piccBlock) (ho : s.responseOffset ≠ 0) :
    listen E cid s (.ack n) = (nextSent s, (sendNextIResponse { s with piccBlock := !s.piccBlock }).2) :=
  receivedData_ack h hn ho

/-! ## I-blocks -/

/-- An I-block taken before: the cached frame again, or R(ACK) inside a chain. -/
theorem listen_repeated (E : Engine L σ) {s : Listener L σ} {cid : Option UInt8} {n more : Bool} {inf : Octets}
    (h : unbound s cid = false) (hn : n ≠ s.expectedPcdBlock) (hb : s.lastResponseValid = true ∨ s.commandLen ≠ 0) :
    listen E cid s (.iBlock n more inf) = (s, if s.commandLen = 0 then sendFrame L (cachedFrame s)
      else sendControl L (0xA2 ||| (iPcb n more cid.isSome &&& 1)) cid.isSome (cid.getD 0)) := by
  have hi := iFrame_iBlock n more cid inf
  have hk : ¬(iPcb n more cid.isSome &&& 0xE2 ≠ 0x02 ∨ iPcb n more cid.isSome &&& nadMask ≠ 0) := by
    have hkind : iPcb n more cid.isSome &&& 0xE2 = 0x02 := hi.kind
    simp [hkind, hi.noNad]
  have hm : cidMismatch s cid.isSome (cid.getD 0) = false := h
  show receivedData E s (iFrame n more cid inf) = _
  rw [receivedData_iBlock hi, receivedIBlock, if_neg hk, if_neg (by rw [hm]; simp), bindCid_eq hm, addressedIBlock,
    iPcb_number, if_pos hn]
  by_cases hc : s.commandLen = 0
  · rw [if_pos hc, if_pos ⟨hb.resolve_right (by simp [hc]), hc⟩]; rfl
  · rw [if_neg hc, if_neg (fun hv => hc hv.2), if_pos hc]

/-- The reader's I-block under the expected number. -/
theorem expected_sent {s : Listener L σ} {cid : Option UInt8} (hb : Bound s cid) (more : Bool) (inf : Octets) :
    Expected s (iFrame s.expectedPcdBlock more cid inf) (iPcb s.expectedPcdBlock more cid.isSome) cid.isSome (cid.getD 0) :=
  { iFrame_iBlock s.expectedPcdBlock more cid inf with addressed := hb, number := iPcb_number _ _ _ }

theorem iFrame_long (n more : Bool) (cid : Option UInt8) {inf : Octets} (h : inf ≠ []) :
    headerLen cid.isSome < (iFrame n more cid inf).length := by
  have := List.length_pos_iff.mpr h
  rw [length_iFrame]; omega

theorem listen_chained (E : Engine L σ) {s : Listener L σ} {cid : Option UInt8} {inf : Octets} (hb : Bound s cid)
    (ho : s.responseOffset = 0) (hinf : inf ≠ []) (hfit : s.commandLen + inf.length ≤ L.workerMaxBufferSize) :
    listen E cid s (.iBlock s.expectedPcdBlock true inf) =
      (toggleExpected (appendInf (bindCid s cid.isSome (cid.getD 0)) inf), .append inf ::
        sendControl L (0xA2 ||| (iPcb s.expectedPcdBlock true cid.isSome &&& 1)) cid.isSome (cid.getD 0)) := by
  have h := receivedData_chained (E := E) (expected_sent hb true inf) ho (iFrame_long _ _ _ hinf)
    (by rw [iFrame_inf]; omega) (iPcb_chaining _ _ _)
  rw [iFrame_inf] at h
  exact h

/-- The last block of a command: the listener has the whole command and hands it on. -/
theorem listen_whole (E : Engine L σ) {s : Listener L σ} {cid : Option UInt8} {inf : Octets} (hs : Sized s) (hb : Bound s cid)
    (ho : s.responseOffset = 0) (hinf : inf ≠ []) (hfit : s.commandLen + inf.length ≤ L.workerMaxBufferSize) :
    ∃ s0 apdu front, Whole s (iFrame s.expectedPcdBlock false cid inf) cid.isSome (cid.getD 0) s0 apdu ∧ Plain front ∧
      frameOf front = none ∧ listen E cid s (.iBlock s.expectedPcdBlock false inf) =
        ((dispatch E s0 ((iFrame s.expectedPcdBlock false cid inf).take (headerLen cid.isSome)) apdu).1,
          front ++ (dispatch E s0 ((iFrame s.expectedPcdBlock false cid inf).take (headerLen cid.isSome)) apdu).2) := by
  obtain ⟨s0, apdu, front, hw, hf, heq⟩ := receivedData_whole (E := E) hs (expected_sent hb false inf) ho
    (iFrame_long s.expectedPcdBlock false cid hinf) (by rw [iFrame_inf]; omega) (iPcb_chaining _ _ _)
  refine ⟨s0, apdu, front, hw, ?_, ?_, heq⟩
  · rcases hf with rfl | rfl
    · exact plain_nil
    · exact ⟨engineCalls_cons id, rfl⟩
  · rcases hf with rfl | rfl <;> rfl

/-! ## A response on its way -/

theorem drop_chunk (resp : Octets) (off : Nat) : resp.drop off = chunkAt resp off ++ resp.drop (off + chunkMax resp) := by
  rw [chunkAt, ← List.drop_drop, List.take_append_drop]

theorem moreAt_iff (resp : Octets) (off : Nat) : moreAt resp off = true ↔ resp.drop (off + chunkMax resp) ≠ [] := by
  rw [moreAt, decide_eq_true_iff, ne_eq, List.drop_eq_nil_iff]; omega

structure Standing (s : Listener L σ) (cur tail : Octets) : Prop where
  valid : s.lastResponseValid = true
  closed : s.commandLen = 0
  turned : s.expectedPcdBlock = !s.piccBlock
  iPcb : isIPcb (s.txBuffer.data.headD 0)
  part : ∃ off, Sendable s.txBuffer.data off ∧ cachedFrame s = blockAt s.txBuffer.data s.piccBlock off ∧
    s.responseOffset = nextOffset s.txBuffer.data off ∧ chunkAt s.txBuffer.data off = cur ∧
    s.txBuffer.data.drop (off + chunkMax s.txBuffer.data) = tail

structure Shows (f : Octets) (number : Bool) (cur tail : Octets) : Prop where
  pcb : decodePcb (f.headD 0) = .iBlock number (!tail.isEmpty)
  inf : inf f = cur

theorem shows_blockAt {resp : Octets} {off : Nat} (hi : isIPcb (resp.headD 0)) (hs : Sendable resp off) (number : Bool) :
    Shows (blockAt resp number off) number (chunkAt resp off) (resp.drop (off + chunkMax resp)) := by
  refine ⟨?_, inf_blockAt number off hs.whole⟩
  rw [decodePcb, if_pos (blockAt_isIPcb hi _ _)]
  show Answer.iBlock (blockNumber (headerByte _ _ _)) (chaining (headerByte _ _ _)) = _
  rw [headerByte_number, headerByte_chaining]
  congr 1
  by_cases hnil : resp.drop (off + chunkMax resp) = []
  · rw [hnil, Bool.eq_false_iff.mpr (mt (moreAt_iff resp off).mp (by simp [hnil]))]; rfl
  · rw [(moreAt_iff resp off).mpr hnil, List.isEmpty_eq_false_iff.mpr hnil]; rfl

/-- What the listener holds is shown again. -/
theorem Standing.replay {s : Listener L σ} {cur tail : Octets} (h : Standing s cur tail) :
    ∃ f, sendFrame L (cachedFrame s) = [.tx f] ∧ Shows f s.piccBlock cur tail := by
  obtain ⟨off, hs, hc, _, rfl, rfl⟩ := h.part
  refine ⟨_, ?_, shows_blockAt h.iPcb hs s.piccBlock⟩
  rw [hc]
  exact sendFrame_blockAt s.txBuffer s.piccBlock hs

theorem Standing.offset {s : Listener L σ} {cur tail : Octets} (h : Standing s cur tail) :
    s.responseOffset ≠ 0 ↔ tail ≠ [] := by
  obtain ⟨off, hs, _, ho, _, rfl⟩ := h.part
  rw [ho, ← moreAt_iff, nextOffset]
  have hpos := chunkMax_pos s.txBuffer.data
  cases hmore : moreAt s.txBuffer.data off with
  | false => simp
  | true =>
    rw [if_pos rfl]
    exact iff_of_true (by omega) rfl

/-- What is left behind the current block is counted by the offset. -/
theorem Standing.left {s : Listener L σ} {cur tail : Octets} (h : Standing s cur tail) (ht : tail ≠ []) :
    s.txBuffer.data.length - s.responseOffset = tail.length := by
  obtain ⟨off, hs, _, ho, _, rfl⟩ := h.part
  rw [ho, nextOffset, if_pos ((moreAt_iff _ _).mpr ht), List.length_drop]

/-- The block after the current one. -/
theorem Standing.next {s : Listener L σ} {cur tail : Octets} (hi : Inv s) (h : Standing s cur tail) (ht : tail ≠ []) :
    ∃ cur' tail' f, tail = cur' ++ tail' ∧ cur' ≠ [] ∧ Standing (nextSent s) cur' tail' ∧
      (nextSent s).piccBlock = !s.piccBlock ∧
      (sendNextIResponse { s with piccBlock := !s.piccBlock }).2 = [.tx f] ∧ Shows f (!s.piccBlock) cur' tail' := by
  have ho := h.offset.mpr ht
  obtain ⟨hns, hout⟩ := nextSent_eq hi ho
  have hsend := hi.sendable ho
  obtain ⟨off, hs, _, hoff, _, rfl⟩ := h.part
  have hat : s.responseOffset = off + chunkMax s.txBuffer.data := by
    rw [hoff, nextOffset, if_pos ((moreAt_iff _ _).mpr ht)]
  have hsplit := drop_chunk s.txBuffer.data s.responseOffset
  rw [hat] at hsplit
  have hinv := inv_nextSent hi ho
  have hcached := cachedFrame_nextSent hi ho
  refine ⟨_, _, _, hsplit, ?_, ?_, ?_, hout, ?_⟩
  · intro hnil
    have hlen := congrArg List.length hnil
    rw [length_chunkAt] at hlen
    have hpos := List.length_pos_iff.mpr ht
    rw [List.length_drop] at hpos
    have := chunkMax_pos s.txBuffer.data
    simp at hlen; omega
  · have hpicc : (nextSent s).piccBlock = !s.piccBlock := by rw [hns]
    have htx : (nextSent s).txBuffer = s.txBuffer := by rw [hns]
    have hexp : (nextSent s).expectedPcdBlock = s.piccBlock := by rw [hns]
    refine { valid := by rw [hns], closed := by rw [hns]; exact h.closed, turned := ?_, iPcb := ?_, part := ?_ }
    · rw [hexp, hpicc, Bool.not_not]
    · rw [htx]; exact h.iPcb
    · rw [htx]
      refine ⟨s.responseOffset, hsend, ?_, by rw [hns], by rw [hat], by rw [hat]⟩
      rw [hcached, hpicc]
  · rw [hns]
  · rw [← hat]; exact shows_blockAt h.iPcb hsend (!s.piccBlock)

/-- An answered APDU: the whole response is to be had, from its first block on. -/
theorem answered_standing {s s' : Listener L σ} {header apdu : Octets} {out : List Effect} (h : Answered E s header apdu s' out)
    (hi : isIPcb (header.headD 0)) (hlen : prefixLen header = header.length) (h0 : s.commandLen = 0) :
    ∃ cur tail f, cur ++ tail = payload s'.txBuffer.data ∧ Standing s' cur tail ∧ frameOf out = some f ∧
      Shows f s.expectedPcdBlock cur tail := by
  have hne : header ≠ [] := by
    intro e
    rw [e] at hlen
    simp [prefixLen] at hlen
  have hpre : prefixLen s'.txBuffer.data = header.length := by rw [prefixLen_of_starts hne h.starts, hlen]
  have hhead : isIPcb (s'.txBuffer.data.headD 0) := by
    obtain ⟨t, ht⟩ := h.starts
    rw [← ht]
    cases header with
    | nil => exact absurd rfl hne
    | cons a r => exact hi
  refine ⟨_, _, _, ?_, ?_, ?_, shows_blockAt hhead h.sendable s.expectedPcdBlock⟩
  · rw [payload, hpre, ← drop_chunk]
  · refine { valid := h.valid, closed := by rw [h.commandLen]; exact h0, turned := by rw [h.expected, h.picc], iPcb := hhead,
             part := ⟨header.length, h.sendable, ?_, h.offset, rfl, rfl⟩ }
    rw [cachedFrame, h.frame, h.picc]
  · have hsilent : ∀ e ∈ Effect.dispatch apdu :: ((handleApdu E s.engine header.length apdu
        (s.txBuffer.reset.appendBytes header)).effects ++ [.answer s'.txBuffer.data]), e.frame? = none := by
      intro e he
      rcases List.mem_cons.mp he with rfl | he
      · rfl
      rcases List.mem_append.mp he with he | he
      · have hside := handleApdu_engineSide _ _ _ _ e he
        cases e <;> first | rfl | cases hside
      · obtain rfl := List.mem_singleton.mp he; rfl
    have hnone := List.findSome?_eq_none_iff.mpr hsilent
    rw [frameOf, h.out_eq, show ∀ (a b c : Effect) (l : List Effect), a :: (l ++ [b, c]) = (a :: (l ++ [b])) ++ [c] by simp,
      List.findSome?_append, hnone]
    rfl

end DfcFlipper.Link
