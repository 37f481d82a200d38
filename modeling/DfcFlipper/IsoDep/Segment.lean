/-
  DfcFlipper.IsoDep.Segment — a response cut into I-blocks.

  A response is its prefix (PCB, and CID when the PCB says so) and a payload.
  `blockAt resp n off` is the I-block number `n` that carries the payload from offset
  `off` on, `nextOffset resp off` the offset after it (0 once the payload is out). The code
  computes a block in place, in the cached last frame; `sendNextIResponse_eq` says it
  is `blockAt`, for every response and offset the listener can hold.
-/

import DfcFlipper.IsoDep.Listener

namespace DfcFlipper.IsoDep

open DfcFlipper.Lib.Bytes

variable {L : Limits} {σ : Type}

/-! ## PCB octets -/

def headerByte (h : UInt8) (number more : Bool) : UInt8 :=
  ((h &&& ~~~0x11) ||| number.toUInt8) ||| if more then 0x10 else 0

/-- `(pcb & 0xE2) == 0x02`: an I-block (the three kinds differ in the two top bits). -/
def isIPcb (pcb : UInt8) : Prop := pcb &&& 0xE2 = 0x02

instance (pcb : UInt8) : Decidable (isIPcb pcb) := inferInstanceAs (Decidable (_ = _))

/-- `pcb & 0x10` of an I-block. -/
def chaining (pcb : UInt8) : Bool := pcb &&& 0x10 != 0

theorem headerByte_isIPcb : ∀ (h : UInt8) (number more : Bool), isIPcb h → isIPcb (headerByte h number more) :=
  forall_octet (by decide +kernel)

@[simp] theorem headerByte_number : ∀ (h : UInt8) (number more : Bool), blockNumber (headerByte h number more) = number :=
  forall_octet (by decide +kernel)

@[simp] theorem headerByte_chaining : ∀ (h : UInt8) (number more : Bool), chaining (headerByte h number more) = more :=
  forall_octet (by decide +kernel)

@[simp] theorem headerByte_cid : ∀ (h : UInt8) (number more : Bool), headerByte h number more &&& cidMask = h &&& cidMask :=
  forall_octet (by decide +kernel)

/-! ## Blocks -/

def numberAt (number : Bool) (i : Nat) : Bool := number ^^ decide (i % 2 = 1)

theorem numberAt_succ (number : Bool) (i : Nat) : numberAt number (i + 1) = !numberAt number i := by
  unfold numberAt
  rcases Nat.mod_two_eq_zero_or_one i with h | h <;> cases number <;> simp [h, Nat.add_mod]

/-- Payload octets a block has room for. -/
def chunkMax (resp : Octets) : Nat := isoDepFrameMax - prefixLen resp

def chunkAt (resp : Octets) (off : Nat) : Octets := (resp.drop off).take (chunkMax resp)

def moreAt (resp : Octets) (off : Nat) : Bool := off + chunkMax resp < resp.length

def nextOffset (resp : Octets) (off : Nat) : Nat := if moreAt resp off then off + chunkMax resp else 0

def blockAt (resp : Octets) (number : Bool) (off : Nat) : Octets :=
  (headerByte (resp.headD 0) number (moreAt resp off) :: (resp.take (prefixLen resp)).tail) ++ chunkAt resp off

def inf (frame : Octets) : Octets := frame.drop (prefixLen frame)

theorem prefixLen_pos (d : Octets) : 1 ≤ prefixLen d := by unfold prefixLen; omega

theorem prefixLen_le (d : Octets) : prefixLen d ≤ 2 := by unfold prefixLen; split <;> omega

theorem chunkMax_pos (resp : Octets) : 60 ≤ chunkMax resp := by
  have := prefixLen_le resp; unfold chunkMax isoDepFrameMax; omega

/-- A response the listener can hold: the prefix its PCB announces, and an offset in it. -/
structure Sendable (resp : Octets) (off : Nat) : Prop where
  whole : prefixLen resp ≤ resp.length
  low : prefixLen resp ≤ off
  high : off ≤ resp.length

theorem Sendable.start {resp : Octets} (h : prefixLen resp ≤ resp.length) : Sendable resp (prefixLen resp) :=
  ⟨h, Nat.le_refl _, h⟩

theorem Sendable.next {resp : Octets} {off : Nat} (h : Sendable resp off) (hn : nextOffset resp off ≠ 0) :
    Sendable resp (nextOffset resp off) := by
  unfold nextOffset at hn ⊢
  split at hn
  · rename_i hm
    have hm' : off + chunkMax resp < resp.length := by simpa [moreAt] using hm
    exact ⟨h.whole, by rw [if_pos hm]; have := h.low; omega, by rw [if_pos hm]; omega⟩
  · exact absurd rfl hn

theorem prefixLen_blockAt (resp : Octets) (number : Bool) (off : Nat) :
    prefixLen (blockAt resp number off) = prefixLen resp := by
  simp [prefixLen, blockAt]

theorem length_header {resp : Octets} (hw : prefixLen resp ≤ resp.length) (b : UInt8) :
    (b :: (resp.take (prefixLen resp)).tail).length = prefixLen resp := by
  have := prefixLen_pos resp
  simp; omega

theorem length_blockAt {resp : Octets} (number : Bool) (off : Nat) (hw : prefixLen resp ≤ resp.length) :
    (blockAt resp number off).length = prefixLen resp + (chunkAt resp off).length := by
  rw [blockAt, List.length_append, length_header hw]

theorem inf_blockAt {resp : Octets} (number : Bool) (off : Nat) (hw : prefixLen resp ≤ resp.length) :
    inf (blockAt resp number off) = chunkAt resp off := by
  have hl := length_header hw (headerByte (resp.headD 0) number (moreAt resp off))
  rw [inf, prefixLen_blockAt, blockAt, List.drop_append_of_le_length (by omega),
    List.drop_of_length_le (by omega), List.nil_append]

theorem length_chunkAt (resp : Octets) (off : Nat) :
    (chunkAt resp off).length = min (chunkMax resp) (resp.length - off) := by
  simp [chunkAt]

/-- A block fits a 64-byte frame, and it is full unless it is the last. -/
theorem length_blockAt_le {resp : Octets} (number : Bool) (off : Nat) (hw : prefixLen resp ≤ resp.length) :
    (blockAt resp number off).length ≤ isoDepFrameMax ∧
      (moreAt resp off = true → (blockAt resp number off).length = isoDepFrameMax) := by
  have hp := prefixLen_le resp
  rw [length_blockAt number off hw, length_chunkAt]
  refine ⟨by unfold chunkMax isoDepFrameMax; omega, fun hm => ?_⟩
  have : off + chunkMax resp < resp.length := by simpa [moreAt] using hm
  unfold chunkMax isoDepFrameMax at *; omega

/-- A block is never longer than its response. -/
theorem length_blockAt_resp {resp : Octets} {off : Nat} (number : Bool) (h : Sendable resp off) :
    (blockAt resp number off).length ≤ resp.length := by
  rw [length_blockAt number off h.whole, length_chunkAt]
  have := h.low; have := h.high; omega

/-! ## The code's block -/

/-- The block as `send_next_i_response` writes it, over whatever the frame held. -/
def nextFrame (resp frame : Octets) (number : Bool) (off : Nat) : Octets :=
  let chunkLen := min (isoDepFrameMax - prefixLen resp) (resp.length - off)
  let frame := writeAt frame 0 (resp.take (prefixLen resp))
  let frame := frame.set 0 ((frame.headD 0 &&& ~~~0x11) ||| number.toUInt8)
  let frame := if chunkLen < resp.length - off then frame.set 0 (frame.headD 0 ||| 0x10) else frame
  writeAt frame (prefixLen resp) ((resp.drop off).take chunkLen)

theorem lt_min_iff (resp : Octets) (off : Nat) :
    (min (isoDepFrameMax - prefixLen resp) (resp.length - off) < resp.length - off) ↔ moreAt resp off = true := by
  rw [moreAt, decide_eq_true_iff, chunkMax]; omega

theorem take_chunkLen (resp : Octets) (off : Nat) :
    (resp.drop off).take (min (isoDepFrameMax - prefixLen resp) (resp.length - off)) = chunkAt resp off := by
  rw [chunkAt, chunkMax, ← List.length_drop, ← List.take_take, List.take_length]

/-- The prefix written into the frame, its PCB completed. -/
theorem header_written {resp frame : Octets} (number more : Bool) (hw : prefixLen resp ≤ resp.length) :
    let f := writeAt frame 0 (resp.take (prefixLen resp))
    let g := f.set 0 ((f.headD 0 &&& ~~~0x11) ||| number.toUInt8)
    (if more = true then g.set 0 (g.headD 0 ||| 0x10) else g) =
      (headerByte (resp.headD 0) number more :: (resp.take (prefixLen resp)).tail) ++ frame.drop (prefixLen resp) := by
  have hp := prefixLen_pos resp
  have hl : (resp.take (prefixLen resp)).length = prefixLen resp := by simp; omega
  obtain ⟨h, t, ht⟩ : ∃ h t, resp.take (prefixLen resp) = h :: t := by
    cases hr : resp.take (prefixLen resp) with
    | nil => rw [hr] at hl; simp at hl; omega
    | cons h t => exact ⟨h, t, rfl⟩
  have hh : resp.headD 0 = h := by
    cases resp with
    | nil => simp at ht
    | cons a r => rw [List.take_cons (by omega)] at ht; injection ht
  have hlen : (h :: t).length = prefixLen resp := by rw [← ht]; exact hl
  rw [ht, hh]
  cases more <;> simp [writeAt, headerByte, ← hlen]

theorem nextFrame_eq {resp frame : Octets} (number : Bool) (off : Nat) (hf : frame.length = isoDepFrameMax)
    (hw : prefixLen resp ≤ resp.length) :
    (nextFrame resp frame number off).length = isoDepFrameMax ∧
      (nextFrame resp frame number off).take (prefixLen resp + (chunkAt resp off).length) = blockAt resp number off := by
  have hp := prefixLen_le resp
  have hh := length_header hw (headerByte (resp.headD 0) number (moreAt resp off))
  have hc : (chunkAt resp off).length ≤ isoDepFrameMax - prefixLen resp := by
    rw [length_chunkAt]; unfold chunkMax; omega
  have hl : ((headerByte (resp.headD 0) number (moreAt resp off) :: (resp.take (prefixLen resp)).tail) ++
      frame.drop (prefixLen resp)).length = isoDepFrameMax := by
    rw [List.length_append, hh, List.length_drop, hf]; unfold isoDepFrameMax; omega
  unfold isoDepFrameMax at hc hl
  have hn : nextFrame resp frame number off = writeAt ((headerByte (resp.headD 0) number (moreAt resp off) ::
      (resp.take (prefixLen resp)).tail) ++ frame.drop (prefixLen resp)) (prefixLen resp) (chunkAt resp off) := by
    unfold nextFrame
    simp only [lt_min_iff, take_chunkLen, header_written number (moreAt resp off) hw]
  rw [hn]
  refine ⟨by rw [length_writeAt (by omega), hl]; rfl, ?_⟩
  rw [take_writeAt (by omega), List.take_append_of_le_length (by omega), List.take_of_length_le (by omega)]
  rfl

/-- What sending the next block does to the state: the block is cached and sent. -/
theorem sendNextIResponse_eq (s : Listener L σ) (hf : s.lastFrame.length = isoDepFrameMax)
    (hw : prefixLen s.txBuffer.data ≤ s.txBuffer.data.length) :
    sendNextIResponse s = ({ s with
      lastFrame := nextFrame s.txBuffer.data s.lastFrame s.piccBlock s.responseOffset
      lastFrameLen := (blockAt s.txBuffer.data s.piccBlock s.responseOffset).length
      responseOffset := nextOffset s.txBuffer.data s.responseOffset
      lastResponseValid := true }, sendFrame L (blockAt s.txBuffer.data s.piccBlock s.responseOffset)) := by
  obtain ⟨_, ht⟩ := nextFrame_eq s.piccBlock s.responseOffset hf hw
  have hb := length_blockAt s.piccBlock s.responseOffset hw
  have hnw : ¬ s.txBuffer.data.length < prefixLen s.txBuffer.data := by omega
  have hcl : min (isoDepFrameMax - prefixLen s.txBuffer.data) (s.txBuffer.data.length - s.responseOffset) =
      (chunkAt s.txBuffer.data s.responseOffset).length := by rw [length_chunkAt]; rfl
  have hoff : (if (chunkAt s.txBuffer.data s.responseOffset).length < s.txBuffer.data.length - s.responseOffset then
      s.responseOffset + (chunkAt s.txBuffer.data s.responseOffset).length else 0) =
      nextOffset s.txBuffer.data s.responseOffset := by
    rw [nextOffset, ← hcl]
    simp only [lt_min_iff]
    split
    · rename_i hm
      rw [hcl, length_chunkAt]
      have : s.responseOffset + chunkMax s.txBuffer.data < s.txBuffer.data.length := by simpa [moreAt] using hm
      omega
    · rfl
  unfold sendNextIResponse
  simp only [if_neg hnw, decide_eq_true_eq]
  rw [show writeAt _ _ _ = nextFrame s.txBuffer.data s.lastFrame s.piccBlock s.responseOffset from rfl]
  rw [hcl, hoff, ← hb, hb, ht]

/-- A block of a response the buffer holds always fits a radio buffer. -/
theorem sendFrame_blockAt (tx : DfcByteBuf L) (number : Bool) {off : Nat} (h : Sendable tx.data off) :
    sendFrame L (blockAt tx.data number off) = [.tx (blockAt tx.data number off)] := by
  have hs := length_blockAt_resp number h
  have hfit := tx.fits
  rw [sendFrame, if_pos (by omega)]

/-- Sending the next block leaves the frame array its size. -/
theorem frame_size_sendNextIResponse (s : Listener L σ) (hf : s.lastFrame.length = isoDepFrameMax) :
    (sendNextIResponse s).1.lastFrame.length = isoDepFrameMax := by
  by_cases hw : prefixLen s.txBuffer.data ≤ s.txBuffer.data.length
  · rw [sendNextIResponse_eq s hf hw]
    exact (nextFrame_eq s.piccBlock s.responseOffset hf hw).1
  · rw [sendNextIResponse, if_pos (by omega)]
    exact hf

end DfcFlipper.IsoDep
