/-
  DfcFlipper.IsoDep.Frames — the blocks a reader sends, and what the listener does with an
  I-block it expects.

  `iFrame number more cid inf` and `rFrame nak number cid` are the ISO/IEC 14443-4 blocks
  with the CID octet exactly when there is a CID. `receivedData_chained`,
  `receivedData_overflow`, `receivedData_lastBlock` and `receivedData_single` give the
  listener's step on an expected block, in a chain and outside, `receivedData_ack` the one on
  the reader's R(ACK) to a block of a response.
-/

import DfcFlipper.IsoDep.Step

namespace DfcFlipper.IsoDep

open DfcFlipper.Lib.Bytes

variable {L : Limits} {σ : Type} {E : Engine L σ}

/-! ## Blocks -/

def iPcb (number more useCid : Bool) : UInt8 :=
  0x02 ||| number.toUInt8 ||| (if more then 0x10 else 0) ||| if useCid then cidMask else 0

def rPcb (nak number useCid : Bool) : UInt8 :=
  0xA2 ||| number.toUInt8 ||| (if nak then 0x10 else 0) ||| if useCid then cidMask else 0

def iFrame (number more : Bool) (cid : Option UInt8) (inf : Octets) : Octets :=
  iPcb number more cid.isSome :: (cid.toList ++ inf)

def rFrame (nak number : Bool) (cid : Option UInt8) : Octets := rPcb nak number cid.isSome :: cid.toList

@[simp] theorem iPcb_number : ∀ number more u : Bool, blockNumber (iPcb number more u) = number := by decide

@[simp] theorem iPcb_chaining : ∀ number more u : Bool, chaining (iPcb number more u) = more := by decide

theorem iPcb_kind : ∀ number more u : Bool, isIPcb (iPcb number more u) ∧ iPcb number more u &&& nadMask = 0 ∧
    u = (iPcb number more u &&& cidMask != 0) := by decide

@[simp] theorem rPcb_number : ∀ nak number u : Bool, blockNumber (rPcb nak number u) = number := by decide

theorem rPcb_nak : ∀ nak number u : Bool, rPcb nak number u &&& 0x10 = 0 ↔ nak = false := by decide

theorem rPcb_kind : ∀ nak number u : Bool, rPcb nak number u &&& 0xE6 = 0xA2 ∧
    u = (rPcb nak number u &&& cidMask != 0) := by decide

theorem length_cid (cid : Option UInt8) : 1 + cid.toList.length = headerLen cid.isSome := by cases cid <;> rfl

theorem iFrame_iBlock (number more : Bool) (cid : Option UInt8) (inf : Octets) :
    IBlock (iFrame number more cid inf) (iPcb number more cid.isSome) cid.isSome (cid.getD 0) where
  head := rfl
  useCid_eq := (iPcb_kind number more cid.isSome).2.2
  long := by rw [← length_cid, iFrame, List.length_cons, List.length_append]; omega
  cid_eq := by cases cid <;> rfl
  kind := (iPcb_kind number more cid.isSome).1
  noNad := (iPcb_kind number more cid.isSome).2.1

theorem rFrame_rBlock (nak number : Bool) (cid : Option UInt8) :
    RBlock (rFrame nak number cid) (rPcb nak number cid.isSome) cid.isSome (cid.getD 0) where
  head := rfl
  useCid_eq := (rPcb_kind nak number cid.isSome).2
  long := by rw [← length_cid, rFrame, List.length_cons]; omega
  cid_eq := by cases cid <;> rfl
  kind := (rPcb_kind nak number cid.isSome).1
  bare := by rw [← length_cid, rFrame, List.length_cons]; omega

@[simp] theorem iFrame_inf (number more : Bool) (cid : Option UInt8) (inf : Octets) :
    (iFrame number more cid inf).drop (headerLen cid.isSome) = inf := by
  cases cid <;> rfl

theorem length_iFrame (number more : Bool) (cid : Option UInt8) (inf : Octets) :
    (iFrame number more cid inf).length = headerLen cid.isSome + inf.length := by
  rw [← length_cid, iFrame, List.length_cons, List.length_append]; omega

/-- R(ACK) under the other number, with a response under way: its next block. -/
theorem receivedData_ack {s : Listener L σ} {cid : Option UInt8} {n : Bool} (h : cidMismatch s cid.isSome (cid.getD 0) = false)
    (hn : n ≠ s.piccBlock) (ho : s.responseOffset ≠ 0) :
    receivedData E s (rFrame false n cid) = (nextSent s, (sendNextIResponse { s with piccBlock := !s.piccBlock }).2) := by
  have hb := rFrame_rBlock false n cid
  have hk : ¬(rPcb false n cid.isSome &&& 0xE6 ≠ 0xA2 ∨ (rFrame false n cid).length ≠ headerLen cid.isSome) := by
    simp [hb.kind, hb.bare]
  have hack : rPcb false n cid.isSome &&& 0x10 = 0 := (rPcb_nak _ _ _).mpr rfl
  rw [receivedData_rBlock hb, receivedRBlock, if_neg hk, if_neg (by rw [h]; simp), rPcb_number, if_neg (fun hc => hn hc.2),
    if_pos ⟨ho, hack⟩]
  rfl

/-! ## Expected blocks -/

/-- A frame has one header. -/
theorem Header.unique {rx : Octets} {pcb pcb' : UInt8} {u u' : Bool} {c c' : UInt8} (h : Header rx pcb u c)
    (h' : Header rx pcb' u' c') : pcb = pcb' ∧ u = u' ∧ c = c' := by
  obtain rfl : pcb = pcb' := Option.some.inj (h.head.symm.trans h'.head)
  obtain rfl : u = u' := h.useCid_eq.trans h'.useCid_eq.symm
  exact ⟨rfl, rfl, h.cid_eq.trans h'.cid_eq.symm⟩

/-- An expected I-block with an INF, no response pending, is taken or overflows. -/
theorem receivedData_expected {s : Listener L σ} {rx : Octets} {pcb : UInt8} {u : Bool} {c : UInt8}
    (h : Expected s rx pcb u c) (ho : s.responseOffset = 0) (hl : headerLen u < rx.length) :
    receivedData E s rx = acceptIBlock E (bindCid s u c) rx pcb u c := by
  have hk : ¬(pcb &&& 0xE2 ≠ 0x02 ∨ pcb &&& nadMask ≠ 0) := by
    have hkind : pcb &&& 0xE2 = 0x02 := h.kind
    simp [hkind, h.noNad]
  have ha : ¬(cidMismatch s u c = true ∧ (s.lastResponseValid = true ∨ s.commandLen ≠ 0)) := by
    rintro ⟨hm, hor⟩
    obtain ⟨hv, hc⟩ := h.addressed hm
    rcases hor with hv' | hc'
    · rw [hv] at hv'; cases hv'
    · exact hc' hc
  rw [receivedData_iBlock h.toIBlock, receivedIBlock, if_neg hk, if_neg ha, addressedIBlock, bindCid_expectedPcdBlock,
    if_neg (by simp [h.number]), bindCid_responseOffset, if_neg (by simp [ho]), if_neg (by omega)]

/-- A block of a chain that fits: appended and acknowledged. -/
theorem receivedData_chained {s : Listener L σ} {rx : Octets} {pcb : UInt8} {u : Bool} {c : UInt8}
    (h : Expected s rx pcb u c) (ho : s.responseOffset = 0) (hl : headerLen u < rx.length)
    (hfit : (rx.drop (headerLen u)).length ≤ L.workerMaxBufferSize - s.commandLen) (hm : chaining pcb = true) :
    receivedData E s rx = (toggleExpected (appendInf (bindCid s u c) (rx.drop (headerLen u))),
      .append (rx.drop (headerLen u)) :: sendControl L (0xA2 ||| (pcb &&& 1)) u c) := by
  have hm' := (chaining_iff pcb).mp hm
  rw [receivedData_expected h ho hl, acceptIBlock, if_pos (Or.inl hm'), bindCid_commandLen, if_neg (by omega), if_pos hm']
  simp [toggleExpected, appendInf]

/-- The frame is a block of a chain, or its last one, that `iso_dep_command` has no room for. -/
inductive Overflows (s : Listener L σ) (rx : Octets) : Prop
  | block {pcb : UInt8} {u : Bool} {c : UInt8} : Expected s rx pcb u c → s.responseOffset = 0 →
      headerLen u < rx.length → chaining pcb = true ∨ s.commandLen ≠ 0 →
      L.workerMaxBufferSize - s.commandLen < (rx.drop (headerLen u)).length → Overflows s rx

/-- A block of a chain that does not fit: the chain is dropped and refused with R(NAK). -/
theorem receivedData_overflow {s : Listener L σ} {rx : Octets} {pcb : UInt8} {u : Bool} {c : UInt8}
    (h : Expected s rx pcb u c) (ho : s.responseOffset = 0) (hl : headerLen u < rx.length)
    (hbig : L.workerMaxBufferSize - s.commandLen < (rx.drop (headerLen u)).length)
    (hm : chaining pcb = true ∨ s.commandLen ≠ 0) :
    receivedData E s rx =
      (dropChain (bindCid s u c), sendControl L (0xB2 ||| s.expectedPcdBlock.toUInt8) u c) := by
  have hm' : pcb &&& 0x10 ≠ 0 ∨ (bindCid s u c).commandLen ≠ 0 := by
    rw [bindCid_commandLen, ← chaining_iff]; exact hm
  rw [receivedData_expected h ho hl, acceptIBlock, if_pos hm', bindCid_commandLen, if_pos hbig]
  simp [dropChain]

/-- The last block of a chain that fits: appended, and the whole command handed on. -/
theorem receivedData_lastBlock {s : Listener L σ} {rx : Octets} {pcb : UInt8} {u : Bool} {c : UInt8}
    (h : Expected s rx pcb u c) (ho : s.responseOffset = 0) (hl : headerLen u < rx.length)
    (hfit : (rx.drop (headerLen u)).length ≤ L.workerMaxBufferSize - s.commandLen) (hm : chaining pcb = false)
    (hopen : s.commandLen ≠ 0) :
    let r := dispatch E (dropChain (appendInf (bindCid s u c) (rx.drop (headerLen u)))) (rx.take (headerLen u))
      ((appendInf s (rx.drop (headerLen u))).command.take (appendInf s (rx.drop (headerLen u))).commandLen)
    receivedData E s rx = (r.1, .append (rx.drop (headerLen u)) :: r.2) := by
  intro r
  have hlast : ¬pcb &&& 0x10 ≠ 0 := by rw [← chaining_iff, hm]; exact Bool.false_ne_true
  rw [receivedData_expected h ho hl, acceptIBlock, if_pos (Or.inr (by rw [bindCid_commandLen]; exact hopen)),
    bindCid_commandLen, if_neg (by omega)]
  simp only
  rw [if_neg hlast]
  simp [r, appendInf, dropChain]

/-- A block outside a chain: its INF is handed on as it came. -/
theorem receivedData_single {s : Listener L σ} {rx : Octets} {pcb : UInt8} {u : Bool} {c : UInt8}
    (h : Expected s rx pcb u c) (ho : s.responseOffset = 0) (hl : headerLen u < rx.length) (hm : chaining pcb = false)
    (hclosed : s.commandLen = 0) :
    receivedData E s rx = dispatch E (bindCid s u c) (rx.take (headerLen u)) (rx.drop (headerLen u)) := by
  have hone : ¬(pcb &&& 0x10 ≠ 0 ∨ (bindCid s u c).commandLen ≠ 0) := by
    rw [← chaining_iff, hm, bindCid_commandLen, hclosed]
    simp
  rw [receivedData_expected h ho hl, acceptIBlock, if_neg hone]

end DfcFlipper.IsoDep
