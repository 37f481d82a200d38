/-
  DfcFlipper.IsoDep.Replies — which frames the listener answers, and with what.

  A frame is unheard when it is none of the four well formed blocks, when it is addressed
  otherwise than the activation is bound, and when it is an R(ACK) that asks neither for the
  last block again nor for the next one.

  `replies`: in every state a run can reach, an unheard frame changes nothing, and every
  other frame is answered with one frame: a well formed block for the address of the one it
  answers, an echo for a PPS and for S(DESELECT). So the listener never moves on without
  telling the reader.

  A response begins with the header of the command's last block, and a cached one is sent
  again later: `Signed` says that its address is still the one the activation is bound to.
-/

import DfcFlipper.IsoDep.Address
import DfcFlipper.IsoDep.Bounds
import DfcFlipper.IsoDep.Presence

namespace DfcFlipper.IsoDep

open DfcFlipper.Lib.Bytes DfcFlipper.Lib.Run

variable {L : Limits} {σ : Type} {E : Engine L σ}

/-! ## Frames and answers -/

inductive Unheard (s : Listener L σ) (rx : Octets) : Prop
  | malformed : ¬WellFormed rx → Unheard s rx
  | misaddressed : Misaddressed s rx → Unheard s rx
  /-- R(ACK) when there is nothing left to send. -/
  | done {pcb : UInt8} {u : Bool} {c : UInt8} : RBlock rx pcb u c → pcb &&& 0x10 = 0 → s.responseOffset = 0 →
      ¬(s.lastResponseValid = true ∧ blockNumber pcb = s.piccBlock) → Unheard s rx

structure Reply (rx frame : Octets) : Prop where
  size : frame.length ≤ isoDepFrameMax
  echo : Pps rx → frame = rx.take 1
  block : ¬Pps rx → WellFormed frame ∧ address frame = address rx
  deselect : ∀ {pcb u c}, Deselect rx pcb u c → frame = rx

def Replied (rx : Octets) (out : List Effect) : Prop := ∃ frame, framesSent out = [frame] ∧ Reply rx frame

/-- The header of the response has the address of the activation, and no NAD. -/
structure Signed (s : Listener L σ) : Prop extends Inv s where
  header : s.lastResponseValid = true →
    s.txBuffer.data.headD 0 &&& nadMask = 0 ∧ address s.txBuffer.data = binding s

/-! ## Blocks of a response -/

theorem headerByte_nad : ∀ (h : UInt8) (number more : Bool), headerByte h number more &&& nadMask = h &&& nadMask :=
  forall_octet (by decide +kernel)

theorem two_octets {frame : Octets} (h : 2 ≤ frame.length) : ∃ a b rest, frame = a :: b :: rest := by
  obtain ⟨a, tail, rfl⟩ := List.exists_cons_of_length_pos (Nat.lt_of_lt_of_le Nat.zero_lt_two h)
  obtain ⟨b, rest, rfl⟩ := List.exists_cons_of_length_pos (Nat.lt_of_succ_le (Nat.le_of_succ_le_succ h))
  exact ⟨a, b, rest, rfl⟩

/-- The octet behind the PCB, when there is a CID. -/
theorem address_blockAt (resp : Octets) (number : Bool) (off : Nat) (hw : prefixLen resp ≤ resp.length) :
    address (blockAt resp number off) = address resp := by
  unfold address blockAt
  simp only [List.cons_append, List.headD_cons, headerByte_cid]
  by_cases hc : resp.headD 0 &&& cidMask = 0
  · rw [if_pos hc, if_pos hc]
  · rw [if_neg hc, if_neg hc]
    have hp : prefixLen resp = 2 := by rw [prefixLen, if_neg hc]
    rw [hp] at hw ⊢
    obtain ⟨a, b, rest, rfl⟩ := two_octets hw
    rfl

/-- A frame with an I-PCB and all that this announces is an I-block. -/
theorem iBlock_of {frame : Octets} (hi : isIPcb (frame.headD 0)) (hn : frame.headD 0 &&& nadMask = 0)
    (hl : prefixLen frame ≤ frame.length) : WellFormed frame := by
  cases frame with
  | nil => exact absurd (Nat.le_trans (prefixLen_pos []) hl) (by simp)
  | cons pcb rest =>
    refine WellFormed.iBlock (u := pcb &&& cidMask != 0) ⟨⟨rfl, rfl, ?_, rfl⟩, hi, hn⟩
    rw [prefixLen, List.headD_cons] at hl
    by_cases hc : pcb &&& cidMask = 0
    · simp [headerLen, hc]
    · simpa [headerLen, hc] using hl

/-- Any block of a response with such a header is well formed and has its address. -/
theorem block_wellFormed {resp : Octets} (hi : isIPcb (resp.headD 0)) (hn : resp.headD 0 &&& nadMask = 0) (number : Bool)
    {off : Nat} (hs : Sendable resp off) :
    WellFormed (blockAt resp number off) ∧ address (blockAt resp number off) = address resp := by
  refine ⟨iBlock_of (blockAt_isIPcb hi number off) ?_ ?_, address_blockAt resp number off hs.whole⟩
  · show headerByte _ _ _ &&& nadMask = 0
    rw [headerByte_nad]
    exact hn
  · rw [prefixLen_blockAt, length_blockAt number off hs.whole]
    exact Nat.le_add_right _ _

/-! ## The address of the response -/

theorem signed_silent {s : Listener L σ} (h : Inv s) (hv : s.lastResponseValid = false) : Signed s :=
  { h with header := fun hv' => by rw [hv] at hv'; cases hv' }

theorem signed_bindCid {s : Listener L σ} (h : Signed s) {u : Bool} {c : UInt8}
    (ha : cidMismatch s u c = true → s.lastResponseValid = false) : Signed (bindCid s u c) := by
  cases hm : cidMismatch s u c with
  | false => rwa [bindCid_eq hm]
  | true => exact signed_silent (inv_bindCid h.toInv u c) (by rw [bindCid_lastResponseValid]; exact ha hm)

/-- The address of what starts with the header of a frame. -/
theorem address_starts {rx d : Octets} {pcb : UInt8} {u : Bool} {c : UInt8} (h : Header rx pcb u c)
    (hp : rx.take (headerLen u) <+: d) : d.headD 0 = pcb ∧ address d = if u then some c else none := by
  obtain ⟨rest, rfl⟩ := hp
  have hhead : (rx.take (headerLen u) ++ rest).headD 0 = pcb := by
    have hne := take_header_ne_nil h
    have ht := headD_take_header h
    cases ht' : rx.take (headerLen u) with
    | nil => exact absurd ht' hne
    | cons a r => rw [ht'] at ht; exact ht
  refine ⟨hhead, ?_⟩
  rw [address, hhead, h.cid_eq, h.useCid_eq]
  by_cases hc : pcb &&& cidMask = 0
  · simp [hc]
  · have hu : u = true := by rw [h.useCid_eq]; simp [hc]
    have hl := h.long
    subst hu
    obtain ⟨a, b, more, rfl⟩ := two_octets hl
    simp [hc, headerLen]

/-- The response to the command that came with this header. -/
theorem signed_answered {s s' : Listener L σ} {rx apdu : Octets} {pcb : UInt8} {u : Bool} {c : UInt8} {out : List Effect}
    (hb : IBlock rx pcb u c) (hs : binding s = if u then some c else none) (h : Inv s')
    (ha : Answered E s (rx.take (headerLen u)) apdu s' out) : Signed s' := by
  obtain ⟨hhead, haddr⟩ := address_starts hb.toHeader ha.starts
  have hbind : binding s' = binding s := by rw [binding, binding, ha.cidValid, ha.cid]
  exact { h with header := fun _ => ⟨by rw [hhead]; exact hb.noNad, by rw [haddr, hbind, hs]⟩ }

theorem signed_rx (hk : E.KeepsPrefix) {s s' : Listener L σ} {rx : Octets} {out : List Effect} (h : Signed s)
    (hr : Rx E s rx s' out) : Signed s' := by
  have hi' : Inv s' := inv_rx hk h.toInv hr
  cases hr with
  | ignored => exact h
  | pps => exact h
  | replayR => exact h
  | nextBlock _ _ _ ho _ =>
    refine { hi' with header := fun _ => ?_ }
    rw [(nextSent_eq h.toInv ho).1]
    exact h.header (h.busy ho).1
  | ackR => exact h
  | deselect => exact signed_silent hi' rfl
  | replayI => exact h
  | ackI => exact h
  | nakI _ _ hv _ => exact signed_silent hi' (by rw [bindCid_lastResponseValid]; exact hv)
  | refused he _ => exact signed_bindCid h fun hm => (he.addressed hm).1
  | overflow he =>
    have hs := signed_bindCid h fun hm => (he.addressed hm).1
    exact { hi' with header := hs.header }
  | chained he =>
    have hs := signed_bindCid h fun hm => (he.addressed hm).1
    exact { hi' with header := hs.header }
  | lastBlock he ho _ hfit _ _ hd =>
    have hans := (answered_lastBlock hk h.toInv he ho hfit hd).1
    refine signed_answered he.toIBlock ?_ hi' hans
    exact binding_of_match (cidMismatch_bindCid s _ _)
  | single he ho _ _ hc hd =>
    have hans := (answered_single hk h.toInv he hc hd).1
    exact signed_answered he.toIBlock (binding_of_match (cidMismatch_bindCid s _ _)) hi' hans

theorem signed_callback (hk : E.KeepsPrefix) (s : Listener L σ) (ev : Event) (h : Signed s) :
    Signed (workerListenerCallback E s ev).1 := by
  cases ev with
  | receivedData rx => exact signed_rx hk h (receivedData_rx s rx)
  | halted => exact signed_silent (inv_activationLost h.toInv) rfl
  | fieldOff => exact signed_silent (inv_activationLost h.toInv) rfl

/-! ## What goes out -/

theorem not_pps {rx : Octets} {pcb : UInt8} {u : Bool} {c : UInt8} (h : Header rx pcb u c) (hk : pcb &&& 0xF0 ≠ 0xD0) :
    ¬Pps rx := by
  intro hp
  cases hp with
  | short hp => exact hk (by rw [← Option.some.inj h.head]; exact hp)
  | long hp => exact hk (by rw [← Option.some.inj h.head]; exact hp)

/-- A block for the address of an I-block or an R-block answers that. -/
theorem reply_block {rx frame : Octets} {pcb : UInt8} {u : Bool} {c : UInt8} (h : Header rx pcb u c)
    (hp : pcb &&& 0xF0 ≠ 0xD0) (hs : pcb &&& 0xC0 ≠ 0xC0) (hl : frame.length ≤ isoDepFrameMax) (hw : WellFormed frame)
    (ha : address frame = if u then some c else none) : Reply rx frame where
  size := hl
  echo := fun hpps => absurd hpps (not_pps h hp)
  block := fun _ => ⟨hw, by rw [ha, address_header h]⟩
  deselect := fun hd => by
    obtain ⟨rfl, _, _⟩ := h.unique hd.toHeader
    exact absurd (deselect_kind pcb hd.kind).2.2 hs

/-- An R-block. -/
theorem control_replied {rx : Octets} {pcb : UInt8} {u : Bool} {c : UInt8} (h : Header rx pcb u c)
    (hp : pcb &&& 0xF0 ≠ 0xD0) (hs : pcb &&& 0xC0 ≠ 0xC0) (nak number : Bool) :
    Replied rx (sendControl L ((if nak then 0xB2 else 0xA2) ||| number.toUInt8) u c) := by
  have hsent := sendControl_rFrame (L := L) nak number (address rx)
  have hb := rFrame_rBlock nak number (address rx)
  have haddr := address_header h
  have hu : (address rx).isSome = u := by rw [haddr]; cases u <;> rfl
  have hc : (address rx).getD 0 = c := by
    rw [haddr]
    cases u with
    | true => rfl
    | false => rw [h.cid_eq]; rfl
  rw [hu, hc] at hsent hb
  refine ⟨rFrame nak number (address rx), by rw [hsent]; rfl, ?_⟩
  refine reply_block h hp hs ?_ (.rBlock hb) (address_header hb.toHeader)
  rw [hb.bare, headerLen, isoDepFrameMax]
  split <;> omega

/-- A block of the response, cached or fresh. -/
theorem blockAt_replied {rx : Octets} {pcb : UInt8} {u : Bool} {c : UInt8} {s : Listener L σ} (hb : Header rx pcb u c)
    (hp : pcb &&& 0xF0 ≠ 0xD0) (hs : pcb &&& 0xC0 ≠ 0xC0) (h : Signed s) (hv : s.lastResponseValid = true)
    (hm : binding s = if u then some c else none) (number : Bool) {off : Nat} (ho : Sendable s.txBuffer.data off) :
    Reply rx (blockAt s.txBuffer.data number off) := by
  obtain ⟨hn, ha⟩ := h.header hv
  obtain ⟨hw, haddr⟩ := block_wellFormed (h.cached hv).1 hn number ho
  exact reply_block hb hp hs (length_blockAt_le number off ho.whole).1 hw (by rw [haddr, ha, hm])

theorem cached_replied {rx : Octets} {pcb : UInt8} {u : Bool} {c : UInt8} {s : Listener L σ} (hb : Header rx pcb u c)
    (hp : pcb &&& 0xF0 ≠ 0xD0) (hs : pcb &&& 0xC0 ≠ 0xC0) (h : Signed s) (hv : s.lastResponseValid = true)
    (hm : cidMismatch s u c = false) : Replied rx (sendFrame L (cachedFrame s)) := by
  refine ⟨cachedFrame s, by rw [(sendFrame_cached h.toInv hv).1]; rfl, ?_⟩
  obtain ⟨_, off, ho, hc, _⟩ := h.cached hv
  rw [hc]
  exact blockAt_replied hb hp hs h hv (binding_of_match hm) s.piccBlock ho

/-- The answer to a whole command. -/
theorem dispatch_replied {s s' : Listener L σ} {rx apdu : Octets} {pcb : UInt8} {u : Bool} {c : UInt8} {out : List Effect}
    (hb : IBlock rx pcb u c) (hs : binding s = if u then some c else none) (h : Signed s')
    (ha : Answered E s (rx.take (headerLen u)) apdu s' out) : Replied rx out := by
  have hnone : framesSent (handleApdu E s.engine (rx.take (headerLen u)).length apdu
      (s.txBuffer.reset.appendBytes (rx.take (headerLen u)))).effects = [] :=
    framesSent_engineSide (handleApdu_engineSide _ _ _ _)
  obtain ⟨hpps, _, hsb⟩ := iBlock_kind pcb hb.kind
  refine ⟨blockAt s'.txBuffer.data s.expectedPcdBlock (rx.take (headerLen u)).length, ?_,
    blockAt_replied hb.toHeader hpps hsb h ha.valid ?_ _ ha.sendable⟩
  · rw [ha.out_eq]
    show framesSent (_ ++ [_, _]) = _
    rw [framesSent_append, hnone]
    rfl
  · rw [← hs, binding, binding, ha.cidValid, ha.cid]

theorem replied_append {rx inf : Octets} {out : List Effect} (h : Replied rx out) : Replied rx (.append inf :: out) := h

/-! ## Frames that are heard -/

theorem pps_replied (s : Listener L σ) {rx : Octets} (h : Pps rx) : Replied rx (receivedData E s rx).2 := by
  have hpps := h
  have hfit := L.prefix_fits
  have key : ∀ (pcb : UInt8) (rest : Octets), rx = pcb :: rest → rest ≠ [] → pcb &&& 0xF0 = 0xD0 →
      Replied rx (receivedPps (L := L) rx pcb) → Replied rx (receivedData E s rx).2 := by
    rintro pcb rest rfl hne hp ha
    have hpos := List.length_pos_iff.mpr hne
    have hl : headerLen (pcb &&& cidMask != 0) ≤ (pcb :: rest).length := by
      unfold headerLen; simp only [List.length_cons]; split <;> omega
    rwa [receivedData_header ⟨rfl, rfl, hl, rfl⟩, if_pos hp]
  have hone : ∀ pcb : UInt8, receivedPps (L := L) rx pcb = sendControl L pcb false 0 → rx.take 1 = [pcb] →
      pcb &&& 0xF0 = 0xD0 → Replied rx (receivedPps (L := L) rx pcb) := by
    intro pcb hr ht hp
    have hsent : sendControl L pcb false 0 = [.tx [pcb]] := by simp [sendControl, sendFrame]; omega
    refine ⟨[pcb], by rw [hr, hsent]; rfl, ?_⟩
    refine ⟨show 1 ≤ isoDepFrameMax by decide, fun _ => ht.symm, fun hn => absurd hpps hn, fun hd => ?_⟩
    exact absurd hpps (not_pps hd.toHeader (deselect_kind _ hd.kind).1)
  cases h with
  | short hp => exact key _ _ rfl (by simp) hp (hone _ rfl rfl hp)
  | long hp => exact key _ _ rfl (by simp) hp (hone _ rfl rfl hp)

theorem rBlock_replied {s : Listener L σ} {rx : Octets} {pcb : UInt8} {u : Bool} {c : UInt8} (h : Signed s)
    (hb : RBlock rx pcb u c) (hheard : ¬Unheard s rx) : Replied rx (receivedData E s rx).2 := by
  obtain ⟨hpps, hr⟩ := rBlock_kind pcb hb.kind
  have hs : pcb &&& 0xC0 ≠ 0xC0 := by rw [hr]; decide
  have hm : cidMismatch s u c = false := by
    cases hm : cidMismatch s u c with
    | false => rfl
    | true => exact absurd (.misaddressed (.rBlock hb hm)) hheard
  rw [receivedData_rBlock hb, receivedRBlock, if_neg (by simp [hb.kind, hb.bare]), if_neg (by simp [hm])]
  split
  · rename_i hv
    exact cached_replied hb.toHeader hpps hs h hv.1 hm
  rename_i hv
  split
  · rename_i ho
    refine ⟨_, by rw [(nextSent_eq h.toInv ho.1).2]; rfl, ?_⟩
    exact blockAt_replied hb.toHeader hpps hs h (h.busy ho.1).1 (binding_of_match hm) _ (h.sendable ho.1)
  rename_i ho
  split
  · exact control_replied hb.toHeader hpps hs false s.piccBlock
  · rename_i hack
    have hack' : pcb &&& 0x10 = 0 := Decidable.not_not.mp hack
    exact absurd (.done hb hack' (Decidable.not_not.mp fun hne => ho ⟨hne, hack'⟩) hv) hheard

theorem deselect_replied {s : Listener L σ} {rx : Octets} {pcb : UInt8} {u : Bool} {c : UInt8} (hd : Deselect rx pcb u c)
    (hheard : ¬Unheard s rx) : Replied rx (receivedData E s rx).2 := by
  have hfit := L.prefix_fits
  have hm : cidMismatch s u c = false := by
    cases hm : cidMismatch s u c with
    | false => rfl
    | true => exact absurd (.misaddressed (.deselect hd hm)) hheard
  have hle : rx.length ≤ 2 := by
    rw [hd.bare, headerLen]
    split <;> omega
  rw [receivedData_deselect hd.toHeader hd.kind hd.bare hm, sendFrame, if_pos (by omega)]
  refine ⟨rx, rfl, by rw [isoDepFrameMax]; omega, fun hp => ?_, fun _ => ⟨.deselect hd, rfl⟩, fun _ => rfl⟩
  exact absurd hp (not_pps hd.toHeader (deselect_kind pcb hd.kind).1)

theorem ack_pcb : ∀ pcb : UInt8, 0xA2 ||| (pcb &&& 1) = (if false then 0xB2 else 0xA2) ||| (blockNumber pcb).toUInt8 :=
  forall_octet (by decide +kernel)

/-- An I-block with the right address, or one that may still choose it. -/
theorem receivedData_addressed {s : Listener L σ} {rx : Octets} {pcb : UInt8} {u : Bool} {c : UInt8} (h : IBlock rx pcb u c)
    (ha : cidMismatch s u c = true → s.lastResponseValid = false ∧ s.commandLen = 0) :
    receivedData E s rx = addressedIBlock E (bindCid s u c) rx pcb u c := by
  have hkind : pcb &&& 0xE2 = 0x02 := h.kind
  rw [receivedData_iBlock h, receivedIBlock, if_neg (by simp [hkind, h.noNad]), if_neg]
  rintro ⟨hm, hor⟩
  obtain ⟨hv, hc⟩ := ha hm
  rcases hor with hv' | hc'
  · rw [hv] at hv'; cases hv'
  · exact hc' hc

theorem iBlock_replied (hk : E.KeepsPrefix) {s : Listener L σ} {rx : Octets} {pcb : UInt8} {u : Bool} {c : UInt8}
    (h : Signed s) (hb : IBlock rx pcb u c) (hheard : ¬Unheard s rx) : Replied rx (receivedData E s rx).2 := by
  obtain ⟨hpps, _, hs⟩ := iBlock_kind pcb hb.kind
  have haddr : cidMismatch s u c = true → s.lastResponseValid = false ∧ s.commandLen = 0 := by
    intro hm
    have hn : ¬(s.lastResponseValid = true ∨ s.commandLen ≠ 0) :=
      fun hor => hheard (.misaddressed (.iBlock hb hm hor))
    obtain ⟨hv, hc⟩ := not_or.mp hn
    exact ⟨Bool.eq_false_iff.mpr hv, Decidable.not_not.mp hc⟩
  have hsigned : Signed (receivedData E s rx).1 := signed_rx hk h (receivedData_rx s rx)
  by_cases hn : blockNumber pcb = s.expectedPcdBlock
  · have he : Expected s rx pcb u c := { hb with addressed := haddr, number := hn }
    by_cases ho : s.responseOffset = 0 ∧ headerLen u < rx.length
    · obtain ⟨ho, hl⟩ := ho
      by_cases hone : chaining pcb = false ∧ s.commandLen = 0
      · rw [receivedData_single he ho hl hone.1 hone.2] at hsigned ⊢
        rcases hd : dispatch E (bindCid s u c) (rx.take (headerLen u)) (rx.drop (headerLen u)) with ⟨s', out⟩
        rw [hd] at hsigned
        have hans := (answered_single hk h.toInv he hone.2 hd).1
        exact dispatch_replied hb (binding_of_match (cidMismatch_bindCid s u c)) hsigned hans
      have hmany : chaining pcb = true ∨ s.commandLen ≠ 0 := by
        rcases Bool.eq_false_or_eq_true (chaining pcb) with hc | hc
        · exact Or.inl hc
        · exact Or.inr fun h0 => hone ⟨hc, h0⟩
      by_cases hfit : (rx.drop (headerLen u)).length ≤ L.workerMaxBufferSize - s.commandLen
      · cases hc : chaining pcb with
        | true =>
          rw [receivedData_chained he ho hl hfit hc, ack_pcb]
          exact replied_append (control_replied hb.toHeader hpps hs false (blockNumber pcb))
        | false =>
          have hopen : s.commandLen ≠ 0 := fun h0 => hone ⟨hc, h0⟩
          rw [receivedData_lastBlock he ho hl hfit hc hopen] at hsigned ⊢
          generalize hd : dispatch E (dropChain _) _ _ = r at hsigned ⊢
          obtain ⟨s', out⟩ := r
          have hans := (answered_lastBlock hk h.toInv he ho hfit hd).1
          refine replied_append (dispatch_replied hb ?_ hsigned hans)
          exact binding_of_match (cidMismatch_bindCid s u c)
      · rw [receivedData_overflow he ho hl (by omega) hmany]
        exact control_replied hb.toHeader hpps hs true s.expectedPcdBlock
    · rw [receivedData_addressed hb haddr, addressedIBlock, bindCid_expectedPcdBlock, bindCid_responseOffset,
        if_neg (not_not_intro hn)]
      have hrefused : Replied rx (sendControl L (0xB2 ||| s.expectedPcdBlock.toUInt8) u c) :=
        control_replied hb.toHeader hpps hs true s.expectedPcdBlock
      split
      · exact hrefused
      rename_i h0
      split
      · exact hrefused
      rename_i hl
      exact absurd ⟨Decidable.not_not.mp h0, by omega⟩ ho
  · rw [receivedData_addressed hb haddr, addressedIBlock, bindCid_expectedPcdBlock, if_pos hn]
    simp only [bindCid_lastResponseValid, bindCid_commandLen, bindCid_lastFrame, bindCid_lastFrameLen]
    split
    · rename_i hv
      have hm : cidMismatch s u c = false := by
        cases hm : cidMismatch s u c with
        | false => rfl
        | true => exact absurd hv.1 (by rw [(haddr hm).1]; exact Bool.false_ne_true)
      exact cached_replied hb.toHeader hpps hs h hv.1 hm
    split
    · rw [ack_pcb]
      exact control_replied hb.toHeader hpps hs false (blockNumber pcb)
    · exact control_replied hb.toHeader hpps hs true s.expectedPcdBlock

/-- R(ACK) with nothing left to send. -/
theorem receivedData_done {s : Listener L σ} {rx : Octets} {pcb : UInt8} {u : Bool} {c : UInt8} (hb : RBlock rx pcb u c)
    (hack : pcb &&& 0x10 = 0) (ho : s.responseOffset = 0)
    (hv : ¬(s.lastResponseValid = true ∧ blockNumber pcb = s.piccBlock)) : receivedData E s rx = (s, []) := by
  rw [receivedData_rBlock hb, receivedRBlock, if_neg (by simp [hb.kind, hb.bare])]
  split
  · rfl
  · rw [if_neg fun h => h.1 ho, if_neg (not_not_intro hack)]

/-! ## The property -/

/-- In every state a run can reach: a frame that is not heard changes nothing; every other
    frame is answered with one frame, a well formed block for the same address, and with the
    frame itself when it is an S(DESELECT). -/
theorem replies (hk : E.KeepsPrefix) (st : σ) (evs : List Event) (rx : Octets) :
    let s := (run (workerListenerCallback E) (listenerInit L st) evs).1
    (Unheard s rx → workerListenerCallback E s (.receivedData rx) = (s, [])) ∧
    (¬Unheard s rx → Replied rx (workerListenerCallback E s (.receivedData rx)).2) := by
  intro s
  have h : Signed s :=
    run_inv Signed (signed_callback hk) evs (listenerInit L st) (signed_silent (inv_init L st) rfl)
  refine ⟨fun hu => ?_, fun hu => ?_⟩
  · cases hu with
    | malformed hw => exact receivedData_malformed s hw
    | misaddressed hm => exact receivedData_misaddressed hm
    | done hb hack ho hv => exact receivedData_done hb hack ho hv
  · have hw : WellFormed rx := by
      by_cases hw : WellFormed rx
      · exact hw
      · exact absurd (.malformed hw) hu
    cases hw with
    | iBlock hb => exact iBlock_replied hk h hb hu
    | rBlock hb => exact rBlock_replied h hb hu
    | deselect hd => exact deselect_replied hd hu
    | pps hp => exact pps_replied s hp

/-- After a selection under a CID, the same block without it is not heard. -/
theorem replies_select :
    let s := (run (workerListenerCallback piccEngine) (listenerInit smallLimits false)
      [.receivedData [0x0A, 0x01, 0x5A, 0, 0, 0]]).1
    let rx : Octets := [0x02, 0x5A, 0, 0, 0]
    (Unheard s rx → workerListenerCallback piccEngine s (.receivedData rx) = (s, [])) ∧
    (¬Unheard s rx → Replied rx (workerListenerCallback piccEngine s (.receivedData rx)).2) :=
  replies piccEngine_keepsPrefix false _ _

end DfcFlipper.IsoDep
