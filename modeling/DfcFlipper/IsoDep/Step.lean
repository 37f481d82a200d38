/-
  DfcFlipper.IsoDep.Step — what one event can do to the listener, said once.

  - `dispatch_answered`: a whole APDU handed to an engine that keeps the prefix is answered:
    the numbers move on, the response is cut from its start, its first block is sent.
  - `Rx`: one constructor for each branch of the callback on a received frame, with the
    guards that lead there, and `receivedData_rx`: every frame takes one of them.

  Every invariant is derived from `Rx`; nothing after this module unfolds the callback
  on an arbitrary frame.
-/

import DfcFlipper.IsoDep.Segment

namespace DfcFlipper.IsoDep

open DfcFlipper.Lib.Bytes

variable {L : Limits} {σ : Type} {E : Engine L σ}

/-! ## The engine side -/

/-- An engine call or an event posted to the view: all the engine side does. -/
def Effect.engineSide : Effect → Prop
  | .select _ => True
  | .command _ => True
  | .notify _ => True
  | _ => False

theorem lengthError_keeps (st : σ) (tx : DfcByteBuf L) : tx.data <+: (lengthError st tx).txBuffer.data :=
  (tx.prefix_appendBytes _).trans ((tx.appendByte 0x91).prefix_appendBytes _)

theorem wrapResponse_keeps (hk : E.KeepsPrefix) {header : Octets} {tx : DfcByteBuf L} (h : header <+: tx.data) :
    header <+: (wrapResponse E header.length tx).data := by
  unfold wrapResponse
  split
  · rename_i hlt
    split
    · rename_i out ho
      have hp := hk.wrap tx header.length out hlt ho
      have hfit := hk.wrapFits tx header.length out hlt ho
      rw [DfcByteBuf.appendBytes_data (by simpa using hfit)]
      rw [List.prefix_iff_eq_take.mp h]
      simpa using hp
    · exact h
  · exact h

theorem handleNative_keeps (hk : E.KeepsPrefix) (st : σ) (header apdu : Octets) {tx : DfcByteBuf L}
    (h : header <+: tx.data) : header <+: (handleNative E st header.length apdu tx).txBuffer.data := by
  unfold handleNative
  split
  · split
    · exact h.trans (lengthError_keeps st tx)
    · exact wrapResponse_keeps hk (h.trans (hk.command _ _ _))
  · exact h.trans (hk.command _ _ _)

/-- The response still starts with the PCB (and CID) of the command's last block. -/
theorem handleApdu_keeps (hk : E.KeepsPrefix) (st : σ) (header apdu : Octets) {tx : DfcByteBuf L}
    (h : header <+: tx.data) : header <+: (handleApdu E st header.length apdu tx).txBuffer.data := by
  unfold handleApdu
  split
  · exact h.trans (lengthError_keeps st tx)
  · split
    · simp only
      split
      · exact h.trans (hk.select _ _ _ _)
      · exact handleNative_keeps hk _ _ _ (h.trans (hk.select _ _ _ _))
    · exact handleNative_keeps hk _ _ _ h

theorem handleCommand_engineSide (st : σ) (apdu : Octets) (tx : DfcByteBuf L) :
    ∀ e ∈ (handleCommand E st apdu tx).effects, e.engineSide := by
  intro e he
  simp only [handleCommand, List.mem_cons, List.mem_append, List.mem_map] at he
  rcases he with (rfl | ⟨_, _, rfl⟩) | he
  · trivial
  · trivial
  · split at he
    · cases he
    · simp at he; subst he; trivial

theorem handleNative_engineSide (st : σ) (off : Nat) (apdu : Octets) (tx : DfcByteBuf L) :
    ∀ e ∈ (handleNative E st off apdu tx).effects, e.engineSide := by
  unfold handleNative
  split
  · split
    · intro e he; cases he
    · exact handleCommand_engineSide _ _ _
  · exact handleCommand_engineSide _ _ _

theorem handleApdu_engineSide (st : σ) (off : Nat) (apdu : Octets) (tx : DfcByteBuf L) :
    ∀ e ∈ (handleApdu E st off apdu tx).effects, e.engineSide := by
  unfold handleApdu
  split
  · intro e he; cases he
  · split
    · simp only
      split
      · intro e he
        rcases List.mem_cons.mp he with rfl | he
        · trivial
        · split at he
          · simp at he; subst he; trivial
          · cases he
      · intro e he
        rcases List.mem_cons.mp he with rfl | he
        · trivial
        · exact handleNative_engineSide _ _ _ _ e he
    · exact handleNative_engineSide _ _ _ _

/-! ## Answering -/

/-- `s'` is `s` after the APDU that came with `header` was answered. -/
structure Answered (E : Engine L σ) (s : Listener L σ) (header apdu : Octets) (s' : Listener L σ)
    (out : List Effect) : Prop where
  response : s'.txBuffer = (handleApdu E s.engine header.length apdu (s.txBuffer.reset.appendBytes header)).txBuffer
  starts : header <+: s'.txBuffer.data
  sendable : Sendable s'.txBuffer.data header.length
  valid : s'.lastResponseValid = true
  picc : s'.piccBlock = s.expectedPcdBlock
  expected : s'.expectedPcdBlock = !s.expectedPcdBlock
  frame_size : s'.lastFrame.length = isoDepFrameMax
  frame : s'.lastFrame.take s'.lastFrameLen = blockAt s'.txBuffer.data s.expectedPcdBlock header.length
  frame_len : s'.lastFrameLen = (blockAt s'.txBuffer.data s.expectedPcdBlock header.length).length
  offset : s'.responseOffset = nextOffset s'.txBuffer.data header.length
  command : s'.command = s.command
  commandLen : s'.commandLen = s.commandLen
  cidValid : s'.cidValid = s.cidValid
  cid : s'.cid = s.cid
  out_eq : out = .dispatch apdu ::
    ((handleApdu E s.engine header.length apdu (s.txBuffer.reset.appendBytes header)).effects ++
      [.answer s'.txBuffer.data, .tx (blockAt s'.txBuffer.data s.expectedPcdBlock header.length)])

theorem prefixLen_of_starts {header d : Octets} (h0 : header ≠ []) (h : header <+: d) : prefixLen d = prefixLen header := by
  obtain ⟨t, rfl⟩ := h
  cases header with
  | nil => exact absurd rfl h0
  | cons a r => rfl

/-- The response still starts with the header it is made behind. -/
theorem dispatch_starts {s : Listener L σ} {header apdu : Octets} (hf : s.lastFrame.length = isoDepFrameMax)
    (hh : prefixLen header = header.length)
    (hpre : header <+: (handleApdu E s.engine header.length apdu (s.txBuffer.reset.appendBytes header)).txBuffer.data) :
    Answered E s header apdu (dispatch E s header apdu).1 (dispatch E s header apdu).2 := by
  have h1 := prefixLen_pos header
  have h0 : header ≠ [] := by intro e; subst e; simp [prefixLen] at hh
  let r := handleApdu E s.engine header.length apdu (s.txBuffer.reset.appendBytes header)
  have hpl : prefixLen r.txBuffer.data = header.length := by rw [prefixLen_of_starts h0 hpre, hh]
  have hle : header.length ≤ r.txBuffer.data.length := hpre.length_le
  have hsend : Sendable r.txBuffer.data header.length := by
    have hstart : Sendable r.txBuffer.data (prefixLen r.txBuffer.data) := Sendable.start (by omega)
    rwa [hpl] at hstart
  let s1 : Listener L σ := { s with
    engine := r.state
    txBuffer := r.txBuffer
    piccBlock := s.expectedPcdBlock
    expectedPcdBlock := !s.expectedPcdBlock
    responseOffset := header.length }
  have heq := sendNextIResponse_eq s1 hf hsend.whole
  obtain ⟨hlen, htake⟩ := nextFrame_eq s1.piccBlock s1.responseOffset hf hsend.whole
  rw [← length_blockAt s1.piccBlock s1.responseOffset hsend.whole] at htake
  have htx := sendFrame_blockAt r.txBuffer s.expectedPcdBlock hsend
  have hd : dispatch E s header apdu = ((sendNextIResponse s1).1,
      .dispatch apdu :: r.effects ++ (.answer r.txBuffer.data :: (sendNextIResponse s1).2)) := by
    have hne : ¬ r.txBuffer.data.length = 0 := by omega
    simp only [dispatch, sendIResponse]
    rw [if_neg hne]
    simp only [hpl, s1, r]
  rw [hd, heq]
  exact { response := rfl, starts := hpre, sendable := hsend, valid := rfl, picc := rfl, expected := rfl,
          frame_size := hlen, frame := htake, frame_len := rfl, offset := rfl, command := rfl, commandLen := rfl,
          cidValid := rfl, cid := rfl, out_eq := by simpa [s1, r] using htx }

theorem dispatch_answered (hk : E.KeepsPrefix) (s : Listener L σ) (header apdu : Octets)
    (hf : s.lastFrame.length = isoDepFrameMax) (hh : prefixLen header = header.length) :
    Answered E s header apdu (dispatch E s header apdu).1 (dispatch E s header apdu).2 := by
  have h2 := prefixLen_le header
  have hfit := L.prefix_fits
  have hin : header <+: (s.txBuffer.reset.appendBytes header).data := by
    rw [DfcByteBuf.appendBytes_data (by simp; omega)]; simp
  exact dispatch_starts hf hh (handleApdu_keeps hk s.engine header apdu hin)

/-! ## Received blocks -/

structure Header (rx : Octets) (pcb : UInt8) (useCid : Bool) (cid : UInt8) : Prop where
  head : rx.head? = some pcb
  useCid_eq : useCid = (pcb &&& cidMask != 0)
  long : headerLen useCid ≤ rx.length
  cid_eq : cid = if useCid then rx.getD 1 0 else 0

structure RBlock (rx : Octets) (pcb : UInt8) (useCid : Bool) (cid : UInt8) : Prop extends Header rx pcb useCid cid where
  kind : pcb &&& 0xE6 = 0xA2
  bare : rx.length = headerLen useCid

structure IBlock (rx : Octets) (pcb : UInt8) (useCid : Bool) (cid : UInt8) : Prop extends Header rx pcb useCid cid where
  kind : isIPcb pcb
  noNad : pcb &&& nadMask = 0

/-- An I-block that gets past the addressing and the number check of the listener. -/
structure Expected (s : Listener L σ) (rx : Octets) (pcb : UInt8) (useCid : Bool) (cid : UInt8) : Prop
    extends IBlock rx pcb useCid cid where
  addressed : cidMismatch s useCid cid = true → s.lastResponseValid = false ∧ s.commandLen = 0
  number : blockNumber pcb = s.expectedPcdBlock

@[simp] theorem bindCid_lastResponseValid (s : Listener L σ) (u : Bool) (c : UInt8) :
    (bindCid s u c).lastResponseValid = s.lastResponseValid := by unfold bindCid; split <;> rfl
@[simp] theorem bindCid_expectedPcdBlock (s : Listener L σ) (u : Bool) (c : UInt8) :
    (bindCid s u c).expectedPcdBlock = s.expectedPcdBlock := by unfold bindCid; split <;> rfl
@[simp] theorem bindCid_piccBlock (s : Listener L σ) (u : Bool) (c : UInt8) :
    (bindCid s u c).piccBlock = s.piccBlock := by unfold bindCid; split <;> rfl
@[simp] theorem bindCid_lastFrame (s : Listener L σ) (u : Bool) (c : UInt8) :
    (bindCid s u c).lastFrame = s.lastFrame := by unfold bindCid; split <;> rfl
@[simp] theorem bindCid_lastFrameLen (s : Listener L σ) (u : Bool) (c : UInt8) :
    (bindCid s u c).lastFrameLen = s.lastFrameLen := by unfold bindCid; split <;> rfl
@[simp] theorem bindCid_command (s : Listener L σ) (u : Bool) (c : UInt8) :
    (bindCid s u c).command = s.command := by unfold bindCid; split <;> rfl
@[simp] theorem bindCid_commandLen (s : Listener L σ) (u : Bool) (c : UInt8) :
    (bindCid s u c).commandLen = s.commandLen := by unfold bindCid; split <;> rfl
@[simp] theorem bindCid_responseOffset (s : Listener L σ) (u : Bool) (c : UInt8) :
    (bindCid s u c).responseOffset = s.responseOffset := by unfold bindCid; split <;> rfl
@[simp] theorem bindCid_txBuffer (s : Listener L σ) (u : Bool) (c : UInt8) :
    (bindCid s u c).txBuffer = s.txBuffer := by unfold bindCid; split <;> rfl
@[simp] theorem bindCid_engine (s : Listener L σ) (u : Bool) (c : UInt8) :
    (bindCid s u c).engine = s.engine := by unfold bindCid; split <;> rfl
@[simp] theorem bindCid_cidValid (s : Listener L σ) (u : Bool) (c : UInt8) : (bindCid s u c).cidValid = u := by
  unfold bindCid cidMismatch; split
  · rfl
  · rename_i h; simp at h; exact h.1

theorem bindCid_eq {s : Listener L σ} {u : Bool} {c : UInt8} (h : cidMismatch s u c = false) : bindCid s u c = s := by
  simp [bindCid, h]

theorem cidMismatch_bindCid (s : Listener L σ) (u : Bool) (c : UInt8) : cidMismatch (bindCid s u c) u c = false := by
  unfold bindCid
  split
  · simp [cidMismatch]
  · rename_i h; simpa using h

def cachedFrame (s : Listener L σ) : Octets := s.lastFrame.take s.lastFrameLen

def appendInf (s : Listener L σ) (inf : Octets) : Listener L σ :=
  { s with command := writeAt s.command s.commandLen inf, commandLen := s.commandLen + inf.length }

def dropChain (s : Listener L σ) : Listener L σ := { s with commandLen := 0 }

def toggleExpected (s : Listener L σ) : Listener L σ := { s with expectedPcdBlock := !s.expectedPcdBlock }

def nextSent (s : Listener L σ) : Listener L σ :=
  let r := (sendNextIResponse { s with piccBlock := !s.piccBlock }).1
  { r with expectedPcdBlock := !r.piccBlock }

inductive Rx (E : Engine L σ) (s : Listener L σ) (rx : Octets) : Listener L σ → List Effect → Prop
  | ignored : Rx E s rx s []
  | pps (pcb : UInt8) : pcb &&& 0xF0 = 0xD0 → Rx E s rx s (sendControl L pcb false 0)
  | replayR {pcb : UInt8} {u : Bool} {c : UInt8} : RBlock rx pcb u c → cidMismatch s u c = false →
      s.lastResponseValid = true → blockNumber pcb = s.piccBlock → Rx E s rx s (sendFrame L (cachedFrame s))
  | nextBlock {pcb : UInt8} {u : Bool} {c : UInt8} : RBlock rx pcb u c → cidMismatch s u c = false →
      ¬(s.lastResponseValid = true ∧ blockNumber pcb = s.piccBlock) → s.responseOffset ≠ 0 → pcb &&& 0x10 = 0 →
      Rx E s rx (nextSent s) (sendNextIResponse { s with piccBlock := !s.piccBlock }).2
  | ackR {pcb : UInt8} {u : Bool} {c : UInt8} : RBlock rx pcb u c → cidMismatch s u c = false →
      ¬(s.lastResponseValid = true ∧ blockNumber pcb = s.piccBlock) → pcb &&& 0x10 ≠ 0 →
      Rx E s rx s (sendControl L (0xA2 ||| s.piccBlock.toUInt8) u c)
  | deselect {pcb : UInt8} {u : Bool} {c : UInt8} : Header rx pcb u c → pcb &&& ~~~cidMask = 0xC2 →
      rx.length = headerLen u → cidMismatch s u c = false →
      Rx E s rx (endActivation E s) (sendFrame L rx ++ [.resetActivation])
  | replayI {pcb : UInt8} {u : Bool} {c : UInt8} : IBlock rx pcb u c → cidMismatch s u c = false →
      blockNumber pcb ≠ s.expectedPcdBlock → s.lastResponseValid = true → s.commandLen = 0 →
      Rx E s rx s (sendFrame L (cachedFrame s))
  | ackI {pcb : UInt8} {u : Bool} {c : UInt8} : IBlock rx pcb u c → cidMismatch s u c = false →
      blockNumber pcb ≠ s.expectedPcdBlock → s.commandLen ≠ 0 →
      Rx E s rx s (sendControl L (0xA2 ||| (pcb &&& 1)) u c)
  | nakI {pcb : UInt8} {u : Bool} {c : UInt8} : IBlock rx pcb u c → blockNumber pcb ≠ s.expectedPcdBlock →
      s.lastResponseValid = false → s.commandLen = 0 →
      Rx E s rx (bindCid s u c) (sendControl L (0xB2 ||| s.expectedPcdBlock.toUInt8) u c)
  | refused {pcb : UInt8} {u : Bool} {c : UInt8} : Expected s rx pcb u c →
      s.responseOffset ≠ 0 ∨ rx.length ≤ headerLen u →
      Rx E s rx (bindCid s u c) (sendControl L (0xB2 ||| s.expectedPcdBlock.toUInt8) u c)
  | overflow {pcb : UInt8} {u : Bool} {c : UInt8} : Expected s rx pcb u c → s.responseOffset = 0 →
      headerLen u < rx.length → chaining pcb = true ∨ s.commandLen ≠ 0 →
      L.workerMaxBufferSize - s.commandLen < (rx.drop (headerLen u)).length →
      Rx E s rx (dropChain (bindCid s u c)) (sendControl L (0xB2 ||| s.expectedPcdBlock.toUInt8) u c)
  | chained {pcb : UInt8} {u : Bool} {c : UInt8} : Expected s rx pcb u c → s.responseOffset = 0 →
      headerLen u < rx.length → (rx.drop (headerLen u)).length ≤ L.workerMaxBufferSize - s.commandLen →
      chaining pcb = true →
      Rx E s rx (toggleExpected (appendInf (bindCid s u c) (rx.drop (headerLen u))))
        (.append (rx.drop (headerLen u)) :: sendControl L (0xA2 ||| (pcb &&& 1)) u c)
  | lastBlock {pcb : UInt8} {u : Bool} {c : UInt8} : Expected s rx pcb u c → s.responseOffset = 0 →
      headerLen u < rx.length → (rx.drop (headerLen u)).length ≤ L.workerMaxBufferSize - s.commandLen →
      chaining pcb = false → s.commandLen ≠ 0 → ∀ {s' out},
      dispatch E (dropChain (appendInf (bindCid s u c) (rx.drop (headerLen u)))) (rx.take (headerLen u))
        ((appendInf s (rx.drop (headerLen u))).command.take (appendInf s (rx.drop (headerLen u))).commandLen) =
          (s', out) →
      Rx E s rx s' (.append (rx.drop (headerLen u)) :: out)
  | single {pcb : UInt8} {u : Bool} {c : UInt8} : Expected s rx pcb u c → s.responseOffset = 0 →
      headerLen u < rx.length → chaining pcb = false → s.commandLen = 0 → ∀ {s' out},
      dispatch E (bindCid s u c) (rx.take (headerLen u)) (rx.drop (headerLen u)) = (s', out) → Rx E s rx s' out

theorem chaining_iff (pcb : UInt8) : chaining pcb = true ↔ pcb &&& 0x10 ≠ 0 := by simp [chaining]

theorem acceptIBlock_rx {s : Listener L σ} {rx : Octets} {pcb : UInt8} {u : Bool} {c : UInt8}
    (h : Expected s rx pcb u c) (ho : s.responseOffset = 0) (hl : headerLen u < rx.length) :
    Rx E s rx (acceptIBlock E (bindCid s u c) rx pcb u c).1 (acceptIBlock E (bindCid s u c) rx pcb u c).2 := by
  unfold acceptIBlock
  simp only [bindCid_commandLen, bindCid_command, bindCid_expectedPcdBlock]
  split
  · rename_i hmany
    split
    · rename_i hbig
      have := Rx.overflow (E := E) h ho hl (by rw [chaining_iff]; exact hmany) hbig
      simpa [dropChain] using this
    · rename_i hfits
      split
      · rename_i hmore
        have := Rx.chained (E := E) h ho hl (by omega) ((chaining_iff pcb).mpr hmore)
        simpa [appendInf, toggleExpected] using this
      · rename_i hlast
        have hopen : s.commandLen ≠ 0 := by
          rcases hmany with hm | hm
          · exact absurd hm hlast
          · exact hm
        have hc : chaining pcb = false := by simpa [chaining] using hlast
        refine .lastBlock h ho hl (by omega) hc hopen ?_
        simp [appendInf, dropChain]
  · rename_i hone
    simp only [not_or, ne_eq, Decidable.not_not] at hone
    exact .single h ho hl (by simpa [chaining] using hone.1) hone.2 rfl

theorem receivedIBlock_rx {s : Listener L σ} {rx : Octets} {pcb : UInt8} {u : Bool} {c : UInt8}
    (h : Header rx pcb u c) :
    Rx E s rx (receivedIBlock E s rx pcb u c).1 (receivedIBlock E s rx pcb u c).2 := by
  unfold receivedIBlock
  split
  · exact .ignored
  rename_i hk
  simp only [not_or, ne_eq, Decidable.not_not] at hk
  have hi : IBlock rx pcb u c := { h with kind := hk.1, noNad := hk.2 }
  split
  · exact .ignored
  rename_i ha
  have haddr : cidMismatch s u c = true → s.lastResponseValid = false ∧ s.commandLen = 0 := by
    intro hm; simpa [hm] using ha
  have hsame : s.lastResponseValid = true ∨ s.commandLen ≠ 0 → cidMismatch s u c = false := by
    intro hb
    cases hm : cidMismatch s u c with
    | false => rfl
    | true => obtain ⟨h1, h2⟩ := haddr hm; simp [h1, h2] at hb
  unfold addressedIBlock
  simp only [bindCid_expectedPcdBlock, bindCid_lastResponseValid, bindCid_commandLen, bindCid_responseOffset,
    bindCid_lastFrame, bindCid_lastFrameLen]
  split
  · rename_i hn
    split
    · rename_i hv
      have hm := hsame (Or.inl hv.1)
      rw [bindCid_eq hm]
      exact .replayI hi hm hn hv.1 hv.2
    · rename_i hv
      split
      · rename_i hopen
        have hm := hsame (Or.inr hopen)
        rw [bindCid_eq hm]
        exact .ackI hi hm hn hopen
      · rename_i hclosed
        have hclosed : s.commandLen = 0 := by simpa using hclosed
        exact .nakI hi hn (by simpa [hclosed] using hv) hclosed
  · rename_i hn
    have he : Expected s rx pcb u c := { hi with addressed := haddr, number := by simpa using hn }
    split
    · rename_i ho; exact .refused he (Or.inl ho)
    · rename_i ho
      split
      · rename_i hl; exact .refused he (Or.inr hl)
      · rename_i hl
        exact acceptIBlock_rx he (by simpa using ho) (by omega)

theorem receivedRBlock_rx {s : Listener L σ} {rx : Octets} {pcb : UInt8} {u : Bool} {c : UInt8}
    (h : Header rx pcb u c) :
    Rx E s rx (receivedRBlock s rx pcb u c).1 (receivedRBlock s rx pcb u c).2 := by
  unfold receivedRBlock
  split
  · exact .ignored
  rename_i hk
  simp only [not_or, ne_eq, Decidable.not_not] at hk
  have hr : RBlock rx pcb u c := { h with kind := hk.1, bare := hk.2 }
  split
  · exact .ignored
  rename_i ha
  have hm : cidMismatch s u c = false := by simpa using ha
  split
  · rename_i hv; exact .replayR hr hm hv.1 hv.2
  rename_i hv
  split
  · rename_i ho; exact .nextBlock hr hm hv ho.1 ho.2
  · split
    · rename_i hnak; exact .ackR hr hm hv hnak
    · exact .ignored

theorem receivedSBlock_rx {s : Listener L σ} {rx : Octets} {pcb : UInt8} {u : Bool} {c : UInt8}
    (h : Header rx pcb u c) :
    Rx E s rx (receivedSBlock E s rx pcb u c).1 (receivedSBlock E s rx pcb u c).2 := by
  unfold receivedSBlock
  split
  · rename_i hs; exact .deselect h hs.1 hs.2.1 (by simpa using hs.2.2)
  · exact .ignored

/-- Every received frame takes one of the branches. -/
theorem receivedData_rx (s : Listener L σ) (rx : Octets) :
    Rx E s rx (receivedData E s rx).1 (receivedData E s rx).2 := by
  unfold receivedData
  cases rx with
  | nil => exact .ignored
  | cons pcb rest =>
    simp only
    split
    · exact .ignored
    rename_i hlong
    have hd : Header (pcb :: rest) pcb (pcb &&& cidMask != 0)
        (if (pcb &&& cidMask != 0) = true then (pcb :: rest).getD 1 0 else 0) :=
      ⟨rfl, rfl, by omega, rfl⟩
    split
    · rename_i hp
      unfold receivedPps
      split
      · exact .pps pcb hp
      · exact .ignored
    · split
      · exact receivedRBlock_rx hd
      · split
        · exact receivedSBlock_rx hd
        · exact receivedIBlock_rx hd

/-! ## Which branch a header leads to -/

theorem rBlock_kind : ∀ pcb : UInt8, pcb &&& 0xE6 = 0xA2 → pcb &&& 0xF0 ≠ 0xD0 ∧ pcb &&& 0xC0 = 0x80 :=
  forall_octet (by decide +kernel)

theorem iBlock_kind : ∀ pcb : UInt8, isIPcb pcb →
    pcb &&& 0xF0 ≠ 0xD0 ∧ pcb &&& 0xC0 ≠ 0x80 ∧ pcb &&& 0xC0 ≠ 0xC0 :=
  forall_octet (by decide +kernel)

theorem deselect_kind : ∀ pcb : UInt8, pcb &&& ~~~cidMask = 0xC2 →
    pcb &&& 0xF0 ≠ 0xD0 ∧ pcb &&& 0xC0 ≠ 0x80 ∧ pcb &&& 0xC0 = 0xC0 :=
  forall_octet (by decide +kernel)

theorem receivedData_header {s : Listener L σ} {rx : Octets} {pcb : UInt8} {u : Bool} {c : UInt8} (h : Header rx pcb u c) :
    receivedData E s rx =
      if pcb &&& 0xF0 = 0xD0 then (s, receivedPps (L := L) rx pcb)
      else if pcb &&& 0xC0 = 0x80 then receivedRBlock s rx pcb u c
      else if pcb &&& 0xC0 = 0xC0 then receivedSBlock E s rx pcb u c
      else receivedIBlock E s rx pcb u c := by
  obtain ⟨hhead, hu, hlong, hc⟩ := h
  cases rx with
  | nil => simp at hhead
  | cons a rest =>
    simp only [List.head?_cons, Option.some.injEq] at hhead
    subst hhead hu hc
    have hlong' : ¬ (a :: rest).length < headerLen (a &&& cidMask != 0) := by omega
    simp only [receivedData]
    rw [if_neg hlong']

theorem receivedData_rBlock {s : Listener L σ} {rx : Octets} {pcb : UInt8} {u : Bool} {c : UInt8} (h : RBlock rx pcb u c) :
    receivedData E s rx = receivedRBlock s rx pcb u c := by
  obtain ⟨hpps, hr⟩ := rBlock_kind pcb h.kind
  rw [receivedData_header h.toHeader, if_neg hpps, if_pos hr]

theorem receivedData_iBlock {s : Listener L σ} {rx : Octets} {pcb : UInt8} {u : Bool} {c : UInt8} (h : IBlock rx pcb u c) :
    receivedData E s rx = receivedIBlock E s rx pcb u c := by
  obtain ⟨hpps, hr, hs⟩ := iBlock_kind pcb h.kind
  rw [receivedData_header h.toHeader, if_neg hpps, if_neg hr, if_neg hs]

theorem receivedData_deselect {s : Listener L σ} {rx : Octets} {pcb : UInt8} {u : Bool} {c : UInt8} (h : Header rx pcb u c)
    (hp : pcb &&& ~~~cidMask = 0xC2) (hl : rx.length = headerLen u) (hm : cidMismatch s u c = false) :
    receivedData E s rx = (endActivation E s, sendFrame L rx ++ [.resetActivation]) := by
  obtain ⟨hpps, hr, hs⟩ := deselect_kind pcb hp
  rw [receivedData_header h, if_neg hpps, if_neg hr, if_pos hs, receivedSBlock, if_pos ⟨hp, hl, by simpa using hm⟩]

end DfcFlipper.IsoDep
