/-
  DfcFlipper.IsoDep.Delivery — the three ways an APDU comes to the engine: in one I-block, in
  a chain of them, and bare, as the SDK with type_4_tag.h hands it over.

  The ways differ in the prefix that the response buffer holds while the engine writes behind
  it: PCB and CID of the last block, the PCB alone, or nothing. Of the engine it is assumed
  that it does not look at that prefix (`PrefixBlind`); then a handled APDU is the bare one
  with the prefix in front (`handleApdu_shifted`), as long as the buffers have room for it
  (`Room`).

  `Delivery E s apdu k r`: the listener in state `s` gets `apdu` in one of these ways, with a
  prefix of `k` octets, and `r` is what comes of it once the reader has read the response out.
  `deliveries_agree`: engine calls, events, the payload in the frames sent and the engine's
  state are the same for any two.
-/

import DfcFlipper.IsoDep.Overflow
import DfcFlipper.IsoDep.ReadOut

namespace DfcFlipper.IsoDep

open DfcFlipper.Lib.Bytes DfcFlipper.Lib.Run

variable {L : Limits} {σ : Type}

/-! ## The build with type_4_tag.h -/

/-- `send_response`: the whole buffer is one frame, as `send_i_response` sends it here. -/
def sendResponse (tx : DfcByteBuf L) : List Effect :=
  if tx.data.length = 0 then [] else .answer tx.data :: sendFrame L tx.data

variable (E : Engine L σ)

/-- `ReceivedData` in that build: `offset` is 0, and no `iso_dep_*` field is used. -/
def receivedDataType4 (s : Listener L σ) (rx : Octets) : Listener L σ × List Effect :=
  if rx.length ≤ 0 then (s, [])
  else
    let r := handleApdu E s.engine 0 rx s.txBuffer.reset
    ({ s with engine := r.state, txBuffer := r.txBuffer }, .dispatch rx :: r.effects ++ sendResponse r.txBuffer)

/-! ## The prefix in the response buffer -/

/-- The engine and the wrapping do the same behind any prefix, when the buffers have room. -/
structure Engine.PrefixBlind : Prop where
  select : ∀ st apdu header (tx tx' : DfcByteBuf L), tx'.data = header ++ tx.data →
    header.length + (E.handleIso7816Select st apdu tx 0).txBuffer.data.length ≤ L.bytebufMax →
    let r := E.handleIso7816Select st apdu tx 0
    let r' := E.handleIso7816Select st apdu tx' header.length
    r'.handled = r.handled ∧ r'.appSelected = r.appSelected ∧ r'.state = r.state ∧
      r'.txBuffer.data = header ++ r.txBuffer.data
  command : ∀ st apdu header (tx tx' : DfcByteBuf L), tx'.data = header ++ tx.data →
    header.length + (E.handleCommand st apdu tx).txBuffer.data.length ≤ L.bytebufMax →
    let r := E.handleCommand st apdu tx
    let r' := E.handleCommand st apdu tx'
    r'.handled = r.handled ∧ r'.notified = r.notified ∧ r'.state = r.state ∧
      r'.txBuffer.data = header ++ r.txBuffer.data
  wrap : ∀ header body cap, body ≠ [] →
    (∀ out, E.wrapNativeResponseAsIso7816 body 0 cap = some out → header.length + out.length ≤ cap →
      E.wrapNativeResponseAsIso7816 (header ++ body) header.length cap = some (header ++ out)) ∧
    (E.wrapNativeResponseAsIso7816 body 0 cap = none →
      E.wrapNativeResponseAsIso7816 (header ++ body) header.length cap = none)

def nativeApdu (apdu : Octets) : Octets := apdu.getD 1 0 :: (apdu.drop 5).take (apdu.getD 4 0).toNat

/-- The bare response to a native APDU leaves `k` octets free in every buffer it passes through. -/
def NativeRoom (k : Nat) (st : σ) (apdu : Octets) (tx : DfcByteBuf L) : Prop :=
  if 5 ≤ apdu.length ∧ apdu.headD 0 = iso7816ClaWrapper then
    if badLc L apdu then k + (tx.data.length + 2) ≤ L.bytebufMax
    else
      let answer := (E.handleCommand st (nativeApdu apdu) tx).txBuffer
      k + answer.data.length ≤ L.bytebufMax ∧
        ∀ out, E.wrapNativeResponseAsIso7816 answer.data 0 L.workerMaxBufferSize = some out →
          k + out.length ≤ L.workerMaxBufferSize ∧ k + out.length ≤ L.bytebufMax
  else k + (E.handleCommand st apdu tx).txBuffer.data.length ≤ L.bytebufMax

/-- So does the bare response to any APDU. -/
def Room (k : Nat) (st : σ) (apdu : Octets) : Prop :=
  if L.workerMaxBufferSize < apdu.length then k + 2 ≤ L.bytebufMax
  else if 4 ≤ apdu.length ∧ apdu.headD 0 = iso7816ClaStandard then
    let r := E.handleIso7816Select st apdu .empty 0
    k + r.txBuffer.data.length ≤ L.bytebufMax ∧ (r.handled = false → NativeRoom E k r.state apdu r.txBuffer)
  else NativeRoom E k st apdu .empty

variable {E}

structure Shifted (header : Octets) (r r' : Handled L σ) : Prop where
  state : r'.state = r.state
  effects : r'.effects = r.effects
  data : r'.txBuffer.data = header ++ r.txBuffer.data

theorem appendBytes_shifted {header data : Octets} {tx tx' : DfcByteBuf L} (h : tx'.data = header ++ tx.data)
    (hfit : header.length + (tx.data.length + data.length) ≤ L.bytebufMax) :
    (tx'.appendBytes data).data = header ++ (tx.appendBytes data).data := by
  have hlen : tx'.data.length = header.length + tx.data.length := by rw [h, List.length_append]
  rw [DfcByteBuf.appendBytes_data (by omega), DfcByteBuf.appendBytes_data (by omega), h, List.append_assoc]

theorem lengthError_shifted (st : σ) {header : Octets} {tx tx' : DfcByteBuf L} (h : tx'.data = header ++ tx.data)
    (hfit : header.length + (tx.data.length + 2) ≤ L.bytebufMax) : Shifted header (lengthError st tx) (lengthError st tx') := by
  have h1 : (tx'.appendByte 0x91).data = header ++ (tx.appendByte 0x91).data :=
    appendBytes_shifted h (by simp only [List.length_singleton]; omega)
  have hlen : (tx.appendByte 0x91).data.length = tx.data.length + 1 := by
    rw [DfcByteBuf.appendByte, DfcByteBuf.appendBytes_data (by simp only [List.length_singleton]; omega)]
    simp
  exact ⟨rfl, rfl, appendBytes_shifted h1 (by rw [hlen, List.length_singleton]; omega)⟩

theorem handleCommand_shifted (hb : E.PrefixBlind) (st : σ) (apdu : Octets) {header : Octets} {tx tx' : DfcByteBuf L}
    (h : tx'.data = header ++ tx.data)
    (hroom : header.length + (E.handleCommand st apdu tx).txBuffer.data.length ≤ L.bytebufMax) :
    Shifted header (handleCommand E st apdu tx) (handleCommand E st apdu tx') := by
  obtain ⟨hh, hn, hs, hd⟩ := hb.command st apdu header tx tx' h hroom
  refine ⟨hs, ?_, hd⟩
  simp only [handleCommand]
  rw [hh, hn]

/-- The wrapped response is wrapped behind the header, or left alone with it. -/
theorem wrapResponse_shifted (hb : E.PrefixBlind) {header : Octets} {tx tx' : DfcByteBuf L}
    (h : tx'.data = header ++ tx.data)
    (hroom : ∀ out, E.wrapNativeResponseAsIso7816 tx.data 0 L.workerMaxBufferSize = some out →
      header.length + out.length ≤ L.workerMaxBufferSize ∧ header.length + out.length ≤ L.bytebufMax) :
    (wrapResponse E header.length tx').data = header ++ (wrapResponse E 0 tx).data := by
  have hlen : tx'.data.length = header.length + tx.data.length := by rw [h, List.length_append]
  unfold wrapResponse
  by_cases hpos : 0 < tx.data.length
  · rw [if_pos (show header.length < tx'.data.length by omega), if_pos hpos]
    obtain ⟨hsome, hnone⟩ := hb.wrap header tx.data L.workerMaxBufferSize (List.ne_nil_of_length_pos hpos)
    rw [← h] at hsome hnone
    cases hw : E.wrapNativeResponseAsIso7816 tx.data 0 L.workerMaxBufferSize with
    | none =>
      rw [hnone hw]
      exact h
    | some out =>
      obtain ⟨hcap, hfit⟩ := hroom out hw
      rw [hsome out hw hcap]
      simp only
      rw [DfcByteBuf.appendBytes_data, DfcByteBuf.appendBytes_data]
      · rfl
      · simp only [DfcByteBuf.reset_data, List.length_nil]; omega
      · simp only [DfcByteBuf.reset_data, List.length_nil, List.length_append]; omega
  · rw [if_neg (show ¬header.length < tx'.data.length by omega), if_neg hpos]
    exact h

theorem handleNative_shifted (hb : E.PrefixBlind) (st : σ) (apdu : Octets) {header : Octets} {tx tx' : DfcByteBuf L}
    (h : tx'.data = header ++ tx.data) (hroom : NativeRoom E header.length st apdu tx) :
    Shifted header (handleNative E st 0 apdu tx) (handleNative E st header.length apdu tx') := by
  unfold NativeRoom at hroom
  unfold handleNative
  by_cases hw : 5 ≤ apdu.length ∧ apdu.headD 0 = iso7816ClaWrapper
  · rw [if_pos hw] at hroom ⊢
    rw [if_pos hw]
    by_cases hlc : badLc L apdu
    · rw [if_pos hlc] at hroom ⊢
      rw [if_pos hlc]
      exact lengthError_shifted st h hroom
    · rw [if_neg hlc] at hroom ⊢
      rw [if_neg hlc]
      obtain ⟨hs, he, hd⟩ := handleCommand_shifted hb st (nativeApdu apdu) h hroom.1
      exact ⟨hs, he, wrapResponse_shifted hb hd hroom.2⟩
  · rw [if_neg hw] at hroom ⊢
    rw [if_neg hw]
    exact handleCommand_shifted hb st apdu h hroom

/-- A handled APDU is the bare one with the header in front. -/
theorem handleApdu_shifted (hb : E.PrefixBlind) (st : σ) (apdu : Octets) {header : Octets} {tx' : DfcByteBuf L}
    (h : tx'.data = header) (hroom : Room E header.length st apdu) :
    Shifted header (handleApdu E st 0 apdu .empty) (handleApdu E st header.length apdu tx') := by
  have h' : tx'.data = header ++ (DfcByteBuf.empty : DfcByteBuf L).data := by rw [h]; exact (List.append_nil _).symm
  unfold Room at hroom
  unfold handleApdu
  by_cases hlong : L.workerMaxBufferSize < apdu.length
  · rw [if_pos hlong] at hroom ⊢
    rw [if_pos hlong]
    exact lengthError_shifted st h' (by simpa [DfcByteBuf.empty] using hroom)
  · rw [if_neg hlong] at hroom ⊢
    rw [if_neg hlong]
    by_cases hsel : 4 ≤ apdu.length ∧ apdu.headD 0 = iso7816ClaStandard
    · rw [if_pos hsel] at hroom ⊢
      rw [if_pos hsel]
      obtain ⟨hh, ha, hs, hd⟩ := hb.select st apdu header .empty tx' h' hroom.1
      simp only at hh ha hs hd ⊢
      rw [hh, ha, hs]
      by_cases hdone : (E.handleIso7816Select st apdu .empty 0).handled = true
      · rw [if_pos hdone, if_pos hdone]
        exact ⟨rfl, rfl, hd⟩
      · rw [if_neg hdone, if_neg hdone]
        obtain ⟨hs', he', hd'⟩ := handleNative_shifted hb (E.handleIso7816Select st apdu .empty 0).state apdu hd
          (hroom.2 (by simpa using hdone))
        exact ⟨hs', by rw [he'], hd'⟩
    · rw [if_neg hsel] at hroom ⊢
      rw [if_neg hsel]
      exact handleNative_shifted hb st apdu h' hroom

/-! ## What a delivery comes to -/

/-- What the application on the card and the reader see of a delivered APDU. -/
structure Outcome (σ : Type) where
  engine : σ
  calls : List Effect
  payload : Octets

/-- The response as it was sent: the INFs of the I-blocks, or, where the SDK makes the blocks
    (`k = 0`), the frames handed to it. -/
def received (k : Nat) (out : List Effect) : Octets :=
  if k = 0 then (framesSent out).flatten else (iBlocks out).flatMap inf

def outcome (k : Nat) (r : Listener L σ × List Effect) : Outcome σ := ⟨r.1.engine, engineCalls r.2, received k r.2⟩

/-- An APDU through the engine side, behind a header. -/
def handledOutcome (E : Engine L σ) (st : σ) (header apdu : Octets) : Outcome σ :=
  let r := handleApdu E st header.length apdu (DfcByteBuf.empty.appendBytes header)
  ⟨r.state, r.effects, r.txBuffer.data.drop header.length⟩

/-- `r` is the APDU handed on behind `header`, once; and if the engine left that in place, its
    response was sent, all of it. -/
structure Handed (E : Engine L σ) (st : σ) (header apdu : Octets) (r : Listener L σ × List Effect) : Prop where
  engine : r.1.engine = (handledOutcome E st header apdu).engine
  calls : engineCalls r.2 = (handledOutcome E st header apdu).calls
  sent : header <+: (handleApdu E st header.length apdu (DfcByteBuf.empty.appendBytes header)).txBuffer.data →
    received header.length r.2 = (handledOutcome E st header apdu).payload ∧ r.1.responseOffset = 0

/-- Behind any header, an engine that is blind to it does what it does for the bare APDU. -/
theorem handledOutcome_blind {E : Engine L σ} (hb : E.PrefixBlind) {st : σ} {header apdu : Octets} (hlen : header.length ≤ 2)
    (hroom : Room E header.length st apdu) : handledOutcome E st header apdu = handledOutcome E st [] apdu ∧
      header <+: (handleApdu E st header.length apdu (DfcByteBuf.empty.appendBytes header)).txBuffer.data := by
  have hfit := L.prefix_fits
  have htx : (DfcByteBuf.empty.appendBytes header : DfcByteBuf L).data = header :=
    DfcByteBuf.appendBytes_data (b := .empty) (show 0 + header.length ≤ L.bytebufMax by omega)
  have hnil : (DfcByteBuf.empty.appendBytes [] : DfcByteBuf L) = .empty := dif_pos (Nat.zero_le _)
  obtain ⟨hs, he, hd⟩ := handleApdu_shifted hb st apdu htx hroom
  refine ⟨?_, by rw [hd]; exact List.prefix_append _ _⟩
  simp only [handledOutcome]
  rw [hs, he, hd, hnil, List.drop_left]
  rfl

/-! ## The deliveries -/

/-- The CID is the bound one, or one may still be bound. -/
def Addressed (s : Listener L σ) (cid : Option UInt8) : Prop :=
  cidMismatch s cid.isSome (cid.getD 0) = true → s.lastResponseValid = false

/-- A reader's delivery goes on until it has the response; each block carries an octet of it
    or more, so that `DFC_BYTEBUF_MAX` acknowledgements are enough. -/
inductive Delivery (E : Engine L σ) (s : Listener L σ) (apdu : Octets) : Nat → Listener L σ × List Effect → Prop
  | block {cid : Option UInt8} : Addressed s cid → Delivery E s apdu (headerLen cid.isSome)
      (readOut E cid L.bytebufMax (workerListenerCallback E s (.receivedData (iFrame s.expectedPcdBlock false cid apdu))))
  /-- A longer APDU overflows `iso_dep_command`. -/
  | chain {C : Chain} : C.number = s.expectedPcdBlock → Addressed s C.cid → 2 ≤ C.chunks.length → C.chunks.flatten = apdu →
      apdu.length ≤ L.workerMaxBufferSize → Delivery E s apdu (headerLen C.cid.isSome)
        (readOut E C.cid L.bytebufMax (run (workerListenerCallback E) s (C.send (List.range C.chunks.length))))
  | bare : Delivery E s apdu 0 (receivedDataType4 E s apdu)

structure Free (s : Listener L σ) : Prop extends Sized s where
  closed : s.commandLen = 0
  out : s.responseOffset = 0

theorem length_header_le (u : Bool) : 1 ≤ headerLen u ∧ headerLen u ≤ 2 := by cases u <;> decide

variable {E : Engine L σ}

theorem flatten_framesSent_sendResponse (tx : DfcByteBuf L) :
    engineCalls (sendResponse tx) = [] ∧ (framesSent (sendResponse tx)).flatten = tx.data := by
  unfold sendResponse
  split
  · rename_i hempty
    rw [List.length_eq_zero_iff.mp hempty]
    exact ⟨rfl, rfl⟩
  · refine ⟨(engineCalls_cons id).trans (engineCalls_sendFrame _), ?_⟩
    rw [sendFrame, if_pos tx.fits]
    exact List.append_nil _

theorem handed_type4 {s : Listener L σ} (hs : Free s) {apdu : Octets} (hpos : 0 < apdu.length) :
    Handed E s.engine [] apdu (receivedDataType4 E s apdu) := by
  have hside := handleApdu_engineSide (E := E) s.engine 0 apdu s.txBuffer.reset
  obtain ⟨hc, hf⟩ := flatten_framesSent_sendResponse (handleApdu E s.engine 0 apdu s.txBuffer.reset).txBuffer
  have hnil : (DfcByteBuf.empty.appendBytes [] : DfcByteBuf L) = s.txBuffer.reset := dif_pos (Nat.zero_le _)
  rw [receivedDataType4, if_neg (by omega)]
  simp only
  refine ⟨?_, ?_, fun _ => ⟨?_, hs.out⟩⟩
  · simp only [handledOutcome]
    rw [hnil]
    rfl
  · simp only [handledOutcome]
    rw [List.cons_append, engineCalls_cons id, engineCalls_append, engineCalls_engineSide hside, hc, List.append_nil, hnil]
    rfl
  · show (framesSent (_ ++ sendResponse _)).flatten = _
    rw [framesSent_append, List.flatten_append, hf]
    simp only [handledOutcome]
    rw [hnil]
    exact congrArg (fun frames : List Octets => frames.flatten ++ _) (framesSent_engineSide hside)

/-- The blocks before `i` are in `iso_dep_command`, and no engine call nor I-block was made. -/
structure Gathered (C : Chain) (st : σ) (i : Nat) (a : Listener L σ × List Effect) : Prop extends Collecting C 0 i a.1 where
  content : a.1.command.take a.1.commandLen = (C.chunks.take i).flatten
  engine : a.1.engine = st
  calls : engineCalls a.2 = []
  blocks : iBlocks a.2 = []

theorem flatten_take_succ (C : Chain) {i : Nat} (h : i < C.chunks.length) :
    (C.chunks.take (i + 1)).flatten = (C.chunks.take i).flatten ++ C.chunk i := by
  rw [List.take_add_one, List.getElem?_eq_getElem h, List.flatten_append, C.chunk_eq h]
  simp

theorem Gathered.step {C : Chain} {st : σ} {i : Nat} {a : Listener L σ × List Effect} (h : Gathered C st i a)
    (hi : i + 1 < C.chunks.length) (hfit : C.size (i + 1) ≤ L.workerMaxBufferSize) :
    Gathered C st (i + 1) (logged (workerListenerCallback E) a (.receivedData (C.frame i))) := by
  have hlt : i < C.chunks.length := by omega
  have hsize := C.size_succ hlt
  have hlen := h.commandLen
  have hroom : (C.chunk i).length ≤ L.workerMaxBufferSize - a.1.commandLen := by omega
  have hcol := (h.toCollecting.step (E := E) hi (by omega)).1
  have heq := receivedData_chained (E := E) h.block h.offset (C.frame_long hlt) (by rw [C.frame_inf]; exact hroom)
    (by simp [hi])
  rw [C.frame_inf] at heq
  have hfull : (appendInf a.1 (C.chunk i)).command.take (appendInf a.1 (C.chunk i)).commandLen =
      (C.chunks.take (i + 1)).flatten := by
    rw [take_appendInf h.sized, h.content, flatten_take_succ C hlt]
  refine { hcol with content := ?_, engine := ?_, calls := ?_, blocks := ?_ }
  · show (receivedData E a.1 (C.frame i)).1.command.take (receivedData E a.1 (C.frame i)).1.commandLen = _
    rw [heq]
    simpa [toggleExpected, appendInf] using hfull
  · show (receivedData E a.1 (C.frame i)).1.engine = _
    rw [heq]
    simpa [toggleExpected, appendInf] using h.engine
  · show engineCalls (a.2 ++ (receivedData E a.1 (C.frame i)).2) = []
    rw [heq, engineCalls_append, h.calls, engineCalls_cons id]
    exact engineCalls_sendControl _ _ _
  · show iBlocks (a.2 ++ (receivedData E a.1 (C.frame i)).2) = []
    rw [heq, iBlocks_append, h.blocks]
    exact iBlocks_sendControl (ack_pcb_not_isIPcb _) _ _

/-- The first blocks of a chain, up to but not including its last. -/
theorem gathered_run {C : Chain} {s : Listener L σ} (h : Gathered C s.engine 0 (s, []))
    (hfit : C.size C.chunks.length ≤ L.workerMaxBufferSize) :
    ∀ i, i < C.chunks.length → Gathered C s.engine i (run (workerListenerCallback E) s (C.send (List.range i))) := by
  intro i
  induction i with
  | zero => intro _; exact h
  | succ i ih =>
    intro hi
    have hmono : C.size (i + 1) ≤ C.size C.chunks.length := C.size_mono (by omega)
    have hstep := (ih (by omega)).step (E := E) hi (by omega)
    rw [List.range_succ, Chain.send, List.map_append]
    show Gathered C s.engine (i + 1) (run _ s (C.send (List.range i) ++ [.receivedData (C.frame i)]))
    rw [run_snoc]
    exact hstep

/-- The last block hands the whole command on, behind its own header, and the response is read out. -/
theorem Gathered.last {C : Chain} {st : σ} {i : Nat} {a : Listener L σ × List Effect}
    (h : Gathered C st i a) (hi : i + 1 = C.chunks.length) (hfit : a.1.commandLen = 0 ∨ C.size (i + 1) ≤ L.workerMaxBufferSize) :
    Handed E st ((C.frame i).take (headerLen C.cid.isSome)) C.chunks.flatten
      (readOut E C.cid L.bytebufMax (logged (workerListenerCallback E) a (.receivedData (C.frame i)))) := by
  have hlt : i < C.chunks.length := by omega
  have hsize := C.size_succ hlt
  have hlen := h.commandLen
  have hlast : chaining (iPcb (numberAt C.number i) (i + 1 < C.chunks.length) C.cid.isSome) = false := by simp [hi]
  have hhead := length_take_header h.block.toHeader
  obtain ⟨s0, apdu, front, hw, hfront, heq⟩ := receivedData_whole (E := E) h.sized h.block h.offset (C.frame_long hlt)
    (by rw [C.frame_inf]; omega) hlast
  obtain rfl : apdu = C.chunks.flatten := by
    rw [hw.apdu_eq, C.frame_inf, h.content, ← flatten_take_succ C hlt, hi, List.take_length]
  have hlog : logged (workerListenerCallback E) a (.receivedData (C.frame i)) =
      ((dispatch E s0 ((C.frame i).take (headerLen C.cid.isSome)) C.chunks.flatten).1,
        a.2 ++ (front ++ (dispatch E s0 ((C.frame i).take (headerLen C.cid.isSome)) C.chunks.flatten).2)) :=
    congrArg (fun r => (r.1, a.2 ++ r.2)) heq
  obtain ⟨heng, hcalls⟩ := readOut_engine (E := E) C.cid L.bytebufMax
    (logged (workerListenerCallback E) a (.receivedData (C.frame i)))
  obtain ⟨hdeng, hdcalls⟩ := dispatch_engine E s0 ((C.frame i).take (headerLen C.cid.isSome)) C.chunks.flatten
  have hst : s0.engine = st := hw.engine.trans h.engine
  have hquiet : engineCalls front = [] := by
    rcases hfront with rfl | rfl
    · rfl
    · exact engineCalls_cons id
  rw [hst] at hdeng hdcalls
  refine ⟨?_, ?_, fun hpre => ?_⟩
  · rw [heng, hlog]
    exact hdeng
  · rw [hcalls, hlog]
    show engineCalls (a.2 ++ (front ++ _)) = _
    rw [engineCalls_append, engineCalls_append, h.calls, hquiet]
    exact hdcalls
  · have hpos := (length_header_le C.cid.isSome).1
    rw [hhead, ← h.engine] at hpre
    obtain ⟨hinf, hout⟩ := readOut_received h.block hlast hw hfront h.blocks hpre
    rw [hlog]
    refine ⟨?_, hout⟩
    rw [received, if_neg (by omega), hinf, handledOutcome, hhead, h.engine]

theorem gathered_nil {s : Listener L σ} (hs : Free s) {C : Chain} (hnum : C.number = s.expectedPcdBlock)
    (ha : Addressed s C.cid) : Gathered C s.engine 0 (s, []) :=
  { sized := hs.toSized
    expected := by simp [numberAt, hnum]
    offset := hs.out
    addressed := fun hm => ⟨ha hm, hs.closed⟩
    commandLen := by simp [hs.closed, Chain.size]
    content := by simp [hs.closed]
    engine := rfl
    calls := rfl
    blocks := rfl }

/-- However an APDU comes in, it goes through the engine side once, behind the header of its last block. -/
theorem Delivery.handed {s : Listener L σ} (hs : Free s) {apdu : Octets} (hpos : 1 ≤ apdu.length) {k : Nat}
    {r : Listener L σ × List Effect} (h : Delivery E s apdu k r) :
    ∃ header, header.length = k ∧ k ≤ 2 ∧ Handed E s.engine header apdu r := by
  cases h with
  | @block cid ha =>
    have hne : apdu ≠ [] := List.ne_nil_of_length_pos hpos
    let C : Chain := ⟨s.expectedPcdBlock, cid, [apdu], by simpa using hne⟩
    have h0 : Gathered C s.engine 0 (s, []) := gathered_nil hs rfl ha
    have hlast := h0.last (E := E) rfl (Or.inl hs.closed)
    have hflat : C.chunks.flatten = apdu := List.append_nil apdu
    have hframe : C.frame 0 = iFrame s.expectedPcdBlock false cid apdu := by
      show iFrame (s.expectedPcdBlock ^^ false) false cid apdu = _
      rw [Bool.xor_false]
    rw [hflat, hframe] at hlast
    exact ⟨_, length_take_header (iFrame_iBlock _ _ _ _).toHeader, (length_header_le _).2, hlast⟩
  | @chain C hnum ha hlen hflat hfit =>
    subst hflat
    obtain ⟨n, hn⟩ : ∃ n, n + 1 = C.chunks.length := ⟨C.chunks.length - 1, by omega⟩
    have hsize : C.size C.chunks.length = C.chunks.flatten.length := by rw [Chain.size, List.take_length]
    have hcol := gathered_run (E := E) (gathered_nil hs hnum ha) (by omega) n (by omega)
    have hlast := hcol.last (E := E) hn (Or.inr (by rw [hn]; omega))
    refine ⟨_, length_take_header hcol.block.toHeader, (length_header_le _).2, ?_⟩
    rw [← hn, List.range_succ, Chain.send, List.map_append]
    show Handed E _ _ _ (readOut E C.cid L.bytebufMax (run _ s (C.send (List.range n) ++ [.receivedData (C.frame n)])))
    rw [run_snoc]
    exact hlast
  | bare => exact ⟨[], rfl, Nat.zero_le _, handed_type4 hs hpos⟩

theorem Handed.outcome {st : σ} {header apdu : Octets} {r : Listener L σ × List Effect} (h : Handed E st header apdu r)
    (hpre : header <+: (handleApdu E st header.length apdu (DfcByteBuf.empty.appendBytes header)).txBuffer.data) :
    outcome header.length r = handledOutcome E st header apdu := by
  rw [IsoDep.outcome, h.engine, h.calls, (h.sent hpre).1]

/-- However an APDU is delivered: the same engine calls with the same octets, the same events, the same
payload in the frames sent, with nothing left to send, and the same engine afterwards. -/
theorem deliveries_agree (hb : E.PrefixBlind) {s : Listener L σ} (hs : Free s) {apdu : Octets} (hpos : 1 ≤ apdu.length)
    {k k' : Nat} {r r' : Listener L σ × List Effect} (h : Delivery E s apdu k r) (h' : Delivery E s apdu k' r')
    (hroom : Room E k s.engine apdu) (hroom' : Room E k' s.engine apdu) :
    outcome k r = outcome k' r' ∧ r.1.responseOffset = 0 ∧ r'.1.responseOffset = 0 := by
  obtain ⟨header, hlen, hk, hr⟩ := h.handed hs hpos
  obtain ⟨header', hlen', hk', hr'⟩ := h'.handed hs hpos
  subst hlen hlen'
  obtain ⟨hbare, hpre⟩ := handledOutcome_blind hb hk hroom
  obtain ⟨hbare', hpre'⟩ := handledOutcome_blind hb hk' hroom'
  exact ⟨by rw [hr.outcome hpre, hr'.outcome hpre', hbare, hbare'], (hr.sent hpre).2, (hr'.sent hpre').2⟩

/-- What is appended, or dropped, is so behind any prefix. -/
theorem appendBytes_behind {header data : Octets} {tx tx' : DfcByteBuf L} (h : tx'.data = header ++ tx.data)
    (hfit : header.length + (tx.appendBytes data).data.length ≤ L.bytebufMax) :
    (tx'.appendBytes data).data = header ++ (tx.appendBytes data).data := by
  by_cases hroom : tx.data.length + data.length ≤ L.bytebufMax
  · refine appendBytes_shifted h ?_
    rwa [DfcByteBuf.appendBytes_data hroom, List.length_append] at hfit
  · have hfull : tx.appendBytes data = tx := dif_neg hroom
    rw [hfull] at hfit ⊢
    have hlen : tx'.data.length = header.length + tx.data.length := by rw [h, List.length_append]
    have hfull' : tx'.appendBytes data = tx' := dif_neg (by omega)
    rw [hfull', h]

/-- The small engine appends one octet whatever is there, and wraps from the offset on. -/
theorem piccEngine_prefixBlind : piccEngine.PrefixBlind := by
  refine ⟨?_, ?_, ?_⟩
  · intro st apdu header tx tx' h _ r r'
    exact ⟨rfl, rfl, rfl, h⟩
  · intro st apdu header tx tx' h hfit
    simp only [piccEngine] at hfit ⊢
    by_cases hsel : apdu = [0x5A, 0, 0, 0]
    · rw [if_pos hsel] at hfit ⊢
      rw [if_pos hsel]
      exact ⟨rfl, rfl, rfl, appendBytes_behind h hfit⟩
    · rw [if_neg hsel] at hfit ⊢
      rw [if_neg hsel]
      exact ⟨rfl, rfl, rfl, appendBytes_behind h hfit⟩
  · intro header body cap hne
    obtain ⟨b, rest, rfl⟩ := List.exists_cons_of_ne_nil hne
    have hlen : (header ++ (rest ++ [0x91, b])).length = header.length + (rest.length + 2) := by simp
    simp only [piccEngine]
    constructor
    · intro out ho hcap
      split at ho
      · obtain rfl := Option.some.inj ho
        simp at hcap ⊢
        omega
      · cases ho
    · intro ho
      split at ho
      · cases ho
      · rename_i hbig
        simp at hbig ⊢
        omega

theorem appending_prefixBlind {τ : Type} (answer : τ → Octets → τ × Octets) (initial : τ) :
    (appending answer initial).PrefixBlind := by
  refine ⟨?_, ?_, piccEngine_prefixBlind.wrap⟩
  · intro st apdu header tx tx' h _ r r'
    exact ⟨rfl, rfl, rfl, h⟩
  · intro st apdu header tx tx' h hfit
    exact ⟨rfl, rfl, rfl, appendBytes_behind h hfit⟩

/-- ReadData, ISO-wrapped, in two blocks with CID 1. -/
def wrappedRead : Chain where
  number := false
  cid := some 1
  chunks := [[0x90, 0xAD, 0, 0], [7, 1, 0, 0, 0, 0, 0, 0, 0]]
  nonempty := by decide

theorem dataEngine_answer (st : Unit) (apdu : Octets) :
    ((dataEngine 100).handleCommand st apdu .empty).txBuffer.data = 0x00 :: List.replicate 100 0xA5 :=
  DfcByteBuf.appendBytes_data (b := .empty) (show 0 + (List.replicate 100 (0xA5 : UInt8)).length.succ ≤ 256 by decide)

/-- A hundred octets and their status: two blocks of a response, the second asked for with R(ACK). -/
theorem deliveries_agree_read :
    let chained := readOut (dataEngine 100) (some 1) 256 (run (workerListenerCallback (dataEngine 100)) (listenerInit smallLimits ())
      (wrappedRead.send (List.range wrappedRead.chunks.length)))
    let bare := receivedDataType4 (dataEngine 100) (listenerInit smallLimits ()) [0x90, 0xAD, 0, 0, 7, 1, 0, 0, 0, 0, 0, 0, 0]
    outcome 2 chained = outcome 0 bare ∧ chained.1.responseOffset = 0 ∧ bare.1.responseOffset = 0 := by
  have hroom : ∀ k, k ≤ 2 → Room (dataEngine 100) k () [0x90, 0xAD, 0, 0, 7, 1, 0, 0, 0, 0, 0, 0, 0] := by
    intro k hk
    have hcall := dataEngine_answer () (nativeApdu [0x90, 0xAD, 0, 0, 7, 1, 0, 0, 0, 0, 0, 0, 0])
    refine ⟨?_, fun out ho => ?_⟩
    · rw [hcall]; show k + 101 ≤ 256; omega
    · rw [hcall] at ho
      have hlen : out.length = 102 := by
        obtain rfl := Option.some.inj (show some _ = some out from ho)
        decide +kernel
      show k + out.length ≤ 128 ∧ k + out.length ≤ 256
      omega
  have hfree : Free (listenerInit smallLimits ()) := { sized_init smallLimits () with closed := rfl, out := rfl }
  exact deliveries_agree (appending_prefixBlind _ _) hfree (by decide)
    (.chain (C := wrappedRead) rfl (fun _ => rfl) (by decide) (by decide) (by decide)) .bare (hroom 2 (by omega))
    (hroom 0 (by omega))

end DfcFlipper.IsoDep
