/-
  DfcFlipper.IsoDep.Wrapping — native commands in ISO 7816-4 APDUs of class 90, as
  tests/probe_pcsc_mac_read.py sends them.

  `Probe.apdu` wraps an instruction and its data; the listener takes them out again, hands them
  to the engine, and moves the status octet the engine answers with to the end, behind 91
  (`iso_wrapping`). An Lc beyond the octets present is answered with the length error.

  Without data and without Le the probe's APDU has four octets. The listener unwraps from five
  on, which is what the probe itself asks of AdditionalFrame, and hands the four to the engine as
  they are (`four_octets_native`).
-/

import DfcFlipper.IsoDep.Delivery

namespace DfcFlipper.IsoDep

open DfcFlipper.Lib.Bytes

variable {L : Limits} {σ : Type} {E : Engine L σ}

/-! ## The wrapping -/

/-- `apdu()` of tests/probe_pcsc_mac_read.py. -/
def Probe.apdu (ins : UInt8) (data : Octets) (le : Bool) : Octets :=
  if data = [] then if le then [0x90, ins, 0, 0, 0] else [0x90, ins, 0, 0]
  else [0x90, ins, 0, 0, UInt8.ofNat data.length] ++ data ++ if le then [0] else []

/-- With data or Le there is an Lc octet, and the data behind it. -/
theorem Probe.apdu_eq (ins : UInt8) {data : Octets} {le : Bool} (h : data ≠ [] ∨ le = true) :
    ∃ tail, Probe.apdu ins data le = 0x90 :: ins :: 0 :: 0 :: UInt8.ofNat data.length :: (data ++ tail) := by
  unfold Probe.apdu
  by_cases hd : data = []
  · have hle : le = true := h.resolve_left (fun hn => hn hd)
    rw [if_pos hd, if_pos hle, hd]
    exact ⟨[], rfl⟩
  · rw [if_neg hd]
    exact ⟨if le then [0] else [], by simp⟩

theorem lc_toNat {data : Octets} (h : data.length ≤ 255) : (UInt8.ofNat data.length).toNat = data.length := by
  rw [UInt8.toNat_ofNat']
  omega

/-- The command in the probe's APDU. -/
theorem Probe.apdu_native (ins : UInt8) {data : Octets} {le : Bool} (h : data ≠ [] ∨ le = true) (hlen : data.length ≤ 255) :
    nativeApdu (Probe.apdu ins data le) = ins :: data := by
  obtain ⟨tail, ht⟩ := Probe.apdu_eq ins h
  rw [ht]
  simp only [nativeApdu, List.getD_cons_succ, List.getD_cons_zero, lc_toNat hlen, List.drop_succ_cons, List.drop_zero]
  rw [List.take_left]

/-- The listener takes the probe's APDU for a wrapped one, finds Lc right, and finds the command in it. -/
theorem Probe.apdu_unwraps (ins : UInt8) {data : Octets} {le : Bool} (h : data ≠ [] ∨ le = true)
    (hlen : data.length ≤ min 255 (L.workerMaxBufferSize - 1)) :
    (5 ≤ (Probe.apdu ins data le).length ∧ (Probe.apdu ins data le).headD 0 = iso7816ClaWrapper) ∧
      ¬badLc L (Probe.apdu ins data le) ∧ nativeApdu (Probe.apdu ins data le) = ins :: data := by
  have h255 : data.length ≤ 255 := Nat.le_trans hlen (Nat.min_le_left _ _)
  obtain ⟨tail, ht⟩ := Probe.apdu_eq ins h
  refine ⟨?_, ?_, Probe.apdu_native ins h h255⟩
  · rw [ht]
    exact ⟨by simp, rfl⟩
  · rw [ht]
    simp only [badLc, List.getD_cons_succ, List.getD_cons_zero, lc_toNat h255, List.length_cons, List.length_append]
    omega

/-! ## The engine -/

/-- In the state `st` the engine answers the command with a status and a payload, and the
wrapping moves the status behind the payload and 91; both fit behind a prefix of `k` octets. -/
structure Answers (E : Engine L σ) (st : σ) (native : Octets) (k : Nat) (status : UInt8) (payload : Octets) : Prop where
  command : ∀ tx : DfcByteBuf L, tx.data.length = k →
    (E.handleCommand st native tx).txBuffer.data = tx.data ++ status :: payload
  wrap : ∀ header, header.length = k →
    E.wrapNativeResponseAsIso7816 (header ++ status :: payload) k L.workerMaxBufferSize =
      some (header ++ (payload ++ [0x91, status]))
  fits : k + (payload.length + 2) ≤ L.bytebufMax

/-- A response of the engine behind its prefix, wrapped. -/
theorem wrapResponse_answers {st : σ} {native : Octets} {k : Nat} {status : UInt8} {payload : Octets}
    (h : Answers E st native k status payload) {tx : DfcByteBuf L} {header : Octets} (hk : header.length = k)
    (htx : tx.data = header ++ status :: payload) :
    (wrapResponse E k tx).data = header ++ (payload ++ [0x91, status]) := by
  have hlt : k < tx.data.length := by
    rw [htx, List.length_append, List.length_cons]
    omega
  have hfit := h.fits
  rw [wrapResponse, if_pos hlt, htx, h.wrap header hk]
  simp only
  rw [DfcByteBuf.appendBytes_data]
  · rfl
  · simp only [DfcByteBuf.reset_data, List.length_nil, List.length_append, List.length_cons]
    omega

/-! ## Through the listener -/

theorem appendBytes_empty {header : Octets} (h : header.length ≤ 2) :
    (DfcByteBuf.empty.appendBytes header : DfcByteBuf L).data = header :=
  DfcByteBuf.appendBytes_data (b := .empty) (show 0 + header.length ≤ L.bytebufMax from by
    have := L.prefix_fits
    omega)

/-- A wrapped APDU is no ISO select: its class is another. -/
theorem handleApdu_wrapped {st : σ} {off : Nat} {apdu : Octets} {tx : DfcByteBuf L}
    (hfit : apdu.length ≤ L.workerMaxBufferSize) (hcla : apdu.headD 0 = iso7816ClaWrapper) :
    handleApdu E st off apdu tx = handleNative E st off apdu tx := by
  have hno : ¬(4 ≤ apdu.length ∧ apdu.headD 0 = iso7816ClaStandard) := by
    rintro ⟨_, hstd⟩
    rw [hcla] at hstd
    exact absurd hstd (by decide)
  rw [handleApdu, if_neg (by omega), if_neg hno]

theorem handledOutcome_wrapped (st : σ) {header : Octets} {ins : UInt8} {data : Octets} {le : Bool}
    (hle : data ≠ [] ∨ le = true) (hlen : data.length ≤ min 255 (L.workerMaxBufferSize - 1))
    (hfit : (Probe.apdu ins data le).length ≤ L.workerMaxBufferSize) (hk : header.length ≤ 2) :
    let o := handledOutcome E st header (Probe.apdu ins data le)
    (∃ notes : List DfcCustomEvent, o.calls = .command (ins :: data) :: notes.map .notify) ∧
      ∀ status payload, Answers E st (ins :: data) header.length status payload → o.payload = payload ++ [0x91, status] ∧
        header <+: (handleApdu E st header.length (Probe.apdu ins data le) (DfcByteBuf.empty.appendBytes header)).txBuffer.data := by
  obtain ⟨hcla, hlc, hnat⟩ := Probe.apdu_unwraps (L := L) ins hle hlen
  have htx := appendBytes_empty (L := L) hk
  have heq : handleApdu E st header.length (Probe.apdu ins data le) (DfcByteBuf.empty.appendBytes header) =
      { handleCommand E st (ins :: data) (DfcByteBuf.empty.appendBytes header) with
        txBuffer := wrapResponse E header.length
          (handleCommand E st (ins :: data) (DfcByteBuf.empty.appendBytes header)).txBuffer } := by
    rw [handleApdu_wrapped hfit hcla.2, handleNative, if_pos hcla, if_neg hlc]
    rw [← hnat]
    rfl
  intro o
  refine ⟨?_, ?_⟩
  · show ∃ notes : List DfcCustomEvent,
      (handleApdu E st header.length (Probe.apdu ins data le) (DfcByteBuf.empty.appendBytes header)).effects =
        .command (ins :: data) :: notes.map .notify
    rw [heq]
    simp only [handleCommand]
    by_cases hh : (E.handleCommand st (ins :: data) (DfcByteBuf.empty.appendBytes header)).handled = true
    · rw [if_pos hh]
      exact ⟨_, List.append_nil _⟩
    · rw [if_neg hh]
      exact ⟨(E.handleCommand st (ins :: data) (DfcByteBuf.empty.appendBytes header)).notified ++ [.emulate], by simp⟩
  · intro status payload ha
    have hcmd := ha.command (DfcByteBuf.empty.appendBytes header) (by rw [htx])
    rw [htx] at hcmd
    have hwrap := wrapResponse_answers ha rfl hcmd
    have hdata : (handleApdu E st header.length (Probe.apdu ins data le) (DfcByteBuf.empty.appendBytes header)).txBuffer.data =
        header ++ (payload ++ [0x91, status]) := by
      rw [heq]
      exact hwrap
    refine ⟨?_, by rw [hdata]; exact List.prefix_append _ _⟩
    show List.drop header.length
      (handleApdu E st header.length (Probe.apdu ins data le) (DfcByteBuf.empty.appendBytes header)).txBuffer.data = _
    rw [hdata, List.drop_left]

/-- An Lc beyond the octets present: 91 and the length error, without the engine. -/
theorem handledOutcome_badLc (st : σ) {header apdu : Octets} (hlong : 5 ≤ apdu.length)
    (hcla : apdu.headD 0 = iso7816ClaWrapper) (hlc : apdu.length < 5 + (apdu.getD 4 0).toNat) (hk : header.length ≤ 2)
    (hfit : header.length + 2 ≤ L.bytebufMax) :
    handledOutcome E st header apdu = ⟨st, [], [0x91, statusLengthError]⟩ ∧
      header <+: (handleApdu E st header.length apdu (DfcByteBuf.empty.appendBytes header)).txBuffer.data := by
  have htx := appendBytes_empty (L := L) hk
  have heq : handleApdu E st header.length apdu (DfcByteBuf.empty.appendBytes header) =
      lengthError st (DfcByteBuf.empty.appendBytes header) := by
    by_cases hbig : L.workerMaxBufferSize < apdu.length
    · rw [handleApdu, if_pos hbig]
    · rw [handleApdu_wrapped (by omega) hcla, handleNative, if_pos ⟨hlong, hcla⟩, if_pos (show badLc L apdu from Or.inr hlc)]
  have hempty : (DfcByteBuf.empty.appendBytes header : DfcByteBuf L).data =
      header ++ (DfcByteBuf.empty : DfcByteBuf L).data := by
    rw [htx]
    exact (List.append_nil _).symm
  have hdata := (lengthError_shifted st hempty (by simpa [DfcByteBuf.empty] using hfit)).data
  have hbare : (lengthError st (DfcByteBuf.empty : DfcByteBuf L)).txBuffer.data = [0x91, statusLengthError] := by
    have h1 : ((DfcByteBuf.empty : DfcByteBuf L).appendByte 0x91).data = [0x91] :=
      DfcByteBuf.appendBytes_data (show 0 + 1 ≤ L.bytebufMax by have := L.prefix_fits; omega)
    have h2 : (((DfcByteBuf.empty : DfcByteBuf L).appendByte 0x91).appendByte statusLengthError).data =
        ((DfcByteBuf.empty : DfcByteBuf L).appendByte 0x91).data ++ [statusLengthError] :=
      DfcByteBuf.appendBytes_data (by rw [h1]; exact L.prefix_fits)
    exact h2.trans (by rw [h1]; rfl)
  refine ⟨?_, by rw [heq, hdata]; exact List.prefix_append _ _⟩
  simp only [handledOutcome]
  rw [heq, hdata, hbare, List.drop_left]
  rfl

/-- However it is delivered: of the probe's APDU, with data or Le, the engine gets the instruction and
the data, and the frames sent carry the payload, 91 and the status; an APDU of class 90 whose Lc
is beyond the octets present is answered with the length error, and the engine gets nothing. -/
theorem iso_wrapping {s : Listener L σ} (hs : Free s) {k : Nat} {r : Listener L σ × List Effect} :
    (∀ ins data le, data ≠ [] ∨ le = true → data.length ≤ min 255 (L.workerMaxBufferSize - 1) →
      (Probe.apdu ins data le).length ≤ L.workerMaxBufferSize → Delivery E s (Probe.apdu ins data le) k r →
      (∃ notes : List DfcCustomEvent, engineCalls r.2 = .command (ins :: data) :: notes.map .notify) ∧
        ∀ status payload, Answers E s.engine (ins :: data) k status payload →
          received k r.2 = payload ++ [0x91, status] ∧ r.1.responseOffset = 0) ∧
    (∀ apdu, 5 ≤ apdu.length → apdu.headD 0 = iso7816ClaWrapper → apdu.length < 5 + (apdu.getD 4 0).toNat →
      k + 2 ≤ L.bytebufMax → Delivery E s apdu k r →
      engineCalls r.2 = [] ∧ received k r.2 = [0x91, statusLengthError] ∧ r.1.responseOffset = 0) := by
  constructor
  · intro ins data le hle hlen hfit hd
    have hpos : 1 ≤ (Probe.apdu ins data le).length := by
      have := (Probe.apdu_unwraps (L := L) ins hle hlen).1.1
      omega
    obtain ⟨header, hk, hk2, hr⟩ := hd.handed hs hpos
    subst hk
    obtain ⟨hcalls, hpay⟩ := handledOutcome_wrapped (E := E) s.engine hle hlen hfit hk2
    refine ⟨by rw [hr.calls]; exact hcalls, fun status payload ha => ?_⟩
    obtain ⟨ho, hpre⟩ := hpay status payload ha
    rw [← ho]
    exact hr.sent hpre
  · intro apdu hlong hcla hlc hfit hd
    obtain ⟨header, hk, hk2, hr⟩ := hd.handed hs (by omega)
    subst hk
    obtain ⟨hbad, hpre⟩ := handledOutcome_badLc (E := E) s.engine hlong hcla hlc hk2 hfit
    refine ⟨by rw [hr.calls, hbad], ?_⟩
    rw [show [0x91, statusLengthError] = (handledOutcome E s.engine header apdu).payload by rw [hbad]]
    exact hr.sent hpre

/-- Status 00 and a hundred octets, as this engine answers and wraps them. -/
theorem dataEngine_answers {st : Unit} {native : Octets} {k : Nat} (hk : k ≤ 2) :
    Answers (dataEngine 100) st native k 0x00 (List.replicate 100 0xA5) := by
  have hlen : (List.replicate 100 (0xA5 : UInt8)).length = 100 := List.length_replicate
  refine ⟨?_, ?_, ?_⟩
  · intro tx htx
    refine DfcByteBuf.appendBytes_data (show tx.data.length + (List.replicate 100 (0xA5 : UInt8)).length.succ ≤ 256 from ?_)
    omega
  · rintro header rfl
    show piccEngine.wrapNativeResponseAsIso7816 _ _ _ = _
    simp only [piccEngine]
    rw [if_pos]
    · simp
    · show _ ≤ 128
      simp
      omega
  · show k + (_ + 2) ≤ 256
    omega

/-- ReadData in one block, answered in two, and an Lc of 9 with one octet of data. -/
theorem iso_wrapping_read :
    let read := readOut (dataEngine 100) none 256 (workerListenerCallback (dataEngine 100) (listenerInit smallLimits ())
      (.receivedData [0x02, 0x90, 0xAD, 0, 0, 7, 1, 0, 0, 0, 0, 0, 0, 0]))
    let short := readOut (dataEngine 100) none 256 (workerListenerCallback (dataEngine 100) (listenerInit smallLimits ())
      (.receivedData [0x02, 0x90, 0x5A, 0, 0, 9, 0]))
    (received 1 read.2 = List.replicate 100 0xA5 ++ [0x91, 0x00] ∧ read.1.responseOffset = 0) ∧
      received 1 short.2 = [0x91, 0x7E] ∧ short.1.responseOffset = 0 := by
  have hfree : Free (listenerInit smallLimits ()) := { sized_init smallLimits () with closed := rfl, out := rfl }
  have haddr : Addressed (listenerInit smallLimits ()) none := fun _ => rfl
  constructor
  · exact ((iso_wrapping hfree).1 0xAD [1, 0, 0, 0, 0, 0, 0] true (by decide) (by decide) (by decide)
      (.block haddr)).2 0x00 _ (dataEngine_answers (by decide))
  · exact ((iso_wrapping hfree).2 [0x90, 0x5A, 0, 0, 9, 0] (by decide) rfl (by decide) (by decide)
      (.block haddr)).2

/-- Without data and without Le the engine gets the four octets, not the instruction. -/
theorem four_octets_native :
    let r := workerListenerCallback piccEngine (listenerInit smallLimits false)
      (.receivedData (iFrame false false none (Probe.apdu 0x5A [] false)))
    engineCalls r.2 = [.command [0x90, 0x5A, 0, 0], .notify .emulate] ∧ .command [0x5A] ∉ r.2 := by
  decide +kernel

end DfcFlipper.IsoDep
