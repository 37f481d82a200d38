/-
  DfcFlipper.IsoDep.Listener — `dfc_worker_listener_callback` (dfc_emulator_listener.c) in
  the build without type_4_tag.h: the listener answers ISO/IEC 14443-4 blocks itself.

  The callback is one C function; here each kind of block has its own definition
  (`receivedRBlock`, `receivedSBlock`, `receivedIBlock`), and so has the part that hands
  a whole APDU to the engine (`handleApdu`), which does not depend on the build. Every
  definition returns the new state and the effects in the order the code has them.
  A radio buffer that cannot be allocated or sent is a frame lost on the air.
-/

import DfcFlipper.IsoDep.Core
import DfcFlipper.Lib.Run

namespace DfcFlipper.IsoDep

open DfcFlipper.Lib.Bytes

variable {L : Limits} {σ : Type}

/-! ## Sending -/

variable (L) in
def sendFrame (data : Octets) : List Effect := if data.length ≤ L.bytebufMax then [.tx data] else []

variable (L) in
def sendControl (pcb : UInt8) (useCid : Bool) (cid : UInt8) : List Effect :=
  sendFrame L (if useCid then [pcb ||| cidMask, cid] else [pcb])

/-- `pcb & 1`. -/
def blockNumber (pcb : UInt8) : Bool := pcb &&& 1 != 0

/-- `1 + ((data[0] & ISO14443_4A_CID_MASK) ? 1 : 0)`. -/
def prefixLen (data : Octets) : Nat := 1 + if data.headD 0 &&& cidMask = 0 then 0 else 1

def sendNextIResponse (s : Listener L σ) : Listener L σ × List Effect :=
  let data := s.txBuffer.data
  if data.length < prefixLen data then (s, [])
  else
    let remaining := data.length - s.responseOffset
    let chunkLen := min (isoDepFrameMax - prefixLen data) remaining
    let more : Bool := chunkLen < remaining
    let frame := writeAt s.lastFrame 0 (data.take (prefixLen data))
    let frame := frame.set 0 ((frame.headD 0 &&& ~~~0x11) ||| s.piccBlock.toUInt8)
    let frame := if more then frame.set 0 (frame.headD 0 ||| 0x10) else frame
    let frame := writeAt frame (prefixLen data) ((data.drop s.responseOffset).take chunkLen)
    let s := { s with
      lastFrame := frame
      lastFrameLen := prefixLen data + chunkLen
      responseOffset := if more then s.responseOffset + chunkLen else 0
      lastResponseValid := true }
    (s, sendFrame L (s.lastFrame.take s.lastFrameLen))

def sendIResponse (s : Listener L σ) : Listener L σ × List Effect :=
  if s.txBuffer.data.length = 0 then (s, [])
  else
    let r := sendNextIResponse { s with
      piccBlock := s.expectedPcdBlock
      expectedPcdBlock := !s.expectedPcdBlock
      responseOffset := prefixLen s.txBuffer.data }
    (r.1, .answer s.txBuffer.data :: r.2)

/-! ## Handing an APDU to the engine -/

variable (E : Engine L σ)

structure Handled (L : Limits) (σ : Type) where
  state : σ
  txBuffer : DfcByteBuf L
  effects : List Effect

def lengthError (st : σ) (tx : DfcByteBuf L) : Handled L σ :=
  ⟨st, (tx.appendByte 0x91).appendByte statusLengthError, []⟩

/-- `dfc_emulator_handle_command` and the event after it. -/
def handleCommand (st : σ) (apdu : Octets) (tx : DfcByteBuf L) : Handled L σ :=
  let r := E.handleCommand st apdu tx
  ⟨r.state, r.txBuffer,
    .command apdu :: r.notified.map .notify ++ if r.handled then [] else [.notify .emulate]⟩

/-- The response to a wrapped command, wrapped again when the engine wrote one. -/
def wrapResponse (offset : Nat) (tx : DfcByteBuf L) : DfcByteBuf L :=
  if offset < tx.data.length then
    match E.wrapNativeResponseAsIso7816 tx.data offset L.workerMaxBufferSize with
    | some out => tx.reset.appendBytes out
    | none => tx
  else tx

/-- An ISO-wrapped APDU whose Lc does not fit the scratch buffer or the APDU. -/
def badLc (L : Limits) (apdu : Octets) : Prop :=
  L.workerMaxBufferSize - 1 < (apdu.getD 4 0).toNat ∨ apdu.length < 5 + (apdu.getD 4 0).toNat

instance (apdu : Octets) : Decidable (badLc L apdu) := inferInstanceAs (Decidable (_ ∨ _))

def handleNative (st : σ) (offset : Nat) (apdu : Octets) (tx : DfcByteBuf L) : Handled L σ :=
  if 5 ≤ apdu.length ∧ apdu.headD 0 = iso7816ClaWrapper then
    if badLc L apdu then lengthError st tx
    else
      let native := apdu.getD 1 0 :: (apdu.drop 5).take (apdu.getD 4 0).toNat
      let r := handleCommand E st native tx
      { r with txBuffer := wrapResponse E offset r.txBuffer }
  else handleCommand E st apdu tx

def handleApdu (st : σ) (offset : Nat) (apdu : Octets) (tx : DfcByteBuf L) : Handled L σ :=
  if L.workerMaxBufferSize < apdu.length then lengthError st tx
  else if 4 ≤ apdu.length ∧ apdu.headD 0 = iso7816ClaStandard then
    let r := E.handleIso7816Select st apdu tx offset
    if r.handled then
      ⟨r.state, r.txBuffer, .select apdu :: if r.appSelected then [.notify .appSelected] else []⟩
    else
      let q := handleNative E r.state offset apdu r.txBuffer
      { q with effects := .select apdu :: q.effects }
  else handleNative E st offset apdu tx

/-- A whole APDU, with the PCB (and CID) the response starts with. -/
def dispatch (s : Listener L σ) (header apdu : Octets) : Listener L σ × List Effect :=
  let r := handleApdu E s.engine header.length apdu (s.txBuffer.reset.appendBytes header)
  let q := sendIResponse { s with engine := r.state, txBuffer := r.txBuffer }
  (q.1, .dispatch apdu :: r.effects ++ q.2)

/-! ## Receiving -/

/-- `iso_dep_cid_valid != use_cid || (use_cid && cid != iso_dep_cid)`. -/
def cidMismatch (s : Listener L σ) (useCid : Bool) (cid : UInt8) : Bool :=
  s.cidValid != useCid || (useCid && cid != s.cid)

def headerLen (useCid : Bool) : Nat := if useCid then 2 else 1

/-- What the three endings of an activation share. -/
def endActivation (s : Listener L σ) : Listener L σ :=
  { s with
    engine := E.resetActivation s.engine
    lastResponseValid := false
    expectedPcdBlock := false
    piccBlock := true
    commandLen := 0
    responseOffset := 0
    cidValid := false }

def receivedPps (rx : Octets) (pcb : UInt8) : List Effect :=
  if (rx.length = 2 ∧ rx.getD 1 0 = 0x01) ∨ (rx.length = 3 ∧ rx.getD 1 0 = 0x11 ∧ rx.getD 2 0 = 0x00) then
    sendControl L pcb false 0
  else []

def receivedRBlock (s : Listener L σ) (rx : Octets) (pcb : UInt8) (useCid : Bool) (cid : UInt8) :
    Listener L σ × List Effect :=
  if pcb &&& 0xE6 ≠ 0xA2 ∨ rx.length ≠ headerLen useCid then (s, [])
  else if cidMismatch s useCid cid then (s, [])
  else if s.lastResponseValid ∧ blockNumber pcb = s.piccBlock then
    (s, sendFrame L (s.lastFrame.take s.lastFrameLen))
  else if s.responseOffset ≠ 0 ∧ pcb &&& 0x10 = 0 then
    let r := sendNextIResponse { s with piccBlock := !s.piccBlock }
    ({ r.1 with expectedPcdBlock := !r.1.piccBlock }, r.2)
  else if pcb &&& 0x10 ≠ 0 then (s, sendControl L (0xA2 ||| s.piccBlock.toUInt8) useCid cid)
  else (s, [])

def receivedSBlock (s : Listener L σ) (rx : Octets) (pcb : UInt8) (useCid : Bool) (cid : UInt8) :
    Listener L σ × List Effect :=
  if pcb &&& ~~~cidMask = 0xC2 ∧ rx.length = headerLen useCid ∧ ¬ cidMismatch s useCid cid then
    (endActivation E s, sendFrame L rx ++ [.resetActivation])
  else (s, [])

/-- An I-block with the expected number and an INF, no response pending. -/
def acceptIBlock (s : Listener L σ) (rx : Octets) (pcb : UInt8) (useCid : Bool) (cid : UInt8) :
    Listener L σ × List Effect :=
  let apdu := rx.drop (headerLen useCid)
  if pcb &&& 0x10 ≠ 0 ∨ s.commandLen ≠ 0 then
    if L.workerMaxBufferSize - s.commandLen < apdu.length then
      ({ s with commandLen := 0 }, sendControl L (0xB2 ||| s.expectedPcdBlock.toUInt8) useCid cid)
    else
      let s := { s with
        command := writeAt s.command s.commandLen apdu
        commandLen := s.commandLen + apdu.length }
      if pcb &&& 0x10 ≠ 0 then
        ({ s with expectedPcdBlock := !s.expectedPcdBlock },
          .append apdu :: sendControl L (0xA2 ||| (pcb &&& 1)) useCid cid)
      else
        let r := dispatch E { s with commandLen := 0 } (rx.take (headerLen useCid)) (s.command.take s.commandLen)
        (r.1, .append apdu :: r.2)
  else dispatch E s (rx.take (headerLen useCid)) apdu

/-- The first I-block of an activation binds the CID. -/
def bindCid (s : Listener L σ) (useCid : Bool) (cid : UInt8) : Listener L σ :=
  if cidMismatch s useCid cid then { s with cidValid := useCid, cid := cid } else s

def addressedIBlock (s : Listener L σ) (rx : Octets) (pcb : UInt8) (useCid : Bool) (cid : UInt8) :
    Listener L σ × List Effect :=
  if blockNumber pcb ≠ s.expectedPcdBlock then
    if s.lastResponseValid ∧ s.commandLen = 0 then (s, sendFrame L (s.lastFrame.take s.lastFrameLen))
    else
      (s, sendControl L
        (if s.commandLen ≠ 0 then 0xA2 ||| (pcb &&& 1) else 0xB2 ||| s.expectedPcdBlock.toUInt8) useCid cid)
  else if s.responseOffset ≠ 0 then (s, sendControl L (0xB2 ||| s.expectedPcdBlock.toUInt8) useCid cid)
  else if rx.length ≤ headerLen useCid then
    (s, sendControl L (0xB2 ||| s.expectedPcdBlock.toUInt8) useCid cid)
  else acceptIBlock E s rx pcb useCid cid

def receivedIBlock (s : Listener L σ) (rx : Octets) (pcb : UInt8) (useCid : Bool) (cid : UInt8) :
    Listener L σ × List Effect :=
  if pcb &&& 0xE2 ≠ 0x02 ∨ pcb &&& nadMask ≠ 0 then (s, [])
  else if cidMismatch s useCid cid ∧ (s.lastResponseValid ∨ s.commandLen ≠ 0) then (s, [])
  else addressedIBlock E (bindCid s useCid cid) rx pcb useCid cid

def receivedData (s : Listener L σ) (rx : Octets) : Listener L σ × List Effect :=
  match rx with
  | [] => (s, [])
  | pcb :: _ =>
    let useCid : Bool := pcb &&& cidMask != 0
    if rx.length < headerLen useCid then (s, [])
    else
      let cid := if useCid then rx.getD 1 0 else 0
      if pcb &&& 0xF0 = 0xD0 then (s, receivedPps (L := L) rx pcb)
      else if pcb &&& 0xC0 = 0x80 then receivedRBlock s rx pcb useCid cid
      else if pcb &&& 0xC0 = 0xC0 then receivedSBlock E s rx pcb useCid cid
      else receivedIBlock E s rx pcb useCid cid

/-- `Halted` and `FieldOff` do the same. -/
def activationLost (s : Listener L σ) : Listener L σ × List Effect :=
  ({ endActivation E s with lastFrameLen := 0 }, [.resetActivation, .notify .emulate])

def workerListenerCallback (s : Listener L σ) : Event → Listener L σ × List Effect
  | .receivedData rx => receivedData E s rx
  | .halted => activationLost E s
  | .fieldOff => activationLost E s

/-- The state `dfc_scene_emulate_on_enter` starts the listener in: an emulator just
    allocated, in the engine's state `st`, and the two arrays of a zeroed `struct Dfc`. -/
def listenerInit (L : Limits) (st : σ) : Listener L σ :=
  { lastResponseValid := false
    expectedPcdBlock := false
    piccBlock := true
    lastFrame := List.replicate isoDepFrameMax 0
    lastFrameLen := 0
    command := List.replicate L.workerMaxBufferSize 0
    commandLen := 0
    responseOffset := 0
    cidValid := false
    cid := 0
    txBuffer := .empty
    engine := st }

end DfcFlipper.IsoDep
