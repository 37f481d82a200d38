/-
  DfcFlipper.IsoDep.Core — the data of the radio listener: the `iso_dep_*` fields of
  `struct Dfc` (dfc_i.h), the engine's response buffer (port/dfc_bytebuf_flipper.c), the
  engine the listener drives, and what a callback does that can be seen from outside.

  The engine (`lib/core`) is not part of this repository. It is a parameter (`Engine`):
  functions on a state `σ` of their own, each with the arguments the listener hands over.
  What the listener relies on is stated apart (`Engine.KeepsPrefix`). The two capacities
  that `lib/core` defines are parameters too (`Limits`); the two addressing bits of a
  PCB, the two APDU classes and the length-error status are the values of ISO/IEC 14443-4,
  ISO/IEC 7816-4 and the native command set.
-/

import DfcFlipper.Lib.Bytes

namespace DfcFlipper.IsoDep

open DfcFlipper.Lib.Bytes

/-! ## Constants -/

/-- `DFC_ISO14443_4A_CID_MASK`: a CID octet follows the PCB. -/
def cidMask : UInt8 := 0x08

/-- `DFC_ISO14443_4A_NAD_MASK`: a NAD octet follows. -/
def nadMask : UInt8 := 0x04

/-- `ISO_DEP_FRAME_MAX`: 64-byte FSC minus CRC_A. -/
def isoDepFrameMax : Nat := 62

/-- `DFC_ISO7816_CLA_STANDARD`. -/
def iso7816ClaStandard : UInt8 := 0x00

/-- `DFC_ISO7816_CLA_WRAPPER`. -/
def iso7816ClaWrapper : UInt8 := 0x90

/-- `DFC_STATUS_LENGTH_ERROR`. -/
def statusLengthError : UInt8 := 0x7E

structure Limits where
  /-- `DFC_WORKER_MAX_BUFFER_SIZE`, the size of `iso_dep_command` and of the scratch buffer. -/
  workerMaxBufferSize : Nat
  /-- `DFC_BYTEBUF_MAX`, the size of the response buffer and of a radio buffer. -/
  bytebufMax : Nat
  worker_pos : 0 < workerMaxBufferSize
  prefix_fits : 2 ≤ bytebufMax

/-! ## The response buffer -/

/-- `DfcByteBuf`: the bytes below `size_bytes`. -/
structure DfcByteBuf (L : Limits) where
  data : Octets
  fits : data.length ≤ L.bytebufMax

namespace DfcByteBuf

variable {L : Limits}

def empty : DfcByteBuf L := ⟨[], Nat.zero_le _⟩

def reset (_ : DfcByteBuf L) : DfcByteBuf L := empty

def appendBytes (b : DfcByteBuf L) (data : Octets) : DfcByteBuf L :=
  if h : b.data.length + data.length ≤ L.bytebufMax then ⟨b.data ++ data, by simpa using h⟩ else b

def appendByte (b : DfcByteBuf L) (byte : UInt8) : DfcByteBuf L := b.appendBytes [byte]

@[simp] theorem reset_data (b : DfcByteBuf L) : b.reset.data = [] := rfl

theorem appendBytes_data {b : DfcByteBuf L} {data : Octets} (h : b.data.length + data.length ≤ L.bytebufMax) :
    (b.appendBytes data).data = b.data ++ data := by
  simp [appendBytes, h]

/-- An append keeps what is there, whether or not the new bytes fit. -/
theorem prefix_appendBytes (b : DfcByteBuf L) (data : Octets) : b.data <+: (b.appendBytes data).data := by
  unfold appendBytes
  split
  · exact List.prefix_append _ _
  · exact List.prefix_rfl

end DfcByteBuf

/-! ## The engine -/

/-- `enum DfcCustomEvent`. -/
inductive DfcCustomEvent where
  | viewExit
  | textInputDone
  | pollerError
  | pollerSuccess
  | emulate
  | appSelected
  | authenticated
  | fileRequested
  deriving DecidableEq, Repr

/-- What `dfc_emulator_handle_iso7816_select` returns and leaves. -/
structure SelectResult (L : Limits) (σ : Type) where
  handled : Bool
  appSelected : Bool
  txBuffer : DfcByteBuf L
  state : σ

/-- What `dfc_emulator_handle_command` returns and leaves, with the events it notifies. -/
structure CommandResult (L : Limits) (σ : Type) where
  handled : Bool
  notified : List DfcCustomEvent
  txBuffer : DfcByteBuf L
  state : σ

structure Engine (L : Limits) (σ : Type) where
  /-- State, APDU, response buffer, offset. -/
  handleIso7816Select : σ → Octets → DfcByteBuf L → Nat → SelectResult L σ
  handleCommand : σ → Octets → DfcByteBuf L → CommandResult L σ
  /-- Response, offset, capacity of the output; `none` for `false`. -/
  wrapNativeResponseAsIso7816 : Octets → Nat → Nat → Option Octets
  resetActivation : σ → σ

/-- The engine leaves the bytes already in the response buffer in place, and so does the
    ISO wrapping. -/
structure Engine.LeavesPrefix {L : Limits} {σ : Type} (E : Engine L σ) : Prop where
  select : ∀ st apdu tx off, tx.data <+: (E.handleIso7816Select st apdu tx off).txBuffer.data
  command : ∀ st apdu tx, tx.data <+: (E.handleCommand st apdu tx).txBuffer.data
  wrap : ∀ (tx : DfcByteBuf L) off out, off < tx.data.length →
    E.wrapNativeResponseAsIso7816 tx.data off L.workerMaxBufferSize = some out → tx.data.take off <+: out

/-- And what the wrapping puts out fits the response buffer. -/
structure Engine.KeepsPrefix {L : Limits} {σ : Type} (E : Engine L σ) : Prop extends E.LeavesPrefix where
  wrapFits : ∀ (tx : DfcByteBuf L) off out, off < tx.data.length →
    E.wrapNativeResponseAsIso7816 tx.data off L.workerMaxBufferSize = some out → out.length ≤ L.bytebufMax

/-! ### Small engines -/

def smallLimits : Limits := ⟨128, 256, by decide, by decide⟩

/-- A card with no application: it selects the PICC level (state: since the activation)
    and answers every other command with ILLEGAL_COMMAND_CODE. -/
def piccEngine : Engine smallLimits Bool where
  handleIso7816Select st _ tx _ := ⟨false, false, tx, st⟩
  handleCommand st apdu tx :=
    if apdu = [0x5A, 0, 0, 0] then ⟨true, [], tx.appendByte 0x00, true⟩ else ⟨false, [], tx.appendByte 0x1C, st⟩
  wrapNativeResponseAsIso7816 resp off cap :=
    let out := resp.take off ++ resp.drop (off + 1) ++ [0x91, resp.getD off 0]
    if out.length ≤ cap then some out else none
  resetActivation _ := false

theorem piccEngine_keepsPrefix : piccEngine.KeepsPrefix := by
  refine ⟨⟨fun _ _ _ _ => List.prefix_rfl, ?_, ?_⟩, ?_⟩
  · intro st apdu tx
    simp only [piccEngine]
    split <;> exact tx.prefix_appendBytes _
  · intro tx off out _ h
    simp only [piccEngine] at h
    split at h
    · obtain rfl := Option.some.inj h
      rw [List.append_assoc]; exact List.prefix_append _ _
    · cases h
  · intro tx off out _ h
    simp only [piccEngine] at h
    split at h
    · rename_i hfit
      obtain rfl := Option.some.inj h
      exact Nat.le_trans hfit (by decide)
    · cases h

def appending {τ : Type} (answer : τ → Octets → τ × Octets) (initial : τ) : Engine smallLimits τ where
  handleIso7816Select st _ tx _ := ⟨false, false, tx, st⟩
  handleCommand st apdu tx := ⟨true, [], tx.appendBytes (answer st apdu).2, (answer st apdu).1⟩
  wrapNativeResponseAsIso7816 := piccEngine.wrapNativeResponseAsIso7816
  resetActivation _ := initial

theorem appending_keepsPrefix {τ : Type} (answer : τ → Octets → τ × Octets) (initial : τ) :
    (appending answer initial).KeepsPrefix :=
  ⟨⟨fun _ _ _ _ => List.prefix_rfl, fun _ _ tx => tx.prefix_appendBytes _, piccEngine_keepsPrefix.wrap⟩,
    piccEngine_keepsPrefix.wrapFits⟩

/-- Status 00 and `n` octets of data, to every command. -/
def dataEngine (n : Nat) : Engine smallLimits Unit := appending (fun _ _ => ((), 0x00 :: List.replicate n 0xA5)) ()

/-! ## The listener's state -/

/-- The `iso_dep_*` fields of `struct Dfc`, the emulator's `tx_buffer` and the rest of the
    emulator. The two block numbers only ever hold 0 and 1. -/
structure Listener (L : Limits) (σ : Type) where
  lastResponseValid : Bool
  expectedPcdBlock : Bool
  piccBlock : Bool
  /-- `uint8_t iso_dep_last_frame[62]`. -/
  lastFrame : Octets
  lastFrameLen : Nat
  /-- `uint8_t iso_dep_command[DFC_WORKER_MAX_BUFFER_SIZE]`. -/
  command : Octets
  commandLen : Nat
  responseOffset : Nat
  cidValid : Bool
  cid : UInt8
  txBuffer : DfcByteBuf L
  engine : σ

/-- What one event makes the listener do, in order. `append`, `dispatch` and `answer` are
    marks: the INF of an accepted I-block was copied to `iso_dep_command`, a whole APDU
    is handed to the engine side, a response is about to be sent. -/
inductive Effect where
  | tx (frame : Octets)
  | select (apdu : Octets)
  | command (apdu : Octets)
  | resetActivation
  | notify (event : DfcCustomEvent)
  | append (inf : Octets)
  | dispatch (apdu : Octets)
  | answer (response : Octets)
  deriving DecidableEq, Repr

/-- `Iso14443_4aListenerEventType`, with the received frame. -/
inductive Event where
  | receivedData (rx : Octets)
  | halted
  | fieldOff
  deriving DecidableEq, Repr

end DfcFlipper.IsoDep
