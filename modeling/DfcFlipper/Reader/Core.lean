/-
  DfcFlipper.Reader.Core — the card reader (dfc_reader.c): the exchanges with a card, the
  selection, the authentication, the reading of the configured files and what the poller's
  callback makes of them.

  `lib/core` is a parameter (`Core`): the frames, the ciphers, the session key, secure
  messaging and the file pool. So are the card and the radio before it (`Card`): what comes
  back for a frame, which may depend on every frame sent before, or nothing when the exchange
  fails. What a session of secure messaging is, is left open (`σ`).

  `iv[16]` is the one block of it that is in use. The part of `DfcCredential` the reader
  works on is here a record of its own: the octets of `uid`, the primary application, the
  files and the contents of each in the pool. `dfc_file_resize` that returns false changes
  nothing, which is what its callers take it for.
-/

import DfcFlipper.Lib.Bytes
import Mathlib.Logic.Function.Basic

namespace DfcFlipper.Reader

open DfcFlipper.Lib.Bytes

/-! ## The data -/

/-- `DFC_STATUS_OK`. -/
def statusOk : UInt8 := 0x00

/-- `DFC_CMD_ADDITIONAL_FRAME`. -/
def cmdAdditionalFrame : UInt8 := 0xAF

/-- `DFC_CMD_READ_DATA`. -/
def cmdReadData : UInt8 := 0xBD

/-- `DFC_CMD_AUTHENTICATE_LEGACY`. -/
def cmdAuthenticateLegacy : UInt8 := 0x0A

/-- `DFC_CMD_AUTHENTICATE_ISO`. -/
def cmdAuthenticateIso : UInt8 := 0x1A

/-- `DFC_CMD_AUTHENTICATE_AES`. -/
def cmdAuthenticateAes : UInt8 := 0xAA

inductive NfcCommand where
  | commandContinue
  | commandStop
  deriving DecidableEq

inductive CommSettings where
  | plain
  | maced
  | enciphered
  deriving DecidableEq

structure DfcFile where
  number : UInt8
  appIndex : Nat
  commSettings : CommSettings
  deriving DecidableEq

structure Application where
  aid : Octets
  authCommand : UInt8
  numKeys : Nat
  /-- `dfc_credential_key_const`. -/
  key : Nat → Option Octets

abbrev Pool := Nat → Octets

structure Credential where
  /-- All octets of `uid[]`. -/
  uid : Octets
  uidLen : Nat
  /-- `dfc_credential_get_primary_application_const`. -/
  application : Option Application
  /-- `files[0 .. num_files]`. -/
  files : List DfcFile
  pool : Pool

def Credential.setPool (c : Credential) (pool : Pool) : Credential := ⟨c.uid, c.uidLen, c.application, c.files, pool⟩

@[simp] theorem Credential.setPool_pool (c : Credential) (pool : Pool) : (c.setPool pool).pool = pool := rfl

/-- What comes back for the last of the frames sent: the response, or nothing when the exchange fails. A response longer
than `rx_buffer`, `DFC_WORKER_MAX_BUFFER_SIZE` octets, is an exchange that fails. -/
abbrev Card := List Octets → Option Octets

structure Core (σ : Type) where
  /-- `DFC_MAX_FILE_DATA`. -/
  maxFileData : Nat
  /-- `dfc_block_size_for_cipher`. -/
  blockSizeForCipher : UInt8 → Nat
  buildSelectApplicationFrame : Octets → Octets
  buildReadDataFrame : UInt8 → Nat → Nat → Octets
  /-- `dfc_worker_aes_cbc_decrypt` of a key, an `iv` and data: the plain text, and the `iv` it leaves. -/
  aesCbcDecrypt : Octets → Octets → Octets → Octets × Octets
  aesCbcEncrypt : Octets → Octets → Octets → Octets × Octets
  desCbcDecrypt : Octets → Octets → Octets → Octets × Octets
  desCbcEncrypt : Octets → Octets → Octets → Octets × Octets
  rotateLeft : Octets → Octets
  /-- `dfc_derive_session_key` of the cipher, the key, RndA and RndB. -/
  deriveSessionKey : UInt8 → Octets → Octets → Octets → Octets
  /-- `dfc_secure_messaging_alloc`, with the initial IV. -/
  secureMessagingAlloc : UInt8 → Octets → Option Octets → Option σ
  /-- `secure_messaging->pcd = true`. -/
  asPcd : σ → σ
  appliesEv1 : σ → UInt8 → Bool
  updateEv1Command : σ → UInt8 → Octets → σ
  /-- `dfc_secure_messaging_unwrap_ev1_response`; nothing for `SIZE_MAX`. -/
  unwrapEv1Response : σ → UInt8 → Octets → σ × Option Octets
  unwrap : σ → CommSettings → UInt8 → Octets → σ × Octets
  /-- `dfc_file_resize`: the pool it leaves, if it succeeds. -/
  fileResize : Pool → Nat → Nat → Option Pool
  /-- `dfc_file_data` is not NULL. -/
  fileData : Pool → Nat → Bool

structure DfcReader (σ : Type) where
  credential : Credential
  secureMessaging : Option σ
  /-- The frames sent so far. -/
  sent : List Octets

/-! ## The functions -/

section Functions

variable {σ : Type} (C : Core σ) (card : Card)

/-- `dfc_reader_exchange`. -/
def exchange (r : DfcReader σ) (data : Octets) : Option Octets × DfcReader σ :=
  (card (r.sent ++ [data]), ⟨r.credential, r.secureMessaging, r.sent ++ [data]⟩)

/-- `dfc_reader_select_application`. -/
def selectApplication (r : DfcReader σ) (aid : Octets) : NfcCommand × DfcReader σ :=
  let x := exchange card r (C.buildSelectApplicationFrame aid)
  match x.1 with
  | none => (.commandStop, x.2)
  | some rx => if rx.length < 1 ∨ rx.headD 0 ≠ statusOk then (.commandStop, x.2) else (.commandContinue, x.2)

def cbcDecrypt (cipher : UInt8) : Octets → Octets → Octets → Octets × Octets :=
  if cipher = cmdAuthenticateAes then C.aesCbcDecrypt else C.desCbcDecrypt

def cbcEncrypt (cipher : UInt8) : Octets → Octets → Octets → Octets × Octets :=
  if cipher = cmdAuthenticateAes then C.aesCbcEncrypt else C.desCbcEncrypt

def zeros (size : Nat) : Octets := List.replicate size 0

/-- `dfc_reader_authenticate`, with the random octets it draws. -/
def authenticate (random : Nat → Octets) (r : DfcReader σ) (keyNo cipher : UInt8) : NfcCommand × DfcReader σ :=
  match r.credential.application with
  | none => (.commandStop, r)
  | some app =>
    if keyNo.toNat ≥ app.numKeys then (.commandStop, r)
    else
      match app.key keyNo.toNat with
      | none => (.commandStop, r)
      | some key =>
        let blockSize := C.blockSizeForCipher cipher
        let x := exchange card r [cipher, keyNo]
        match x.1 with
        | none => (.commandStop, x.2)
        | some rx =>
          if rx.length < 1 + blockSize ∨ rx.headD 0 ≠ cmdAdditionalFrame then (.commandStop, x.2)
          else
            let encRndB := (rx.drop 1).take blockSize
            let rndB := (cbcDecrypt C cipher key (zeros blockSize) encRndB).1
            let rndA := random blockSize
            let iv := if cipher = cmdAuthenticateLegacy then zeros blockSize else encRndB
            let encrypted := cbcEncrypt C cipher key iv (rndA ++ C.rotateLeft rndB)
            let y := exchange card x.2 (cmdAdditionalFrame :: encrypted.1)
            match y.1 with
            | none => (.commandStop, y.2)
            | some ry =>
              if ry.length < 1 + blockSize ∨ ry.headD 0 ≠ statusOk then (.commandStop, y.2)
              else
                let encRndARot := (ry.drop 1).take blockSize
                let iv := if cipher = cmdAuthenticateLegacy then zeros blockSize else encrypted.2
                let rndARot := cbcDecrypt C cipher key iv encRndARot
                if rndARot.1 ≠ C.rotateLeft rndA then (.commandStop, y.2)
                else
                  let sessionKey := C.deriveSessionKey cipher key rndA rndB
                  let initialIv := if cipher = cmdAuthenticateLegacy then none else some rndARot.2
                  match C.secureMessagingAlloc cipher sessionKey initialIv with
                  | none => (.commandStop, ⟨y.2.credential, none, y.2.sent⟩)
                  | some sm => (.commandContinue, ⟨y.2.credential, some (C.asPcd sm), y.2.sent⟩)

/-- `dfc_reader_read_file`, up to the payload. -/
def fetch (r : DfcReader σ) (file : DfcFile) : Option Octets × DfcReader σ :=
  match r.secureMessaging with
  -- furi_assert: there is a session
  | none => (none, r)
  | some sm =>
    let frame := C.buildReadDataFrame file.number 0 0
    let ev1 := C.appliesEv1 sm cmdReadData
    let sm := if ev1 then C.updateEv1Command sm cmdReadData (frame.drop 1) else sm
    let x := exchange card ⟨r.credential, some sm, r.sent⟩ frame
    match x.1 with
    | none => (none, x.2)
    | some rx =>
      if rx.length < 1 then (none, x.2)
      else
        let status := rx.headD 0
        if status ≠ statusOk then (none, x.2)
        else
          let wrapped := rx.drop 1
          if ev1 then
            let u := C.unwrapEv1Response sm status wrapped
            let r : DfcReader σ := ⟨r.credential, some u.1, x.2.sent⟩
            match u.2 with
            | none => (none, r)
            | some plain => if plain.length > C.maxFileData then (none, r) else (some plain, r)
          else
            let u := C.unwrap sm file.commSettings status wrapped
            let r : DfcReader σ := ⟨r.credential, some u.1, x.2.sent⟩
            if u.2.length = 0 ∧ wrapped.length > 0 ∧ file.commSettings ≠ .plain then (none, r)
            else if u.2.length > C.maxFileData then (none, r)
            else (some u.2, r)

/-- `dfc_reader_read_file`, from the payload on: it goes into the file pool. -/
def commit (pool : Pool) (i : Nat) (plain : Octets) : NfcCommand × Pool :=
  match C.fileResize pool i plain.length with
  | none => (.commandStop, pool)
  | some resized =>
    if plain.length > 0 then
      if C.fileData resized i = false then (.commandStop, resized)
      else (.commandContinue, Function.update resized i (writeAt (resized i) 0 plain))
    else (.commandContinue, resized)

/-- `dfc_reader_read_file` of `files[i]`. -/
def readFile (r : DfcReader σ) (file : DfcFile) (i : Nat) : NfcCommand × DfcReader σ :=
  let f := fetch C card r file
  match f.1 with
  | none => (.commandStop, f.2)
  | some plain =>
    let k := commit C f.2.credential.pool i plain
    (k.1, ⟨f.2.credential.setPool k.2, f.2.secureMessaging, f.2.sent⟩)

structure Reading (σ : Type) where
  ok : Bool
  ret : NfcCommand
  reader : DfcReader σ

/-- The loop of `dfc_state_machine` over the files. -/
def readFiles (ret : NfcCommand) (r : DfcReader σ) : List (DfcFile × Nat) → Reading σ
  | [] => ⟨true, ret, r⟩
  | (file, i) :: rest =>
    if file.appIndex ≠ 0 then readFiles ret r rest
    else
      let x := readFile C card r file i
      if x.1 = .commandStop then ⟨false, x.1, x.2⟩ else readFiles x.1 x.2 rest

/-! ## The poller -/

inductive CustomEvent where
  | pollerSuccess
  | pollerError
  deriving DecidableEq

structure Device where
  /-- `dfc_reader_alloc`. -/
  readerAlloc : Bool
  /-- `furi_hal_random_fill_buf`. -/
  random : Nat → Octets
  /-- `iso14443_4a_get_uid` of the activated card; nothing for NULL. -/
  uid : Option Octets

structure Outcome where
  command : NfcCommand
  posts : List CustomEvent
  credential : Credential

structure Session (σ : Type) where
  ret : NfcCommand
  posts : List CustomEvent
  reader : DfcReader σ

/-- The body of `dfc_state_machine`, left early at the first failure. -/
def session (d : Device) (r : DfcReader σ) : Session σ :=
  match r.credential.application with
  | none => ⟨.commandStop, [], r⟩
  | some app =>
    let s := selectApplication C card r app.aid
    if s.1 = .commandStop then ⟨s.1, [], s.2⟩
    else
      let a := authenticate C card d.random s.2 0 app.authCommand
      if a.1 = .commandStop then ⟨a.1, [], a.2⟩
      else
        let f := readFiles C card a.1 a.2 a.2.credential.files.zipIdx
        if f.ok = false then ⟨f.ret, [], f.reader⟩ else ⟨f.ret, [.pollerSuccess], f.reader⟩

/-- `dfc_state_machine`. -/
def stateMachine (d : Device) (c : Credential) : Outcome :=
  if d.readerAlloc = false then ⟨.commandStop, [.pollerError], c⟩
  else
    let x := session C card d ⟨c, none, []⟩
    ⟨.commandStop, x.posts ++ (if x.ret = .commandStop then [.pollerError] else []), x.reader.credential⟩

/-- `dfc_reader_capture_uid`. -/
def captureUid (uid : Option Octets) (c : Credential) : Credential :=
  match uid with
  | none => c
  | some uid =>
    if uid.length ≤ c.uid.length then ⟨writeAt c.uid 0 uid, uid.length, c.application, c.files, c.pool⟩ else c

inductive Iso14443Error where
  | none
  | notPresent
  | protocol
  | timeout
  /-- The default of the switch. -/
  | other (code : Nat)
  deriving DecidableEq

inductive PollerEvent where
  | ready
  | error (error : Iso14443Error)
  deriving DecidableEq

/-- `dfc_worker_poller_dispatch` with `dfc_state_machine`: `dfc_worker_poller_callback`. -/
def pollerCallback (d : Device) (c : Credential) : PollerEvent → Outcome
  | .ready => stateMachine C card d (captureUid d.uid c)
  | .error .protocol => ⟨.commandStop, [], c⟩
  | .error _ => ⟨.commandContinue, [], c⟩

end Functions

end DfcFlipper.Reader
