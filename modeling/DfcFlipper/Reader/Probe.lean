/-
  DfcFlipper.Reader.Probe — tests/probe_pcsc_mac_read.py: its authentication and its MACs.

  The block cipher is any permutation of the blocks for every key. The probe reaches a card
  through wrapped APDUs; `wrapped` is a card seen so.

  `readMac_iff`: sessions of one key expect the same MAC of a ReadData exactly when they begin
  with the same chaining value, whatever the file holds.
-/

import DfcFlipper.IsoDep.Wrapping
import DfcFlipper.Lib.Cbc
import DfcFlipper.Reader.Core

namespace DfcFlipper.Reader

open DfcFlipper.Lib.Bytes
open DfcFlipper.Lib.Cbc
open DfcFlipper.IsoDep (nativeApdu)
open DfcFlipper.IsoDep.Probe (apdu)

abbrev BlockCipher := Octets → Equiv.Perm (Block 8)

/-- What the MACs of a session hang on. -/
structure SessionState where
  sessionKey : Octets
  iv : Octets
  deriving DecidableEq

/-- The card behind the wrapping: its status comes last, behind 91. -/
def wrapped (card : Card) : Card := fun apdus =>
  (card (apdus.map nativeApdu)).map fun response => response.drop 1 ++ [0x91, response.headD 0]

namespace Probe

/-- `crypt()`. -/
def crypt (E : BlockCipher) (key iv data : Octets) (encrypt : Bool) : Octets :=
  if encrypt then (encryptOctets (E key) iv data).1 else (decryptOctets (E key) iv data).1

/-- `exchange()`: the data and the status. -/
def exchange (card : Card) (sent : List Octets) (command : Octets) : Option (Octets × UInt8) :=
  match card (sent ++ [command]) with
  | none => none
  | some value =>
    if value.length < 2 ∨ value.getD (value.length - 2) 0 ≠ 0x91 then none
    else some (value.take (value.length - 2), value.getD (value.length - 1) 0)

def authenticate (E : BlockCipher) (card : Card) (sent : List Octets) (key : Octets) (keyNo : UInt8) (rndA : Octets) :
    Option SessionState × List Octets :=
  let first := apdu 0x1A [keyNo] true
  match exchange card sent first with
  | none => (none, sent ++ [first])
  | some (encB, status) =>
    if status ≠ 0xAF ∨ encB.length ≠ 8 then (none, sent ++ [first])
    else
      let rndB := crypt E key (zeros 8) encB false
      let challenge := rndA ++ rndB.drop 1 ++ rndB.take 1
      let encChallenge := crypt E key encB challenge true
      let second := apdu 0xAF encChallenge true
      match exchange card (sent ++ [first]) second with
      | none => (none, sent ++ [first] ++ [second])
      | some (encA, status) =>
        if status ≠ 0 ∨ encA.length ≠ 8 then (none, sent ++ [first] ++ [second])
        else
          let rotatedA := crypt E key (encChallenge.drop (encChallenge.length - 8)) encA false
          if rotatedA ≠ rndA.drop 1 ++ rndA.take 1 then (none, sent ++ [first] ++ [second])
          else
            (some ⟨rndA.take 4 ++ rndB.take 4 ++ rndA.drop 4 ++ rndB.drop 4, zeros 8⟩, sent ++ [first] ++ [second])

/-- A response of the card behind the wrapping. -/
theorem exchange_wrapped {card : Card} {sent : List Octets} {command : Octets} {status : UInt8} {data : Octets}
    (hc : card (sent.map nativeApdu ++ [nativeApdu command]) = some (status :: data)) :
    exchange (wrapped card) sent command = some (data, status) := by
  have hw : wrapped card (sent ++ [command]) = some (data ++ [0x91, status]) := by
    simp [wrapped, hc]
  have h91 : (data ++ [0x91, status]).getD (data.length + 2 - 2) 0 = 0x91 := by simp [List.getD_eq_getElem?_getD]
  have hst : (data ++ [0x91, status]).getD (data.length + 2 - 1) 0 = status := by simp [List.getD_eq_getElem?_getD]
  have hlen : (data ++ [0x91, status]).length = data.length + 2 := by simp
  have hgood : ¬((data ++ [0x91, status]).length < 2 ∨
      (data ++ [0x91, status]).getD ((data ++ [0x91, status]).length - 2) 0 ≠ 0x91) := by
    rw [hlen, h91]
    simp
  simp only [exchange, hw]
  rw [if_neg hgood, hlen, hst, Nat.add_sub_cancel, List.take_left]

/-! ## MACs -/

def bigEndian (octets : Octets) : Nat := octets.foldl (fun number octet => number * 256 + octet.toNat) 0

def toBigEndian : Nat → Nat → Octets
  | 0, _ => []
  | size + 1, number => toBigEndian size (number / 256) ++ [UInt8.ofNat number]

theorem length_toBigEndian (size number : Nat) : (toBigEndian size number).length = size := by
  induction size generalizing number with
  | zero => rfl
  | succ size ih => rw [toBigEndian, List.length_append, ih, List.length_singleton]

def xorOctets (a b : Octets) : Octets := List.zipWith (· ^^^ ·) a b

/-- `shift()` of `cmac()`. -/
def shift (value : Octets) : Octets :=
  let number := bigEndian value
  toBigEndian 8 ((number <<< 1 &&& 0xFFFFFFFFFFFFFFFF) ^^^ (if number >>> 63 ≠ 0 then 0x1B else 0))

/-- `block()` of `cmac()`. -/
def block (E : BlockCipher) (key value : Octets) : Octets := crypt E key (zeros 8) value true

/-- The whole blocks of a message before the last, the last one filled up, and what it is masked with. -/
def parts (E : BlockCipher) (key message : Octets) : Octets × Octets × Octets :=
  let k1 := shift (block E key (zeros 8))
  let k2 := shift k1
  if 0 < message.length ∧ message.length % 8 = 0 then
    (message.take (message.length - 8), message.drop (message.length - 8), k1)
  else
    let head := message.take (message.length / 8 * 8)
    (head, message.drop head.length ++ 0x80 :: zeros (7 - (message.length - head.length)), k2)

/-- `cmac()`. -/
def cmac (E : BlockCipher) (key iv message : Octets) : Octets :=
  let p := parts E key message
  let state := (blocks 8 p.1).foldl (fun state part => block E key (xorOctets state part.1)) iv
  block E key (xorOctets (xorOctets state p.2.1) p.2.2)

/-- The MAC a session expects of a ReadData with this command that answers these data. -/
def readMac (E : BlockCipher) (s : SessionState) (command data : Octets) : Octets :=
  cmac E s.sessionKey (cmac E s.sessionKey s.iv (cmdReadData :: command)) (data ++ [statusOk])

variable (E : BlockCipher) (key : Octets)

theorem block_eq (b : Block 8) : block E key b.1 = (E key b).1 := by
  have hx : xorBlock b (ofOctets 8 (zeros 8)) = b := xor_zeros b
  have he : block E key b.1 = join (encrypt xorBlock (E key) (ofOctets 8 (zeros 8)) (blocks 8 b.1)).1 := rfl
  rw [he, blocks_one (by decide), encrypt, hx]
  exact List.append_nil _

theorem length_parts (message : Octets) : (parts E key message).2.1.length = 8 ∧ (parts E key message).2.2.length = 8 := by
  have hshift : ∀ value, (shift value).length = 8 := fun value => length_toBigEndian 8 _
  simp only [parts]
  split
  · refine ⟨?_, hshift _⟩
    rw [List.length_drop]
    omega
  · refine ⟨?_, hshift _⟩
    simp only [List.length_append, List.length_cons, List.length_drop, List.length_take, zeros, List.length_replicate]
    omega

/-- A MAC is the chain over the whole blocks, ended by the last. -/
theorem cmac_eq (message : Octets) :
    ∃ head : List (Block 8), ∃ last mask : Block 8, ∀ iv : Block 8,
      cmac E key iv.1 message = (E key (xorBlock (xorBlock (chain xorBlock (E key) iv head) last) mask)).1 := by
  obtain ⟨hlast, hmask⟩ := length_parts E key message
  refine ⟨blocks 8 (parts E key message).1, ⟨_, hlast⟩, ⟨_, hmask⟩, fun iv => ?_⟩
  have hstate : ∀ (head : List (Block 8)) (iv : Block 8),
      head.foldl (fun state part => block E key (xorOctets state part.1)) iv.1 = (chain xorBlock (E key) iv head).1 := by
    intro head
    induction head with
    | nil => exact fun iv => rfl
    | cons b rest ih =>
      intro iv
      have hb : block E key (xorOctets iv.1 b.1) = (E key (xorBlock iv b)).1 := block_eq E key (xorBlock iv b)
      rw [List.foldl_cons, hb, ih]
      rfl
  simp only [cmac, hstate]
  exact block_eq E key
    (xorBlock (xorBlock (chain xorBlock (E key) iv (blocks 8 (parts E key message).1)) ⟨_, hlast⟩) ⟨_, hmask⟩)

theorem length_cmac {iv : Octets} (h : iv.length = 8) (message : Octets) : (cmac E key iv message).length = 8 := by
  obtain ⟨_, _, _, he⟩ := cmac_eq E key message
  exact (congrArg List.length (he ⟨iv, h⟩)).trans (E key _).2

/-- From different chaining values a message has different MACs. -/
theorem cmac_injective {iv iv' : Octets} (h : iv.length = 8) (h' : iv'.length = 8) {message : Octets}
    (he : cmac E key iv message = cmac E key iv' message) : iv = iv' := by
  obtain ⟨head, last, mask, hm⟩ := cmac_eq E key message
  have hblock := (hm ⟨iv, h⟩).symm.trans (he.trans (hm ⟨iv', h'⟩))
  have hfinal := xor_mixes.injective (xor_mixes.injective ((E key).injective (Subtype.ext hblock)))
  exact congrArg Subtype.val (chain_injective (E key) xor_mixes head hfinal)

/-- Sessions of one key expect the same MAC exactly when they begin with the same chaining value. -/
theorem readMac_iff {s s' : SessionState} (hk : s.sessionKey = s'.sessionKey) (h : s.iv.length = 8) (h' : s'.iv.length = 8)
    (command data : Octets) : readMac E s command data = readMac E s' command data ↔ s.iv = s'.iv := by
  simp only [readMac, hk]
  constructor
  · intro he
    have hcommand := cmac_injective E s'.sessionKey (length_cmac E _ h _) (length_cmac E _ h' _) he
    exact cmac_injective E s'.sessionKey h h' hcommand
  · intro hiv
    rw [hiv]

end Probe

end DfcFlipper.Reader
