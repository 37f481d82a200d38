/-
  DfcFlipper.Reader.Mutual — the three authentications of the reader (dfc_reader_authenticate),
  beside what they are meant to be.

  The card sends RndB encrypted, the reader RndA and RndB turned, and the card RndA turned.
  AuthenticateLegacy encrypts every message from a chaining value of zeros; with the other two
  ciphers each message goes on from the one before. Below the messages are stated for any
  cipher and any length of its blocks, as the reader makes them (`proof`) and as it expects
  them (`answer`).

  `authenticate_iff`: the reader opens a session exactly when the card answers the two frames
  with AdditionalFrame and OK and the second answer begins with the one block that proves the
  key (`Proved`). The session is the one of both random numbers, and goes on from that block.
-/

import DfcFlipper.Lib.Cbc
import DfcFlipper.Reader.Answers

namespace DfcFlipper.Reader.Mutual

open DfcFlipper.Lib.Bytes DfcFlipper.Lib.Cbc

variable {σ : Type} {n : Nat}

/-! ## The messages -/

def rotated (octets : Octets) : Octets := octets.drop 1 ++ octets.take 1

@[simp] theorem length_rotated (octets : Octets) : (rotated octets).length = octets.length := by
  simp only [rotated, List.length_append, List.length_drop, List.length_take]
  omega

section Messages

variable (E : Octets → Equiv.Perm (Block n)) (cipher : UInt8) (key encB rndA : Octets)

def challenge : Octets := (decryptOctets (E key) (zeros n) encB).1

def chained (last : Octets) : Octets := if cipher = cmdAuthenticateLegacy then zeros n else last

def proof : Octets × Octets := encryptOctets (E key) (chained (n := n) cipher encB) (rndA ++ rotated (challenge E key encB))

def answer : Octets := (encryptOctets (E key) (chained (n := n) cipher (proof E cipher key encB rndA).2) (rotated rndA)).1

def firstFrame (keyNo : UInt8) : Octets := [cipher, keyNo]

def secondFrame : Octets := cmdAdditionalFrame :: (proof E cipher key encB rndA).1

def initialIv (encA : Octets) : Option Octets := if cipher = cmdAuthenticateLegacy then none else some encA

end Messages

/-- What is taken of `lib/core` for a cipher. -/
structure CipherCore (C : Core σ) (cipher : UInt8) (E : Octets → Equiv.Perm (Block n)) : Prop where
  pos : 0 < n
  blockSize : C.blockSizeForCipher cipher = n
  cbcEncrypt : ∀ key iv data, n ∣ data.length → cbcEncrypt C cipher key iv data = encryptOctets (E key) iv data
  cbcDecrypt : ∀ key iv data, n ∣ data.length → cbcDecrypt C cipher key iv data = decryptOctets (E key) iv data
  rotateLeft : ∀ octets, C.rotateLeft octets = rotated octets

/-- The card has proved that it has the key, and the reader is left in the session. -/
inductive Proved (C : Core σ) (E : Octets → Equiv.Perm (Block n)) (card : Card) (random : Nat → Octets) (r : DfcReader σ)
    (keyNo cipher : UInt8) (r' : DfcReader σ) : Prop
  | intro (app : Application) (key encB restB encA restA : Octets) (sm : σ) :
      r.credential.application = some app → keyNo.toNat < app.numKeys → app.key keyNo.toNat = some key →
      encB.length = n →
      card (r.sent ++ [firstFrame cipher keyNo]) = some (cmdAdditionalFrame :: (encB ++ restB)) →
      card (r.sent ++ [firstFrame cipher keyNo] ++ [secondFrame E cipher key encB (random n)]) =
        some (statusOk :: (encA ++ restA)) →
      encA = answer E cipher key encB (random n) →
      C.secureMessagingAlloc cipher (C.deriveSessionKey cipher key (random n) (challenge E key encB))
        (initialIv cipher encA) = some sm →
      r' = ⟨r.credential, some (C.asPcd sm),
        r.sent ++ [firstFrame cipher keyNo] ++ [secondFrame E cipher key encB (random n)]⟩ →
      Proved C E card random r keyNo cipher r'

section Proof

variable {C : Core σ} {E : Octets → Equiv.Perm (Block n)} {card : Card} {random : Nat → Octets} {r r' : DfcReader σ}
  {keyNo cipher : UInt8} {key encB encA : Octets}

theorem dvd_plain (E : Octets → Equiv.Perm (Block n)) (hA : (random n).length = n) (hl : encB.length = n) :
    n ∣ (random n ++ rotated (challenge E key encB)).length := by
  have hB : (challenge E key encB).length = encB.length / n * n := length_decryptOctets (E key) _ _
  rw [hl] at hB
  rw [List.length_append, hA, length_rotated, hB]
  exact Nat.dvd_add (Nat.dvd_refl n) (Nat.dvd_mul_left n _)

/-- The one block that decrypts to RndA turned. -/
theorem proves_iff (hC : CipherCore C cipher E) (hA : (random n).length = n) (hl : encA.length = n) (iv : Octets) :
    (decryptOctets (E key) iv encA).1 = rotated (random n) ↔ encA = (encryptOctets (E key) iv (rotated (random n))).1 :=
  decryptOctets_block (E key) hC.pos iv ⟨encA, hl⟩ ⟨_, (length_rotated _).trans hA⟩

/-! The messages of `Answers`, by these. -/

theorem rndB_challenge (hC : CipherCore C cipher E) (hl : encB.length = n) :
    Handshake.rndB C cipher key encB = challenge E key encB := by
  have hdvd : n ∣ encB.length := ⟨1, by rw [Nat.mul_one, hl]⟩
  rw [Handshake.rndB, hC.blockSize, hC.cbcDecrypt key _ encB hdvd, challenge]

theorem chained_cipher (hC : CipherCore C cipher E) (last : Octets) :
    Handshake.chained C cipher last = chained (n := n) cipher last := by
  rw [Handshake.chained, hC.blockSize, chained]

theorem proof_cipher (hC : CipherCore C cipher E) (hA : (random n).length = n) (hl : encB.length = n) :
    Handshake.proof C cipher key encB (random n) = proof E cipher key encB (random n) := by
  rw [Handshake.proof, chained_cipher hC, rndB_challenge hC hl, hC.rotateLeft, hC.cbcEncrypt key _ _ (dvd_plain E hA hl), proof]

theorem rndARot_cipher (hC : CipherCore C cipher E) (hA : (random n).length = n) (hlB : encB.length = n)
    (hlA : encA.length = n) : Handshake.rndARot C cipher key encB (random n) encA =
      decryptOctets (E key) (chained (n := n) cipher (proof E cipher key encB (random n)).2) encA := by
  have hdvd : n ∣ encA.length := ⟨1, by rw [Nat.mul_one, hlA]⟩
  rw [Handshake.rndARot, proof_cipher hC hA hlB, chained_cipher hC, hC.cbcDecrypt key _ encA hdvd]

/-- The session goes on from the block that was decrypted last. -/
theorem session_cipher (hC : CipherCore C cipher E) (hA : (random n).length = n) (hlB : encB.length = n)
    (hlA : encA.length = n) : Handshake.session C cipher key encB (random n) encA =
      C.secureMessagingAlloc cipher (C.deriveSessionKey cipher key (random n) (challenge E key encB))
        (initialIv cipher encA) := by
  have hiv : (decryptOctets (E key) (chained (n := n) cipher (proof E cipher key encB (random n)).2) encA).2 = encA :=
    decryptOctets_iv (E key) hC.pos _ ⟨encA, hlA⟩
  rw [Handshake.session, rndB_challenge hC hlB, rndARot_cipher hC hA hlB hlA, hiv, initialIv]

theorem of_authenticate (hC : CipherCore C cipher E) (hA : (random n).length = n)
    (h : authenticate C card random r keyNo cipher = (.commandContinue, r')) : Proved C E card random r keyNo cipher r' := by
  obtain ⟨sm, sent, hunlocks, rfl⟩ := unlocks_of_authenticate h
  obtain ⟨app, key, encB, restB, encA, restA, s, happ, hnum, hkey, hlB, hlA, h₁, rfl, h₂, hright, hs, rfl⟩ := hunlocks
  rw [hC.blockSize] at hlB hlA h₂ hright hs
  rw [proof_cipher hC hA hlB] at h₂
  rw [rndARot_cipher hC hA hlB hlA, hC.rotateLeft, proves_iff hC hA hlA] at hright
  rw [session_cipher hC hA hlB hlA] at hs
  refine .intro app key encB restB encA restA s happ hnum hkey hlB h₁ h₂ hright hs ?_
  rw [hC.blockSize, proof_cipher hC hA hlB]
  rfl

theorem authenticate_of (hC : CipherCore C cipher E) (hA : (random n).length = n)
    (h : Proved C E card random r keyNo cipher r') : authenticate C card random r keyNo cipher = (.commandContinue, r') := by
  obtain ⟨app, key, encB, restB, encA, restA, sm, happ, hnum, hkey, hlB, h₁, h₂, hanswer, hsm, rfl⟩ := h
  have hlA : encA.length = n := by
    rw [hanswer, answer, length_encryptOctets, length_rotated, hA]
    exact Nat.div_mul_cancel (Nat.dvd_refl n)
  refine authenticate_of_unlocks (.intro app key encB restB encA restA sm happ hnum hkey ?_ ?_ h₁ ?_ h₂ ?_ ?_ rfl)
  · rw [hC.blockSize, hlB]
  · rw [hC.blockSize, hlA]
  · rw [hC.blockSize, proof_cipher hC hA hlB]
    rfl
  · rw [hC.blockSize, rndARot_cipher hC hA hlB hlA, hC.rotateLeft]
    exact (proves_iff hC hA hlA _).mpr hanswer
  · rw [hC.blockSize, session_cipher hC hA hlB hlA, hsm]

end Proof

/-! ## Two ciphers -/

def keyXor (n : Nat) : Octets → Equiv.Perm (Block n) := fun key =>
  ⟨fun b => xorBlock b (ofOctets n key), fun b => xorBlock b (ofOctets n key), fun b => xor_mixes.cancel b _,
    fun b => xor_mixes.cancel b _⟩

/-- Blocks of 16 octets for AuthenticateAes and of 8 otherwise. A session is its key and its chaining
value; with one, an answer ends with the first octet of the key, and without it is plain. -/
def mixingCore : Core (Octets × Option Octets) :=
  { plainCore with
    blockSizeForCipher := fun cipher => if cipher = cmdAuthenticateAes then 16 else 8
    aesCbcDecrypt := fun key iv data => decryptOctets (keyXor 16 key) iv data
    aesCbcEncrypt := fun key iv data => encryptOctets (keyXor 16 key) iv data
    desCbcDecrypt := fun key iv data => decryptOctets (keyXor 8 key) iv data
    desCbcEncrypt := fun key iv data => encryptOctets (keyXor 8 key) iv data
    rotateLeft := rotated
    deriveSessionKey := fun _ _ rndA rndB => rndA.take 4 ++ rndB.take 4
    secureMessagingAlloc := fun _ key iv => some (key, iv)
    asPcd := id
    appliesEv1 := fun sm _ => sm.2.isSome
    updateEv1Command := fun sm _ _ => sm
    unwrapEv1Response := fun sm _ payload =>
      (sm, if payload.getLast? = some (sm.1.headD 0) then some payload.dropLast else none)
    unwrap := fun sm _ _ payload => (sm, payload) }

theorem mixingCore_aes : CipherCore mixingCore cmdAuthenticateAes (keyXor 16) :=
  ⟨by decide, rfl, fun _ _ _ _ => rfl, fun _ _ _ _ => rfl, fun _ => rfl⟩

def aesKey : Octets := [0, 1, 2, 3, 4, 5, 6, 7, 8, 9, 10, 11, 12, 13, 14, 15]

def aesCredential (files : List DfcFile) : Credential :=
  ⟨zeros 7, 0, some ⟨[1, 2, 3], cmdAuthenticateAes, 1, fun _ => some aesKey⟩, files, fun _ => []⟩

def seventeens : Nat → Octets := fun size => List.replicate size 0x11

/-- A card whose first cryptogram is the key itself, RndB being zeros; its proof is right. -/
def aesCard : Card := scripted [cmdAdditionalFrame :: aesKey, statusOk :: (zeros 16 ++ [0x55])]

end DfcFlipper.Reader.Mutual
