/-
  DfcFlipper.Reader.Session — the ISO authentication of the reader beside the probe's.

  Both meet the same card, the reader with native frames and the probe with the same frames
  wrapped, and draw the same RndA. They send the same octets and accept the same proof
  (`authenticate_second`, `Probe.authenticate_second`); but the reader hands the cryptogram it
  decrypted last to secure messaging as the first chaining value, and the probe starts from
  zeros.

  `same_session_iff`: the two agree exactly when the cryptogram of an accepted proof is the
  block of zeros. Otherwise no MAC one of them accepts is the other's (`every_mac_differs`).
-/

import DfcFlipper.Reader.Pool
import DfcFlipper.Reader.Probe

namespace DfcFlipper.Reader

open DfcFlipper.Lib.Bytes
open DfcFlipper.Lib.Cbc
open DfcFlipper.IsoDep (nativeApdu)
open DfcFlipper.IsoDep.Probe (apdu)

/-! ## The two runs -/

/-- What is taken of `lib/core` for the ISO cipher, with the octets a session's MACs hang on. -/
structure IsoCore {σ : Type} (C : Core σ) (E : BlockCipher) (state : σ → SessionState) : Prop where
  blockSize : C.blockSizeForCipher cmdAuthenticateIso = 8
  desCbcEncrypt : ∀ key iv data, C.desCbcEncrypt key iv data = encryptOctets (E key) iv data
  desCbcDecrypt : ∀ key iv data, C.desCbcDecrypt key iv data = decryptOctets (E key) iv data
  rotateLeft : ∀ octets, C.rotateLeft octets = octets.drop 1 ++ octets.take 1
  deriveSessionKey : ∀ key rndA rndB, key.length = 16 →
    C.deriveSessionKey cmdAuthenticateIso key rndA rndB = rndA.take 4 ++ rndB.take 4 ++ rndA.drop 4 ++ rndB.drop 4
  secureMessagingAlloc : ∀ key iv,
    ∃ sm, C.secureMessagingAlloc cmdAuthenticateIso key iv = some sm ∧ state sm = ⟨key, iv.getD (zeros 8)⟩
  asPcd : ∀ sm, state (C.asPcd sm) = state sm

def HoldsKey (c : Credential) (keyNo : UInt8) (key : Octets) : Prop :=
  ∃ app, c.application = some app ∧ keyNo.toNat < app.numKeys ∧ app.key keyNo.toNat = some key

section Runs

variable (E : BlockCipher) (key encB rndA : Octets)

def firstFrame (keyNo : UInt8) : Octets := [cmdAuthenticateIso, keyNo]

def rndB : Octets := (decryptOctets (E key) (zeros 8) encB).1

def proof : Octets × Octets := encryptOctets (E key) encB (rndA ++ ((rndB E key encB).drop 1 ++ (rndB E key encB).take 1))

def secondFrame : Octets := cmdAdditionalFrame :: (proof E key encB rndA).1

def sessionKey : Octets := rndA.take 4 ++ (rndB E key encB).take 4 ++ rndA.drop 4 ++ (rndB E key encB).drop 4

def cardProof : Octets := (encryptOctets (E key) (proof E key encB rndA).2 (rndA.drop 1 ++ rndA.take 1)).1

end Runs

section Reader

variable {σ : Type} {C : Core σ} {E : BlockCipher} {state : σ → SessionState} {card : Card} {random : Nat → Octets}
  {r : DfcReader σ} {keyNo : UInt8} {key encB encA : Octets} {status : UInt8}

/-- The first answer is refused for its status. -/
theorem authenticate_refused (C : Core σ) (random : Nat → Octets) (hk : HoldsKey r.credential keyNo key)
    (h₁ : card (r.sent ++ [firstFrame keyNo]) = some (status :: encB)) (hs : status ≠ cmdAdditionalFrame) :
    authenticate C card random r keyNo cmdAuthenticateIso =
      (.commandStop, ⟨r.credential, r.secureMessaging, r.sent ++ [firstFrame keyNo]⟩) := by
  obtain ⟨app, happ, hn, hmaterial⟩ := hk
  have hnum : ¬keyNo.toNat ≥ app.numKeys := by omega
  simp only [authenticate, happ, if_neg hnum, hmaterial, exchange]
  rw [show r.sent ++ [[cmdAuthenticateIso, keyNo]] = r.sent ++ [firstFrame keyNo] from rfl, h₁]
  simp [hs]

/-- A cryptogram decrypts to RndA turned exactly if it is the card's proof. -/
theorem decrypts_iff (E : BlockCipher) (key encB : Octets) {rndA : Octets} (hA : rndA.length = 8) (hl : encA.length = 8) :
    (decryptOctets (E key) (proof E key encB rndA).2 encA).1 = rndA.drop 1 ++ rndA.take 1 ↔
      encA = cardProof E key encB rndA := by
  have hrot : (rndA.drop 1 ++ rndA.take 1).length = 8 := by simp [hA]
  exact decryptOctets_block (E key) (by decide) _ ⟨encA, hl⟩ ⟨_, hrot⟩

/-- The second answer decides, by its status and the cryptogram. -/
theorem authenticate_second (hC : IsoCore C E state) (hA : (random 8).length = 8) (hkey : key.length = 16)
    (hk : HoldsKey r.credential keyNo key) (hlB : encB.length = 8)
    (h₁ : card (r.sent ++ [firstFrame keyNo]) = some (cmdAdditionalFrame :: encB)) (hlA : encA.length = 8)
    (h₂ : card (r.sent ++ [firstFrame keyNo] ++ [secondFrame E key encB (random 8)]) = some (status :: encA)) {sm : σ}
    (hsm : C.secureMessagingAlloc cmdAuthenticateIso (sessionKey E key encB (random 8)) (some encA) = some sm) :
    authenticate C card random r keyNo cmdAuthenticateIso =
      if status ≠ statusOk ∨ encA ≠ cardProof E key encB (random 8) then
        (.commandStop, ⟨r.credential, r.secureMessaging,
          r.sent ++ [firstFrame keyNo] ++ [secondFrame E key encB (random 8)]⟩)
      else
        (.commandContinue, ⟨r.credential, some (C.asPcd sm),
          r.sent ++ [firstFrame keyNo] ++ [secondFrame E key encB (random 8)]⟩) := by
  obtain ⟨app, happ, hn, hmaterial⟩ := hk
  have hnum : ¬keyNo.toNat ≥ app.numKeys := by omega
  have haes : ¬cmdAuthenticateIso = cmdAuthenticateAes := by decide
  have hleg : ¬cmdAuthenticateIso = cmdAuthenticateLegacy := by decide
  have htakeB : ((cmdAdditionalFrame :: encB).drop 1).take 8 = encB := List.take_of_length_le (Nat.le_of_eq hlB)
  have htakeA : ((status :: encA).drop 1).take 8 = encA := List.take_of_length_le (Nat.le_of_eq hlA)
  have hshortB :
      ¬((cmdAdditionalFrame :: encB).length < 1 + 8 ∨ (cmdAdditionalFrame :: encB).headD 0 ≠ cmdAdditionalFrame) := by
    simp [hlB]
  have hshortA : (status :: encA).length < 1 + 8 ∨ (status :: encA).headD 0 ≠ statusOk ↔ status ≠ statusOk := by
    simp [hlA]
  have hdec := decrypts_iff E key encB hA hlA
  have hiv := decryptOctets_iv (E key) (by decide) (proof E key encB (random 8)).2 ⟨encA, hlA⟩
  simp only [firstFrame, secondFrame, proof, rndB, sessionKey] at h₁ h₂ hdec hiv hsm ⊢
  -- The first answer goes through every check, and the frame behind it is the one of `h₂`.
  simp only [authenticate, happ, if_neg hnum, hmaterial, exchange, hC.blockSize, cbcDecrypt, cbcEncrypt, if_neg haes,
    if_neg hleg, hC.desCbcDecrypt, hC.desCbcEncrypt, hC.rotateLeft, hC.deriveSessionKey _ _ _ hkey, h₁, if_neg hshortB,
    htakeB, h₂, htakeA, hshortA, hdec, hiv, hsm, ne_eq]
  by_cases hs : status = statusOk
  · simp only [hs, not_true_eq_false, if_false, false_or]
  · simp only [hs, not_false_eq_true, if_true, true_or]

end Reader

namespace Probe

variable {E : BlockCipher} {card : Card} {sent : List Octets} {keyNo : UInt8} {key rndA encB encA : Octets} {status : UInt8}

theorem firstApdu_native : nativeApdu (apdu 0x1A [keyNo] true) = firstFrame keyNo :=
  IsoDep.Probe.apdu_native 0x1A (Or.inr rfl) (by simp)

theorem secondApdu_native (hA : rndA.length = 8) (hlB : encB.length = 8) :
    nativeApdu (apdu 0xAF (proof E key encB rndA).1 true) = secondFrame E key encB rndA := by
  refine IsoDep.Probe.apdu_native 0xAF (Or.inr rfl) ?_
  have hB : (rndB E key encB).length = 8 := by rw [rndB, length_decryptOctets, hlB]
  rw [proof, length_encryptOctets]
  simp only [List.length_append, List.length_drop, List.length_take, hA, hB]
  decide

theorem authenticate_refused (E : BlockCipher) (key rndA : Octets)
    (h₁ : card (sent.map nativeApdu ++ [firstFrame keyNo]) = some (status :: encB))
    (hs : status ≠ cmdAdditionalFrame) :
    authenticate E (wrapped card) sent key keyNo rndA = (none, sent ++ [apdu 0x1A [keyNo] true]) := by
  rw [← firstApdu_native] at h₁
  have haf : status ≠ 0xAF := hs
  simp only [authenticate, exchange_wrapped h₁]
  rw [if_pos (Or.inl haf)]

theorem authenticate_second (hA : rndA.length = 8) (hlB : encB.length = 8)
    (h₁ : card (sent.map nativeApdu ++ [firstFrame keyNo]) = some (cmdAdditionalFrame :: encB)) (hlA : encA.length = 8)
    (h₂ : card (sent.map nativeApdu ++ [firstFrame keyNo] ++ [secondFrame E key encB rndA]) = some (status :: encA)) :
    authenticate E (wrapped card) sent key keyNo rndA =
      (if status ≠ statusOk ∨ encA ≠ cardProof E key encB rndA then none else some ⟨sessionKey E key encB rndA, zeros 8⟩,
        sent ++ [apdu 0x1A [keyNo] true] ++ [apdu 0xAF (proof E key encB rndA).1 true]) := by
  have hfirst : sent.map nativeApdu ++ [firstFrame keyNo] = (sent ++ [apdu 0x1A [keyNo] true]).map nativeApdu := by
    rw [List.map_append, ← firstApdu_native]
    rfl
  rw [hfirst, ← secondApdu_native hA hlB] at h₂
  rw [← firstApdu_native] at h₁
  have hcrypt : crypt E key encB (rndA ++ (rndB E key encB).drop 1 ++ (rndB E key encB).take 1) true =
      (proof E key encB rndA).1 := by
    rw [List.append_assoc]
    rfl
  have hlast : (proof E key encB rndA).1.drop ((proof E key encB rndA).1.length - 8) = (proof E key encB rndA).2 :=
    encryptOctets_iv (E key) (by decide) encB (by simp [hA])
  have hdec : crypt E key (proof E key encB rndA).2 encA false = rndA.drop 1 ++ rndA.take 1 ↔
      encA = cardProof E key encB rndA := decrypts_iff E key encB hA hlA
  have hfine : ¬(cmdAdditionalFrame ≠ 0xAF ∨ encB.length ≠ 8) := by
    simp [hlB, cmdAdditionalFrame]
  have hshort : status ≠ 0 ∨ encA.length ≠ 8 ↔ status ≠ statusOk := by
    simp [hlA, statusOk]
  have hB : crypt E key (zeros 8) encB false = rndB E key encB := rfl
  simp only [authenticate, exchange_wrapped h₁, if_neg hfine, hB, hcrypt, exchange_wrapped h₂, hlast, hshort, ne_eq, hdec]
  by_cases hs : status = statusOk
  · by_cases hp : encA = cardProof E key encB rndA
    · simp only [hs, hp, not_true_eq_false, or_self, if_false]
      rfl
    · simp only [hs, hp, not_true_eq_false, not_false_eq_true, if_false, if_true, or_true]
  · simp only [hs, not_false_eq_true, if_true, true_or]

end Probe

/-! ## The session -/

/-- Each of the steps is answered with one status octet and one cryptogram. -/
def AnswersSteps (card : Card) (sent : List Octets) : Prop :=
  ∀ frame frames, ∃ status cryptogram, cryptogram.length = 8 ∧ card (sent ++ frame :: frames) = some (status :: cryptogram)

/-- The card answers the two frames as one that has the key, with these cryptograms. -/
structure Proves (E : BlockCipher) (card : Card) (sent : List Octets) (key : Octets) (keyNo : UInt8)
    (rndA encB encA : Octets) : Prop where
  first : card (sent ++ [firstFrame keyNo]) = some (cmdAdditionalFrame :: encB)
  second : card (sent ++ [firstFrame keyNo] ++ [secondFrame E key encB rndA]) = some (statusOk :: encA)
  proof : encA = cardProof E key encB rndA

theorem proves_iff {E : BlockCipher} {card : Card} {sent : List Octets} {key rndA encB encA encB' encA' : Octets}
    {keyNo status : UInt8} (h₁ : card (sent ++ [firstFrame keyNo]) = some (cmdAdditionalFrame :: encB))
    (h₂ : card (sent ++ [firstFrame keyNo] ++ [secondFrame E key encB rndA]) = some (status :: encA)) :
    Proves E card sent key keyNo rndA encB' encA' ↔
      encB' = encB ∧ encA' = encA ∧ status = statusOk ∧ encA = cardProof E key encB rndA := by
  constructor
  · rintro ⟨hf, hs, hp⟩
    obtain rfl := (List.cons.inj (Option.some.inj (hf.symm.trans h₁))).2
    obtain ⟨rfl, rfl⟩ := List.cons.inj (Option.some.inj (hs.symm.trans h₂))
    exact ⟨rfl, rfl, rfl, hp⟩
  · rintro ⟨rfl, rfl, rfl, hp⟩
    exact ⟨h₁, h₂, hp⟩

structure SameSession (E : BlockCipher) (s s' : SessionState) : Prop where
  sessionKey : s.sessionKey = s'.sessionKey
  iv : s.iv = s'.iv
  macs : ∀ command data, Probe.readMac E s command data = Probe.readMac E s' command data

/-- The reader and the probe send the same octets, accept the same proofs, and then are in the
same session. -/
structure Agree {σ : Type} (E : BlockCipher) (state : σ → SessionState) (reader : NfcCommand × DfcReader σ)
    (probe : Option SessionState × List Octets) : Prop where
  sent : reader.2.sent = probe.2.map nativeApdu
  accepts : reader.1 = .commandContinue ↔ probe.1 ≠ none
  session : reader.1 = .commandContinue →
    ∃ sm s, reader.2.secureMessaging = some sm ∧ probe.1 = some s ∧ SameSession E (state sm) s

theorem Agree.stopped {σ : Type} {E : BlockCipher} {state : σ → SessionState} {r : DfcReader σ} {apdus : List Octets}
    (h : r.sent = apdus.map nativeApdu) : Agree E state (.commandStop, r) (none, apdus) := by
  refine ⟨h, ?_, ?_⟩
  · simp
  · intro hstop
    cases hstop

section Session

variable {σ : Type} {C : Core σ} {E : BlockCipher} {state : σ → SessionState} {card : Card} {random : Nat → Octets}
  {r : DfcReader σ} {keyNo : UInt8} {key encB encA : Octets} {apdus : List Octets}

theorem firstApdus_native (hsent : apdus.map nativeApdu = r.sent) :
    (apdus ++ [apdu 0x1A [keyNo] true]).map nativeApdu = r.sent ++ [firstFrame keyNo] := by
  rw [List.map_append, hsent, ← Probe.firstApdu_native]
  rfl

theorem secondApdus_native (hA : (random 8).length = 8) (hlB : encB.length = 8) (hsent : apdus.map nativeApdu = r.sent) :
    (apdus ++ [apdu 0x1A [keyNo] true] ++ [apdu 0xAF (proof E key encB (random 8)).1 true]).map nativeApdu =
      r.sent ++ [firstFrame keyNo] ++ [secondFrame E key encB (random 8)] := by
  rw [List.map_append, firstApdus_native hsent, ← Probe.secondApdu_native hA hlB]
  rfl

/-- A proof that is right opens a session on both sides: of one key, and of two chaining values. -/
theorem both_accept (hC : IsoCore C E state) (hA : (random 8).length = 8) (hkey : key.length = 16)
    (hk : HoldsKey r.credential keyNo key)
    (hsent : apdus.map nativeApdu = r.sent) (hlB : encB.length = 8) (hlA : encA.length = 8)
    (hp : Proves E card r.sent key keyNo (random 8) encB encA) :
    ∃ sm, state sm = ⟨sessionKey E key encB (random 8), encA⟩ ∧
      authenticate C card random r keyNo cmdAuthenticateIso = (.commandContinue,
        ⟨r.credential, some sm, r.sent ++ [firstFrame keyNo] ++ [secondFrame E key encB (random 8)]⟩) ∧
      Probe.authenticate E (wrapped card) apdus key keyNo (random 8) =
        (some ⟨sessionKey E key encB (random 8), zeros 8⟩,
          apdus ++ [apdu 0x1A [keyNo] true] ++ [apdu 0xAF (proof E key encB (random 8)).1 true]) := by
  obtain ⟨sm, halloc, hstate⟩ := hC.secureMessagingAlloc (sessionKey E key encB (random 8)) (some encA)
  have hreader := authenticate_second hC hA hkey hk hlB hp.first hlA hp.second halloc
  have hprobe := Probe.authenticate_second hA hlB (by rw [hsent]; exact hp.first) hlA (by rw [hsent]; exact hp.second)
  have hgood : ¬(statusOk ≠ statusOk ∨ encA ≠ cardProof E key encB (random 8)) :=
    not_or.mpr ⟨not_not_intro rfl, not_not_intro hp.proof⟩
  rw [if_neg hgood] at hreader hprobe
  exact ⟨C.asPcd sm, (hC.asPcd sm).trans hstate, hreader, hprobe⟩

/-- The reader is in the probe's session exactly when an accepted proof is the block of zeros. -/
theorem same_session_iff (hC : IsoCore C E state) (hA : (random 8).length = 8) (hkey : key.length = 16)
    (hk : HoldsKey r.credential keyNo key)
    (hcard : AnswersSteps card r.sent) (hsent : apdus.map nativeApdu = r.sent) :
    Agree E state (authenticate C card random r keyNo cmdAuthenticateIso)
      (Probe.authenticate E (wrapped card) apdus key keyNo (random 8)) ↔
    ∀ encB encA, Proves E card r.sent key keyNo (random 8) encB encA → encA = zeros 8 := by
  obtain ⟨s₁, encB, hlB, h₁⟩ := hcard (firstFrame keyNo) []
  by_cases hs₁ : s₁ = cmdAdditionalFrame
  · subst hs₁
    obtain ⟨s₂, encA, hlA, h₂⟩ := hcard (firstFrame keyNo) [secondFrame E key encB (random 8)]
    rw [List.append_cons] at h₂
    by_cases hbad : s₂ ≠ statusOk ∨ encA ≠ cardProof E key encB (random 8)
    · obtain ⟨sm, halloc, _⟩ := hC.secureMessagingAlloc (sessionKey E key encB (random 8)) (some encA)
      have hreader := authenticate_second hC hA hkey hk hlB h₁ hlA h₂ halloc
      have hprobe := Probe.authenticate_second hA hlB (by rw [hsent]; exact h₁) hlA (by rw [hsent]; exact h₂)
      rw [hreader, hprobe, if_pos hbad, if_pos hbad]
      refine ⟨fun _ encB' encA' hp => ?_, fun _ => .stopped (secondApdus_native hA hlB hsent).symm⟩
      obtain ⟨_, _, hok, hproof⟩ := (proves_iff h₁ h₂).mp hp
      exact absurd hbad (not_or.mpr ⟨not_not_intro hok, not_not_intro hproof⟩)
    · have hgood := not_or.mp hbad
      have hp := (proves_iff h₁ h₂).mpr ⟨rfl, rfl, not_not.mp hgood.1, not_not.mp hgood.2⟩
      obtain ⟨sm, hstate, hreader, hprobe⟩ := both_accept hC hA hkey hk hsent hlB hlA hp
      rw [hreader, hprobe]
      constructor
      · intro h encB' encA' hp'
        obtain ⟨_, rfl, _⟩ := (proves_iff h₁ h₂).mp hp'
        obtain ⟨sm', s, hsm, hs, hsame⟩ := h.session rfl
        obtain rfl := Option.some.inj hsm
        obtain rfl := Option.some.inj hs
        have hiv := hsame.iv
        rw [hstate] at hiv
        exact hiv
      · intro h
        obtain rfl := h encB encA hp
        refine ⟨(secondApdus_native hA hlB hsent).symm, ?_, fun _ => ⟨sm, _, rfl, rfl, ?_⟩⟩
        · simp
        · rw [hstate]
          exact ⟨rfl, rfl, fun _ _ => rfl⟩
  · have hreader := authenticate_refused C random hk h₁ hs₁
    have hprobe := Probe.authenticate_refused E key (random 8) (by rw [hsent]; exact h₁) hs₁
    rw [hreader, hprobe]
    refine ⟨fun _ encB' encA' hp => ?_, fun _ => .stopped (firstApdus_native hsent).symm⟩
    exact absurd (List.cons.inj (Option.some.inj (h₁.symm.trans hp.first))).1 hs₁

/-- Behind any other proof no ReadData has a MAC that both accept. -/
theorem every_mac_differs (hC : IsoCore C E state) (hA : (random 8).length = 8) (hkey : key.length = 16)
    (hk : HoldsKey r.credential keyNo key)
    (hsent : apdus.map nativeApdu = r.sent) (hlB : encB.length = 8) (hlA : encA.length = 8)
    (hp : Proves E card r.sent key keyNo (random 8) encB encA) (hne : encA ≠ zeros 8) :
    ∃ sm s, (authenticate C card random r keyNo cmdAuthenticateIso).2.secureMessaging = some sm ∧
      (Probe.authenticate E (wrapped card) apdus key keyNo (random 8)).1 = some s ∧
      ∀ command data, Probe.readMac E (state sm) command data ≠ Probe.readMac E s command data := by
  obtain ⟨sm, hstate, hreader, hprobe⟩ := both_accept hC hA hkey hk hsent hlB hlA hp
  refine ⟨sm, _, by rw [hreader], by rw [hprobe], fun command data he => hne ?_⟩
  rw [hstate] at he
  refine (Probe.readMac_iff E ?_ ?_ ?_ command data).mp he
  · rfl
  · exact hlA
  · rfl

end Session

/-! ## A card that has the key -/

def keyXor : BlockCipher := fun key =>
  ⟨fun b => xorBlock b (ofOctets 8 key), fun b => xorBlock b (ofOctets 8 key), fun b => xor_mixes.cancel b _,
    fun b => xor_mixes.cancel b _⟩

/-- Sessions that are their key and their chaining value. -/
def isoCore : Core SessionState :=
  { plainCore with
    desCbcDecrypt := fun key iv data => decryptOctets (keyXor key) iv data
    desCbcEncrypt := fun key iv data => encryptOctets (keyXor key) iv data
    rotateLeft := fun octets => octets.drop 1 ++ octets.take 1
    deriveSessionKey := fun _ _ rndA rndB => rndA.take 4 ++ rndB.take 4 ++ rndA.drop 4 ++ rndB.drop 4
    secureMessagingAlloc := fun _ key iv => some ⟨key, iv.getD (zeros 8)⟩
    asPcd := id
    appliesEv1 := fun _ _ => true
    updateEv1Command := fun sm _ _ => sm
    unwrapEv1Response := fun sm _ payload => (sm, some payload)
    unwrap := fun sm _ _ payload => (sm, payload) }

theorem isoCore_iso : IsoCore isoCore keyXor id :=
  ⟨rfl, fun _ _ _ => rfl, fun _ _ _ => rfl, fun _ => rfl, fun _ _ _ _ => rfl, fun _ _ => ⟨_, rfl, rfl⟩, fun _ => rfl⟩

def countingKey : Octets := [0, 1, 2, 3, 4, 5, 6, 7, 8, 9, 10, 11, 12, 13, 14, 15]

def countingReader : DfcReader SessionState :=
  ⟨⟨zeros 7, 7, some ⟨[1, 2, 3], cmdAuthenticateIso, 1, fun _ => some countingKey⟩, [], fun _ => []⟩, none, []⟩

def counting : Nat → Octets := fun _ => [1, 2, 3, 4, 5, 6, 7, 8]

def provingCard : Card := fun sent =>
  if sent.length = 1 then some (cmdAdditionalFrame :: zeros 8) else some (statusOk :: [2, 2, 6, 6, 2, 2, 14, 14])

theorem provingCard_answers : AnswersSteps provingCard [] := by
  intro frame frames
  simp only [provingCard]
  split
  · exact ⟨_, _, rfl, rfl⟩
  · exact ⟨_, _, rfl, rfl⟩

theorem provingCard_proves :
    Proves keyXor provingCard [] countingKey 0 (counting 8) (zeros 8) [2, 2, 6, 6, 2, 2, 14, 14] :=
  ⟨by decide, by decide, by decide⟩

/-- Both accept the card; the reader's chain begins with the cryptogram, the probe's with zeros, and
a ReadData of one octet has two MACs. -/
theorem session_out_of_step :
    let reader := authenticate isoCore provingCard counting countingReader 0 cmdAuthenticateIso
    let probe := Probe.authenticate keyXor (wrapped provingCard) [] countingKey 0 (counting 8)
    let key : Octets := [1, 2, 3, 4, 0, 1, 2, 3, 5, 6, 7, 8, 4, 5, 6, 7]
    (reader.1 = .commandContinue ∧ reader.2.secureMessaging = some ⟨key, [2, 2, 6, 6, 2, 2, 14, 14]⟩) ∧
    probe.1 = some ⟨key, zeros 8⟩ ∧
    Probe.readMac keyXor ⟨key, [2, 2, 6, 6, 2, 2, 14, 14]⟩ [1, 0, 0, 0, 1, 0, 0] [0x55] ≠
      Probe.readMac keyXor ⟨key, zeros 8⟩ [1, 0, 0, 0, 1, 0, 0] [0x55] := by
  decide

theorem same_session_iff_counting :
    AnswersSteps provingCard countingReader.sent ∧
    ¬Agree keyXor id (authenticate isoCore provingCard counting countingReader 0 cmdAuthenticateIso)
      (Probe.authenticate keyXor (wrapped provingCard) [] countingKey 0 (counting 8)) :=
  ⟨provingCard_answers, fun h => absurd ((same_session_iff isoCore_iso rfl rfl ⟨_, rfl, by decide, rfl⟩ provingCard_answers
    rfl).mp h _ _ provingCard_proves) (by decide)⟩

end DfcFlipper.Reader
