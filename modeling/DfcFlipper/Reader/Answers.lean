/-
  DfcFlipper.Reader.Answers — the answers a card must give for the steps of the reader to
  succeed (dfc_reader.c).

  Each step is taken apart into what the card answers to its frames and what `lib/core` makes of
  that: a session is opened (`Admits`, of the selection and `Unlocks`) and the contents of a file are
  delivered in it (`Delivers`).

  `opens_iff`, `fetch_iff`: the reader goes on exactly then, and where to.
-/

import DfcFlipper.Reader.Poller

namespace DfcFlipper.Reader

open DfcFlipper.Lib.Bytes

variable {σ : Type} {C : Core σ} {card : Card} {random : Nat → Octets} {r r' : DfcReader σ} {n : Nat}

/-- An answer that passes the checks: the status asked for, and a block. -/
theorem long_iff {rx : Octets} (want : UInt8) :
    ¬(rx.length < 1 + n ∨ rx.headD 0 ≠ want) ↔ ∃ enc rest, enc.length = n ∧ rx = want :: (enc ++ rest) := by
  constructor
  · intro h
    obtain ⟨hlen, hhead⟩ := not_or.mp h
    cases rx with
    | nil => simp at hlen
    | cons b rx =>
      obtain rfl : b = want := not_not.mp hhead
      refine ⟨rx.take n, rx.drop n, ?_, by rw [List.take_append_drop]⟩
      rw [List.length_cons] at hlen
      rw [List.length_take]
      omega
  · rintro ⟨enc, rest, rfl, rfl⟩
    refine not_or.mpr ⟨?_, not_not_intro rfl⟩
    rw [List.length_cons, List.length_append]
    omega

theorem block_of {want : UInt8} {enc rest : Octets} (hl : enc.length = n) : ((want :: (enc ++ rest)).drop 1).take n = enc :=
  List.take_left' hl

theorem status_iff {rx : Octets} (want : UInt8) : ¬(rx.length < 1 ∨ rx.headD 0 ≠ want) ↔ ∃ rest, rx = want :: rest := by
  rw [← Nat.add_zero 1, long_iff]
  constructor
  · rintro ⟨enc, rest, _, rfl⟩
    exact ⟨_, rfl⟩
  · rintro ⟨rest, rfl⟩
    exact ⟨[], rest, rfl, rfl⟩

/-! ## The messages of an authentication -/

section Messages

variable (C : Core σ) (cipher : UInt8) (key encB rndA encA : Octets)

namespace Handshake

def rndB : Octets := (cbcDecrypt C cipher key (zeros (C.blockSizeForCipher cipher)) encB).1

def chained (last : Octets) : Octets := if cipher = cmdAuthenticateLegacy then zeros (C.blockSizeForCipher cipher) else last

def proof : Octets × Octets := cbcEncrypt C cipher key (chained C cipher encB) (rndA ++ C.rotateLeft (rndB C cipher key encB))

def rndARot : Octets × Octets := cbcDecrypt C cipher key (chained C cipher (proof C cipher key encB rndA).2) encA

/-- `dfc_secure_messaging_alloc`, behind both answers. -/
def session : Option σ :=
  C.secureMessagingAlloc cipher (C.deriveSessionKey cipher key rndA (rndB C cipher key encB))
    (if cipher = cmdAuthenticateLegacy then none else some (rndARot C cipher key encB rndA encA).2)

end Handshake

end Messages

/-- Behind the frames `sent` the card answers both frames of the authentication, its proof is right,
and there is a session. -/
inductive Unlocks (C : Core σ) (card : Card) (random : Nat → Octets) (c : Credential) (sent : List Octets)
    (keyNo cipher : UInt8) (sm : σ) (sent' : List Octets) : Prop
  | intro (app : Application) (key encB restB encA restA : Octets) (s : σ) :
      c.application = some app → keyNo.toNat < app.numKeys → app.key keyNo.toNat = some key →
      encB.length = C.blockSizeForCipher cipher → encA.length = C.blockSizeForCipher cipher →
      card (sent ++ [[cipher, keyNo]]) = some (cmdAdditionalFrame :: (encB ++ restB)) →
      sent' = sent ++ [[cipher, keyNo]] ++
        [cmdAdditionalFrame :: (Handshake.proof C cipher key encB (random (C.blockSizeForCipher cipher))).1] →
      card sent' = some (statusOk :: (encA ++ restA)) →
      (Handshake.rndARot C cipher key encB (random (C.blockSizeForCipher cipher)) encA).1 =
        C.rotateLeft (random (C.blockSizeForCipher cipher)) →
      Handshake.session C cipher key encB (random (C.blockSizeForCipher cipher)) encA = some s → sm = C.asPcd s →
      Unlocks C card random c sent keyNo cipher sm sent'

/-- The card is selected by the credential's application and unlocked with its first key. -/
inductive Admits (C : Core σ) (card : Card) (random : Nat → Octets) (c : Credential) (sm : σ) (sent : List Octets) : Prop
  | intro (app : Application) (rest : Octets) : c.application = some app →
      card [C.buildSelectApplicationFrame app.aid] = some (statusOk :: rest) →
      Unlocks C card random c [C.buildSelectApplicationFrame app.aid] 0 app.authCommand sm sent →
      Admits C card random c sm sent

/-- What a session makes of the octets behind the status of a ReadData answer. -/
def Unwraps (C : Core σ) (sm : σ) (file : DfcFile) (wrapped : Octets) (sm' : σ) (plain : Octets) : Prop :=
  if C.appliesEv1 sm cmdReadData = true then
    C.unwrapEv1Response (C.updateEv1Command sm cmdReadData ((C.buildReadDataFrame file.number 0 0).drop 1)) statusOk wrapped =
      (sm', some plain)
  else
    C.unwrap sm file.commSettings statusOk wrapped = (sm', plain) ∧
      ¬(plain.length = 0 ∧ wrapped.length > 0 ∧ file.commSettings ≠ .plain)

/-- In the session `sm`, behind the frames `sent`, the card delivers the contents of a file. -/
structure Delivers (C : Core σ) (card : Card) (sm : σ) (sent : List Octets) (file : DfcFile) (sm' : σ) (plain : Octets) :
    Prop where
  answer : ∃ wrapped, card (sent ++ [C.buildReadDataFrame file.number 0 0]) = some (statusOk :: wrapped) ∧
    Unwraps C sm file wrapped sm' plain
  fits : plain.length ≤ C.maxFileData

/-! ## The steps -/

theorem select_iff {aid : Octets} :
    selectApplication C card r aid = (.commandContinue, r') ↔
      (∃ rest, card (r.sent ++ [C.buildSelectApplicationFrame aid]) = some (statusOk :: rest)) ∧
        r' = ⟨r.credential, r.secureMessaging, r.sent ++ [C.buildSelectApplicationFrame aid]⟩ := by
  simp only [selectApplication, exchange]
  cases card (r.sent ++ [C.buildSelectApplicationFrame aid]) with
  | none => simp
  | some rx =>
    simp only [Option.some.injEq]
    rw [← status_iff]
    by_cases hbad : rx.length < 1 ∨ rx.headD 0 ≠ statusOk
    · rw [if_pos hbad]
      exact ⟨fun h => (by cases h), fun h => absurd hbad h.1⟩
    · rw [if_neg hbad]
      exact ⟨fun h => ⟨hbad, (Prod.mk.inj h).2.symm⟩, fun h => h.2 ▸ rfl⟩

theorem unlocks_of_authenticate {keyNo cipher : UInt8}
    (h : authenticate C card random r keyNo cipher = (.commandContinue, r')) :
    ∃ sm sent, Unlocks C card random r.credential r.sent keyNo cipher sm sent ∧ r' = ⟨r.credential, some sm, sent⟩ := by
  simp only [authenticate] at h
  split at h
  · cases h
  rename_i app happ
  split at h
  · cases h
  rename_i hnum
  split at h
  · cases h
  rename_i key hkey
  split at h
  · cases h
  rename_i rx h₁
  split at h
  · cases h
  rename_i hgood
  obtain ⟨encB, restB, hlB, rfl⟩ := (long_iff cmdAdditionalFrame).mp hgood
  have hproof : cbcEncrypt C cipher key (if cipher = cmdAuthenticateLegacy then zeros (C.blockSizeForCipher cipher) else encB)
      (random (C.blockSizeForCipher cipher) ++
        C.rotateLeft (cbcDecrypt C cipher key (zeros (C.blockSizeForCipher cipher)) encB).1) =
      Handshake.proof C cipher key encB (random (C.blockSizeForCipher cipher)) := rfl
  rw [block_of hlB, hproof] at h
  split at h
  · cases h
  rename_i ry h₂
  split at h
  · cases h
  rename_i hgood'
  obtain ⟨encA, restA, hlA, rfl⟩ := (long_iff statusOk).mp hgood'
  have hrot : cbcDecrypt C cipher key (if cipher = cmdAuthenticateLegacy then zeros (C.blockSizeForCipher cipher) else
      (Handshake.proof C cipher key encB (random (C.blockSizeForCipher cipher))).2) encA =
      Handshake.rndARot C cipher key encB (random (C.blockSizeForCipher cipher)) encA := rfl
  rw [block_of hlA, hrot] at h
  split at h
  · cases h
  rename_i hright
  split at h
  · cases h
  rename_i s hs
  refine ⟨C.asPcd s, _, .intro app key encB restB encA restA s happ (Nat.not_le.mp hnum) hkey hlB hlA h₁ rfl h₂
    (not_not.mp hright) hs rfl, (Prod.mk.inj h).2.symm⟩

theorem authenticate_of_unlocks {keyNo cipher : UInt8} {sm : σ} {sent : List Octets}
    (h : Unlocks C card random r.credential r.sent keyNo cipher sm sent) :
    authenticate C card random r keyNo cipher = (.commandContinue, ⟨r.credential, some sm, sent⟩) := by
  obtain ⟨app, key, encB, restB, encA, restA, s, happ, hnum, hkey, hlB, hlA, h₁, rfl, h₂, hright, hs, rfl⟩ := h
  have hgood := (long_iff (n := C.blockSizeForCipher cipher) cmdAdditionalFrame).mpr ⟨encB, restB, hlB, rfl⟩
  have hgood' := (long_iff (n := C.blockSizeForCipher cipher) statusOk).mpr ⟨encA, restA, hlA, rfl⟩
  simp only [Handshake.session, Handshake.rndARot, Handshake.proof, Handshake.chained, Handshake.rndB] at h₂ hright hs ⊢
  simp only [authenticate, exchange, happ, if_neg (Nat.not_le.mpr hnum), hkey, h₁, if_neg hgood, block_of hlB, h₂,
    if_neg hgood', block_of hlA, hright, ne_eq, not_true_eq_false, if_false, hs]

/-- Of the credential the application decides. -/
theorem Admits.other {c c' : Credential} {sm : σ} {sent : List Octets} (h : Admits C card random c sm sent)
    (hc : c'.application = c.application) : Admits C card random c' sm sent := by
  obtain ⟨app, rest, happ, hselect, hunlocks⟩ := h
  obtain ⟨app', key, encB, restB, encA, restA, s, happ', hnum, hkey, hlB, hlA, h₁, hsent, h₂, hright, hs, hsm⟩ := hunlocks
  exact ⟨app, rest, hc.trans happ, hselect,
    .intro app' key encB restB encA restA s (hc.trans happ') hnum hkey hlB hlA h₁ hsent h₂ hright hs hsm⟩

/-- A session is opened exactly when the card admits the reader. -/
theorem opens_iff {d : Device} {c : Credential} :
    Opens C card d c r ↔ ∃ sm sent, Admits C card d.random c sm sent ∧ r = ⟨c, some sm, sent⟩ := by
  constructor
  · rintro ⟨app, r₁, happ, hselect, hauth⟩
    obtain ⟨⟨rest, hrest⟩, rfl⟩ := select_iff.mp hselect
    obtain ⟨sm, sent, hunlocks, rfl⟩ := unlocks_of_authenticate hauth
    exact ⟨sm, sent, ⟨app, rest, happ, hrest, hunlocks⟩, rfl⟩
  · rintro ⟨sm, sent, ⟨app, rest, happ, hrest, hunlocks⟩, rfl⟩
    exact ⟨app, _, happ, select_iff.mpr ⟨⟨rest, hrest⟩, rfl⟩, authenticate_of_unlocks hunlocks⟩

theorem delivers_iff {sm sm' : σ} {sent : List Octets} {file : DfcFile} {wrapped plain : Octets}
    (hc : card (sent ++ [C.buildReadDataFrame file.number 0 0]) = some (statusOk :: wrapped)) :
    Delivers C card sm sent file sm' plain ↔ Unwraps C sm file wrapped sm' plain ∧ plain.length ≤ C.maxFileData := by
  constructor
  · rintro ⟨⟨wrapped', hc', hu⟩, hl⟩
    obtain rfl := (List.cons.inj (Option.some.inj (hc.symm.trans hc'))).2
    exact ⟨hu, hl⟩
  · exact fun h => ⟨⟨wrapped, hc, h.1⟩, h.2⟩

/-- What is delivered is settled by the answer. -/
theorem Delivers.unique {sm sm₁ sm₂ : σ} {sent : List Octets} {file : DfcFile} {plain₁ plain₂ : Octets}
    (h₁ : Delivers C card sm sent file sm₁ plain₁) (h₂ : Delivers C card sm sent file sm₂ plain₂) :
    sm₁ = sm₂ ∧ plain₁ = plain₂ := by
  obtain ⟨wrapped, hc, hu₁⟩ := h₁.answer
  have hu₂ := ((delivers_iff hc).mp h₂).1
  unfold Unwraps at hu₁ hu₂
  split at hu₁
  · rename_i hev
    rw [if_pos hev] at hu₂
    obtain ⟨hs, hp⟩ := Prod.mk.inj (hu₁.symm.trans hu₂)
    exact ⟨hs, Option.some.inj hp⟩
  · rename_i hev
    rw [if_neg hev] at hu₂
    exact Prod.mk.inj (hu₁.1.symm.trans hu₂.1)

theorem capped_iff {r₁ : DfcReader σ} {plain₁ plain : Octets} :
    (if plain₁.length > C.maxFileData then (none, r₁) else (some plain₁, r₁)) = (some plain, r') ↔
      plain₁ = plain ∧ plain.length ≤ C.maxFileData ∧ r' = r₁ := by
  by_cases hlong : plain₁.length > C.maxFileData
  · rw [if_pos hlong]
    refine ⟨fun h => (by cases h), ?_⟩
    rintro ⟨rfl, hfit, _⟩
    exact absurd hlong (Nat.not_lt.mpr hfit)
  · rw [if_neg hlong]
    constructor
    · intro h
      obtain ⟨hp, rfl⟩ := Prod.mk.inj h
      obtain rfl := Option.some.inj hp
      exact ⟨rfl, Nat.not_lt.mp hlong, rfl⟩
    · rintro ⟨rfl, _, rfl⟩
      rfl

/-- A file is fetched exactly when the card delivers it. -/
theorem fetch_iff {file : DfcFile} {sm : σ} {plain : Octets} (hs : r.secureMessaging = some sm) :
    fetch C card r file = (some plain, r') ↔
      ∃ sm', Delivers C card sm r.sent file sm' plain ∧
        r' = ⟨r.credential, some sm', r.sent ++ [C.buildReadDataFrame file.number 0 0]⟩ := by
  have hanswered : ∀ sm', Delivers C card sm r.sent file sm' plain →
      ∃ wrapped, card (r.sent ++ [C.buildReadDataFrame file.number 0 0]) = some (statusOk :: wrapped) :=
    fun sm' h => ⟨_, h.answer.choose_spec.1⟩
  simp only [fetch, hs, exchange]
  rcases hc : card (r.sent ++ [C.buildReadDataFrame file.number 0 0]) with _ | rx
  · refine ⟨fun h => (by cases h), ?_⟩
    rintro ⟨sm', hd, _⟩
    obtain ⟨wrapped, hw⟩ := hanswered sm' hd
    rw [hc] at hw
    cases hw
  by_cases hbad : rx.length < 1 ∨ rx.headD 0 ≠ statusOk
  · have hno : ∀ sm', ¬Delivers C card sm r.sent file sm' plain := by
      intro sm' hd
      obtain ⟨wrapped, hw⟩ := hanswered sm' hd
      exact absurd ⟨wrapped, Option.some.inj (hc.symm.trans hw)⟩ (mt (status_iff statusOk).mpr (not_not.mpr hbad))
    constructor
    · intro h
      rcases hbad with hl | hst
      · simp only [if_pos hl] at h
        cases h
      · simp only [if_pos hst, ite_self] at h
        cases h
    · rintro ⟨sm', hd, _⟩
      exact absurd hd (hno sm')
  obtain ⟨wrapped, rfl⟩ := (status_iff statusOk).mp hbad
  obtain ⟨hl, hst⟩ := not_or.mp hbad
  simp only [if_neg hl, List.headD_cons, ne_eq, not_true_eq_false, if_false, List.drop_succ_cons, List.drop_zero,
    delivers_iff hc, Unwraps]
  by_cases hev : C.appliesEv1 sm cmdReadData = true
  · simp only [hev, if_true]
    rcases C.unwrapEv1Response (C.updateEv1Command sm cmdReadData ((C.buildReadDataFrame file.number 0 0).drop 1)) statusOk
      wrapped with ⟨sm₁, _ | plain₁⟩
    · simp
    · simp only [capped_iff, Prod.mk.injEq, Option.some.injEq, and_assoc, exists_eq_left']
  · simp only [hev, Bool.false_eq_true, if_false]
    rcases C.unwrap sm file.commSettings statusOk wrapped with ⟨sm₁, plain₁⟩
    by_cases hempty : plain₁.length = 0 ∧ wrapped.length > 0 ∧ file.commSettings ≠ .plain
    · simp only [if_pos hempty]
      refine ⟨fun h => (by cases h), ?_⟩
      rintro ⟨sm', ⟨⟨hu, hfine⟩, _⟩, _⟩
      rw [(Prod.mk.inj hu).2] at hempty
      exact absurd hempty hfine
    · simp only [if_neg hempty, capped_iff, Prod.mk.injEq, and_assoc, exists_eq_left']
      constructor
      · rintro ⟨rfl, hfit, rfl⟩
        exact ⟨rfl, hempty, hfit, rfl⟩
      · rintro ⟨rfl, _, hfit, rfl⟩
        exact ⟨rfl, hfit, rfl⟩

end DfcFlipper.Reader
