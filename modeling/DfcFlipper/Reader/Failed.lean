/-
  DfcFlipper.Reader.Failed — what a card read that fails leaves of the credential.

  The UID of the activated card is captured before the selection, and every file is committed
  before the next is fetched. So a read that fails may leave the UID of one card over the files
  of another, or files of both.

  `failed_read_keeps_iff`: the credential is as it was exactly when it held the UID (`UidHeld`)
  and, of a card that admits the reader, the contents of every file it delivers (`FilesHeld`).
-/

import DfcFlipper.Reader.Answers

namespace DfcFlipper.Reader

open DfcFlipper.Lib.Bytes

variable {σ : Type} {C : Core σ} {card : Card} {r : DfcReader σ} {d : Device}

/-! ## The files -/

/-- Of the files the card delivers before the read ends, the pool holds each as it comes: one that finds no room is not
changed by that, and one that does is the same. -/
inductive Held (C : Core σ) (card : Card) (pool : Pool) : σ → List Octets → List (DfcFile × Nat) → Prop
  | nil {sm : σ} {sent : List Octets} : Held C card pool sm sent []
  | other {sm : σ} {sent : List Octets} {file : DfcFile} {i : Nat} {rest : List (DfcFile × Nat)} : file.appIndex ≠ 0 →
      Held C card pool sm sent rest → Held C card pool sm sent ((file, i) :: rest)
  | undelivered {sm : σ} {sent : List Octets} {file : DfcFile} {i : Nat} {rest : List (DfcFile × Nat)} : file.appIndex = 0 →
      (∀ sm' plain, ¬Delivers C card sm sent file sm' plain) → Held C card pool sm sent ((file, i) :: rest)
  | roomless {sm sm' : σ} {sent : List Octets} {file : DfcFile} {i : Nat} {rest : List (DfcFile × Nat)} {plain : Octets} :
      file.appIndex = 0 → Delivers C card sm sent file sm' plain → ¬HasRoom C pool i plain.length →
      (∀ resized ∈ C.fileResize pool i plain.length, resized i = pool i) → Held C card pool sm sent ((file, i) :: rest)
  | same {sm sm' : σ} {sent : List Octets} {file : DfcFile} {i : Nat} {rest : List (DfcFile × Nat)} {plain : Octets} :
      file.appIndex = 0 → Delivers C card sm sent file sm' plain → HasRoom C pool i plain.length → plain = pool i →
      Held C card pool sm' (sent ++ [C.buildReadDataFrame file.number 0 0]) rest → Held C card pool sm sent ((file, i) :: rest)

section Entry

variable {pool : Pool} {sm sm' : σ} {sent : List Octets} {file : DfcFile} {i : Nat} {rest : List (DfcFile × Nat)}
  {plain : Octets}

/-- What `Held` says of a file that is delivered. -/
theorem Held.delivered (h : Held C card pool sm sent ((file, i) :: rest)) (ha : file.appIndex = 0)
    (hd : Delivers C card sm sent file sm' plain) :
    (¬HasRoom C pool i plain.length ∧ ∀ resized ∈ C.fileResize pool i plain.length, resized i = pool i) ∨
    (HasRoom C pool i plain.length ∧ plain = pool i ∧
      Held C card pool sm' (sent ++ [C.buildReadDataFrame file.number 0 0]) rest) := by
  cases h with
  | other hne _ => exact absurd ha hne
  | undelivered _ hno => exact absurd hd (hno _ _)
  | roomless _ hd' hroom hsame =>
    obtain ⟨_, rfl⟩ := hd.unique hd'
    exact Or.inl ⟨hroom, hsame⟩
  | same _ hd' hroom hp hrest =>
    obtain ⟨rfl, rfl⟩ := hd.unique hd'
    exact Or.inr ⟨hroom, hp, hrest⟩

/-- A file that finds no room leaves the pool as it was exactly when it was not resized to other contents. -/
theorem held_roomless_iff (hC : PoolLaws C) (ha : file.appIndex = 0) (hd : Delivers C card sm sent file sm' plain)
    (hroom : ¬HasRoom C pool i plain.length) :
    (commit C pool i plain).2 = pool ↔ Held C card pool sm sent ((file, i) :: rest) := by
  rw [commit_resized hroom]
  constructor
  · intro hp
    refine .roomless ha hd hroom fun resized hr => ?_
    have hr : C.fileResize pool i plain.length = some resized := hr
    rw [hr] at hp
    exact congrFun hp i
  · intro h
    obtain ⟨_, hsame⟩ := (h.delivered ha hd).resolve_right fun h => hroom h.1
    cases hr : C.fileResize pool i plain.length with
    | none => rfl
    | some resized =>
      funext j
      by_cases hj : j = i
      · rw [hj]
        exact hsame resized hr
      · exact hC.others hr j hj

end Entry

theorem readFile_undelivered {file : DfcFile} {i : Nat} (hf : (fetch C card r file).1 = none) :
    readFile C card r file i = (.commandStop, (fetch C card r file).2) := by
  simp only [readFile, hf]

theorem readFile_delivered {file : DfcFile} (i : Nat) {plain : Octets} {r₁ : DfcReader σ}
    (hf : fetch C card r file = (some plain, r₁)) :
    readFile C card r file i = ((commit C r₁.credential.pool i plain).1,
      ⟨r₁.credential.setPool (commit C r₁.credential.pool i plain).2, r₁.secureMessaging, r₁.sent⟩) := by
  simp only [readFile, hf]

/-- A file that is read leaves the others in the pool, and the identity. -/
theorem readFile_leaves (hC : PoolLaws C) (card : Card) (r : DfcReader σ) (file : DfcFile) (i : Nat) :
    (∀ j, j ≠ i → (readFile C card r file i).2.credential.pool j = r.credential.pool j) ∧
      (readFile C card r file i).2.credential.uid = r.credential.uid ∧
      (readFile C card r file i).2.credential.uidLen = r.credential.uidLen := by
  rcases hf : fetch C card r file with ⟨_ | plain, r₁⟩
  · rw [readFile_undelivered (by rw [hf]), fetch_credential]
    exact ⟨fun _ _ => rfl, rfl, rfl⟩
  · have hr₁ : (fetch C card r file).2.credential = r.credential := fetch_credential file
    rw [hf] at hr₁
    rw [readFile_delivered i hf, hr₁]
    exact ⟨fun j hj => commit_others hC hj plain, rfl, rfl⟩

theorem readFiles_leaves (hC : PoolLaws C) (card : Card) (files : List (DfcFile × Nat)) :
    ∀ (r : DfcReader σ) (ret : NfcCommand),
      (∀ j, j ∉ files.map Prod.snd → (readFiles C card ret r files).reader.credential.pool j = r.credential.pool j) ∧
        (readFiles C card ret r files).reader.credential.uid = r.credential.uid ∧
        (readFiles C card ret r files).reader.credential.uidLen = r.credential.uidLen := by
  induction files with
  | nil => exact fun r ret => ⟨fun _ _ => rfl, rfl, rfl⟩
  | cons entry rest ih =>
    intro r ret
    obtain ⟨file, i⟩ := entry
    obtain ⟨hothers, huid, hlen⟩ := readFile_leaves hC card r file i
    simp only [List.map_cons, List.mem_cons, not_or, readFiles]
    split
    · obtain ⟨hpool, hid⟩ := ih r ret
      exact ⟨fun j hj => hpool j hj.2, hid⟩
    · split
      · exact ⟨fun j hj => hothers j hj.1, huid, hlen⟩
      · obtain ⟨hpool, huid', hlen'⟩ := ih (readFile C card r file i).2 (readFile C card r file i).1
        exact ⟨fun j hj => (hpool j hj.2).trans (hothers j hj.1), huid'.trans huid, hlen'.trans hlen⟩

/-- The pool is left as it was exactly when what is delivered is what it holds. -/
theorem readFiles_pool_iff (hC : PoolLaws C) (card : Card) (files : List (DfcFile × Nat))
    (hn : (files.map Prod.snd).Nodup) : ∀ (r : DfcReader σ) (ret : NfcCommand) (sm : σ), r.secureMessaging = some sm →
      ((readFiles C card ret r files).reader.credential.pool = r.credential.pool ↔
        Held C card r.credential.pool sm r.sent files) := by
  induction files with
  | nil => exact fun r ret sm _ => ⟨fun _ => .nil, fun _ => rfl⟩
  | cons entry rest ih =>
    intro r ret sm hs
    obtain ⟨file, i⟩ := entry
    rw [List.map_cons, List.nodup_cons] at hn
    by_cases ha : file.appIndex = 0
    · rcases hf : fetch C card r file with ⟨_ | plain, r₁⟩
      · have he : (readFiles C card ret r ((file, i) :: rest)).reader = (fetch C card r file).2 := by
          simp [readFiles, ha, readFile_undelivered (show (fetch C card r file).1 = none by rw [hf])]
        rw [he, fetch_credential]
        refine ⟨fun _ => .undelivered ha fun sm' plain hd => ?_, fun _ => rfl⟩
        have hsome := (fetch_iff hs).mpr ⟨sm', hd, rfl⟩
        rw [hf] at hsome
        cases hsome
      · obtain ⟨sm', hd, rfl⟩ := (fetch_iff hs).mp hf
        have hread := readFile_delivered i hf
        by_cases hroom : HasRoom C r.credential.pool i plain.length
        · rw [commit_roomy hC hroom] at hread
          have he : readFiles C card ret r ((file, i) :: rest) = readFiles C card .commandContinue
              ⟨r.credential.setPool (Function.update r.credential.pool i plain), some sm',
                r.sent ++ [C.buildReadDataFrame file.number 0 0]⟩ rest := by simp [readFiles, ha, hread]
          rw [he]
          by_cases hp : plain = r.credential.pool i
          · have hsame : r.credential.setPool (Function.update r.credential.pool i plain) = r.credential := by
              rw [hp, Function.update_eq_self]
              rfl
            rw [hsame, ih hn.2 ⟨r.credential, some sm', _⟩ .commandContinue sm' rfl]
            constructor
            · exact fun h => .same ha hd hroom hp h
            · intro h
              exact ((h.delivered ha hd).resolve_left fun h => h.1 hroom).2.2
          · have hi := (readFiles_leaves hC card rest ⟨r.credential.setPool (Function.update r.credential.pool i plain),
              some sm', r.sent ++ [C.buildReadDataFrame file.number 0 0]⟩ .commandContinue).1 i hn.1
            rw [Credential.setPool_pool, Function.update_self] at hi
            constructor
            · intro h
              rw [h] at hi
              exact absurd hi.symm hp
            · intro h
              exact absurd ((h.delivered ha hd).resolve_left fun h => h.1 hroom).2.1 hp
        · have he : (readFiles C card ret r ((file, i) :: rest)).reader.credential.pool =
              (commit C r.credential.pool i plain).2 := by
            simp [readFiles, ha, hread, commit_roomless hroom]
          rw [he, held_roomless_iff hC ha hd hroom]
    · have he : readFiles C card ret r ((file, i) :: rest) = readFiles C card ret r rest := by simp [readFiles, ha]
      rw [he, ih hn.2 r ret sm hs]
      constructor
      · exact .other ha
      · intro h
        cases h with
        | other _ h => exact h
        | undelivered hz _ => exact absurd hz ha
        | roomless hz _ _ _ => exact absurd hz ha
        | same hz _ _ _ _ => exact absurd hz ha

/-! ## The card -/

/-- What a credential is of a card: its UID and the contents of its files. -/
structure SameCard (c c' : Credential) : Prop where
  uid : c'.uid = c.uid
  uidLen : c'.uidLen = c.uidLen
  pool : c'.pool = c.pool

/-- The UID of the activated card is the one held, or is not taken. -/
def UidHeld (uid : Option Octets) (c : Credential) : Prop :=
  ∀ u, uid = some u → u.length ≤ c.uid.length → c.uid.take u.length = u ∧ c.uidLen = u.length

theorem writeAt_head_iff {α : Type} {a src : List α} : writeAt a 0 src = a ↔ a.take src.length = src := by
  have hsplit : a.take src.length ++ a.drop src.length = a := List.take_append_drop src.length a
  have hw : writeAt a 0 src = src ++ a.drop src.length := by simp [writeAt]
  rw [hw]
  constructor
  · intro h
    exact List.append_cancel_right (hsplit.trans h.symm)
  · intro h
    rw [h] at hsplit
    exact hsplit

theorem captureUid_held_iff (uid : Option Octets) (c : Credential) :
    ((captureUid uid c).uid = c.uid ∧ (captureUid uid c).uidLen = c.uidLen) ↔ UidHeld uid c := by
  cases uid with
  | none =>
    refine ⟨fun _ u hu => ?_, fun _ => ⟨rfl, rfl⟩⟩
    cases hu
  | some u =>
    by_cases hl : u.length ≤ c.uid.length
    · have he : captureUid (some u) c = ⟨writeAt c.uid 0 u, u.length, c.application, c.files, c.pool⟩ := by
        simp [captureUid, hl]
      rw [he]
      simp only [writeAt_head_iff]
      constructor
      · rintro ⟨hu, hn⟩ u' hu' _
        obtain rfl := Option.some.inj hu'
        exact ⟨hu, hn.symm⟩
      · intro h
        obtain ⟨hu, hn⟩ := h u rfl hl
        exact ⟨hu, hn.symm⟩
    · have he : captureUid (some u) c = c := by simp [captureUid, hl]
      rw [he]
      refine ⟨fun _ u' hu' hl' => ?_, fun _ => ⟨rfl, rfl⟩⟩
      obtain rfl := Option.some.inj hu'
      exact absurd hl' hl

/-- Only the UID is captured. -/
theorem captureUid_leaves (uid : Option Octets) (c : Credential) :
    (captureUid uid c).application = c.application ∧ (captureUid uid c).files = c.files ∧ (captureUid uid c).pool = c.pool := by
  cases uid with
  | none => exact ⟨rfl, rfl, rfl⟩
  | some u =>
    simp only [captureUid]
    split <;> exact ⟨rfl, rfl, rfl⟩

/-- If the card admits the reader, the credential holds the files it delivers. -/
def FilesHeld (C : Core σ) (card : Card) (d : Device) (c : Credential) : Prop :=
  d.readerAlloc = true → ∀ sm sent, Admits C card d.random c sm sent → Held C card c.pool sm sent c.files.zipIdx

theorem nodup_zipIdx_snd {α : Type} (l : List α) : (l.zipIdx.map Prod.snd).Nodup := by
  rw [List.zipIdx_map_snd]
  exact List.nodup_range'

@[simp] theorem afterOpen_reader (r₂ : DfcReader σ) (files : List (DfcFile × Nat)) :
    (afterOpen C card r₂ files).reader = (readFiles C card .commandContinue r₂ files).reader := by
  simp only [afterOpen]
  split <;> rfl

/-- A read leaves the identity, and the pool exactly when it holds what is delivered. -/
theorem stateMachine_leaves (hC : PoolLaws C) (card : Card) (d : Device) (c : Credential) :
    ((stateMachine C card d c).credential.uid = c.uid ∧ (stateMachine C card d c).credential.uidLen = c.uidLen) ∧
      ((stateMachine C card d c).credential.pool = c.pool ↔ FilesHeld C card d c) := by
  by_cases hd : d.readerAlloc = true
  · have hnf : ¬d.readerAlloc = false := by simp [hd]
    simp only [stateMachine, if_neg hnf]
    rcases session_cases C card d c with ⟨r₂, ho, hs⟩ | ⟨hno, r, hs, hc⟩
    · obtain ⟨sm, sent, hadmits, rfl⟩ := opens_iff.mp ho
      rw [hs, afterOpen_reader]
      refine ⟨(readFiles_leaves hC card _ _ _).2, ?_⟩
      rw [readFiles_pool_iff hC card _ (nodup_zipIdx_snd c.files) ⟨c, some sm, sent⟩ .commandContinue sm rfl]
      constructor
      · intro hh _ sm' sent' hadmits'
        obtain ⟨_, hsm, hsent⟩ := DfcReader.mk.inj (ho.unique (opens_iff.mpr ⟨sm', sent', hadmits', rfl⟩))
        obtain rfl := Option.some.inj hsm
        exact hsent ▸ hh
      · exact fun hh => hh hd sm sent hadmits
    · rw [hs, hc]
      refine ⟨⟨rfl, rfl⟩, fun _ _ sm sent hadmits => ?_, fun _ => rfl⟩
      exact absurd (opens_iff.mpr ⟨sm, sent, hadmits, rfl⟩) (hno _)
  · have hf : d.readerAlloc = false := Bool.eq_false_iff.mpr hd
    rw [show (stateMachine C card d c).credential = c from by simp [stateMachine, hf]]
    exact ⟨⟨rfl, rfl⟩, fun _ ht => absurd ht hd, fun _ => rfl⟩

theorem filesHeld_captured (uid : Option Octets) (c : Credential) :
    FilesHeld C card d (captureUid uid c) ↔ FilesHeld C card d c := by
  obtain ⟨happ, hfiles, hpool⟩ := captureUid_leaves uid c
  rw [FilesHeld, FilesHeld, hfiles, hpool]
  constructor
  · exact fun h hd sm sent hadmits => h hd sm sent (hadmits.other happ)
  · exact fun h hd sm sent hadmits => h hd sm sent (hadmits.other happ.symm)

/-- A Ready event leaves the card it found exactly when the UID is the one held and so is every file
that is delivered. -/
theorem ready_keeps_iff (hC : PoolLaws C) (card : Card) (d : Device) (c : Credential) :
    SameCard c (pollerCallback C card d c .ready).credential ↔ UidHeld d.uid c ∧ FilesHeld C card d c := by
  have he : pollerCallback C card d c .ready = stateMachine C card d (captureUid d.uid c) := rfl
  obtain ⟨⟨hu, hn⟩, hp⟩ := stateMachine_leaves hC card d (captureUid d.uid c)
  rw [(captureUid_leaves d.uid c).2.2, filesHeld_captured] at hp
  rw [he, ← captureUid_held_iff, ← hp]
  constructor
  · intro h
    exact ⟨⟨hu.symm.trans h.uid, hn.symm.trans h.uidLen⟩, h.pool⟩
  · rintro ⟨⟨hcu, hcn⟩, hpool⟩
    exact ⟨hu.trans hcu, hn.trans hcn, hpool⟩

/-- In particular one that ends with Error does. -/
theorem failed_read_keeps_iff (hC : PoolLaws C) (card : Card) (d : Device) (c : Credential) :
    .pollerError ∈ (pollerCallback C card d c .ready).posts →
      (SameCard c (pollerCallback C card d c .ready).credential ↔ UidHeld d.uid c ∧ FilesHeld C card d c) :=
  fun _ => ready_keeps_iff hC card d c

/-! ## Another card -/

/-- Two empty files of a card whose UID is all zeros. -/
def zeroCard : Credential :=
  ⟨zeros 7, 7, some ⟨[1, 2, 3], cmdAuthenticateIso, 1, fun _ => some (zeros 16)⟩,
    [⟨1, 0, .plain⟩, ⟨2, 0, .plain⟩], fun _ => []⟩

/-- Random octets that are all zeros, and the UID of the card before the antenna. -/
def reads (uid : Octets) : Device := ⟨true, zeros, some uid⟩

/-- A card that refuses the selection leaves its UID. One that is selected, authenticates and refuses
the second file leaves the first. -/
theorem failed_read_mixes :
    let refused := pollerCallback plainCore (scripted [[0xA0]]) (reads [4, 1, 2, 3, 4, 5, 6]) zeroCard .ready
    let half := pollerCallback plainCore
      (scripted [[statusOk], cmdAdditionalFrame :: zeros 8, statusOk :: zeros 8, [statusOk, 1, 2, 3], [0x9D]])
      (reads (zeros 7)) zeroCard .ready
    (refused.posts = [.pollerError] ∧ refused.credential.uid = [4, 1, 2, 3, 4, 5, 6] ∧
      refused.credential.pool 0 = zeroCard.pool 0) ∧
    (half.posts = [.pollerError] ∧ half.credential.uid = zeroCard.uid ∧
      half.credential.pool 0 = [1, 2, 3] ∧ zeroCard.pool 0 = []) := by
  decide

/-- A selection that is refused keeps a card with its own UID, and with no other; one that is not
refused does not keep the first file. -/
theorem failed_read_keeps_iff_refused :
    let refused := scripted [[0xA0]]
    let half := scripted [[statusOk], cmdAdditionalFrame :: zeros 8, statusOk :: zeros 8, [statusOk, 1, 2, 3], [0x9D]]
    let other := reads [4, 1, 2, 3, 4, 5, 6]
    let own := reads (zeros 7)
    (UidHeld own.uid zeroCard ∧ FilesHeld plainCore refused own zeroCard) ∧
      ¬(UidHeld other.uid zeroCard ∧ FilesHeld plainCore refused other zeroCard) ∧
      ¬(UidHeld own.uid zeroCard ∧ FilesHeld plainCore half own zeroCard) := by
  intro refused half other own
  refine ⟨?_, fun h => ?_, fun h => ?_⟩
  · exact (failed_read_keeps_iff plainCore_laws refused own zeroCard (by decide)).mp ⟨by decide, by decide, rfl⟩
  · have hsame := (failed_read_keeps_iff plainCore_laws refused other zeroCard (by decide)).mpr h
    exact absurd hsame.uid (by decide)
  · have hsame := (failed_read_keeps_iff plainCore_laws half own zeroCard (by decide)).mpr h
    exact absurd (congrFun hsame.pool 0) (by decide)

end DfcFlipper.Reader
