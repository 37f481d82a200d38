/-
  DfcFlipper.Storage.Status — what a load leaves behind on each of its exits: the status it
  reports and the credential in memory.

  A load reports a broken file where the file is empty, where a codec stage came back with a
  status of its own for that (`Broken`), and at one exit more: a credential that was read and
  decoded but whose UID no reader detects leaves the status the load started with.

  - `loadSelectedFile_all_or_nothing`: a load that returns true leaves the decoded credential
    under the selected name, one that returns false a cleared one, and the status says which.
  - `malformed_iff_broken_iff`: a file is reported as broken exactly when it is, unless the load
    gets as far as the UID and refuses it.
-/

import DfcFlipper.Storage.RoundTrip

namespace DfcFlipper.Storage

open DfcFlipper.Lib.Bytes

variable {n : Nat} {β : Type}

/-! ## All or nothing -/

theorem selectedName_chars (sdk : PathSdk) (s : Store) (c : Credential n β) :
    (selectedName sdk s c).chars =
      if c.name.chars = [] then (sdk.extractFilename s.loadPath).take n else c.name.chars := by
  simp only [selectedName, Name.copy_self]
  split
  · rfl
  · rfl

/-- A load that fails clears the credential last of all. -/
theorem loadSelectedFile_failed {sdk : PathSdk} {K : Codec n β} {d : LoadDevice} {s : Store} {c : Credential n β}
    (hp : s.loadPath ≠ []) (hl : (loadSelectedFile sdk K d s c).loaded = false) :
    ∃ c', (loadSelectedFile sdk K d s c).credential = K.clear c' := by
  simp only [loadSelectedFile, if_neg hp] at hl ⊢
  split at hl
  · rename_i hf
    rw [hf] at hl
    cases hl
  · rename_i hf
    exact ⟨_, by rw [if_neg hf]⟩

/-- Loading is all or nothing. What `dfc_credential_clear` leaves does not depend on what the
load had written before it. -/
theorem loadSelectedFile_all_or_nothing (sdk : PathSdk) (K : Codec n β) (d : LoadDevice) (s : Store)
    (c : Credential n β) (hp : s.loadPath ≠ []) :
    let r := loadSelectedFile sdk K d s c
    (r.loaded = true ↔ r.status = .ok) ∧
    (r.loaded = true → ∃ raw c' octets, Reads d s.files s.loadPath raw ∧ Octeted K d c raw c' octets ∧
      (K.decode c' octets).1 = .ok ∧ Accepted K (K.decode c' octets).2 ∧
      r.credential = { (K.decode c' octets).2 with name := selectedName sdk s c } ∧
      r.credential.name.chars =
        if c.name.chars = [] then (sdk.extractFilename s.loadPath).take n else c.name.chars) ∧
    (r.loaded = false → (∃ c', r.credential = K.clear c') ∧
      ∀ cleared, (∀ c', K.clear c' = cleared) → r.credential = cleared) := by
  intro r
  refine ⟨loadSelectedFile_status sdk K d s c, fun hl => ?_, fun hl => ?_⟩
  · rcases loadSelectedFile_cases sdk K d s c with ⟨hf, _⟩ | ⟨raw, c', octets, hr, ho, hd, ha, he⟩
    · rw [hf] at hl
      cases hl
    · have hc : r.credential = { (K.decode c' octets).2 with name := selectedName sdk s c } := by
        simp only [r, he]
      refine ⟨raw, c', octets, hr, ho, hd, ha, hc, ?_⟩
      rw [hc]
      exact selectedName_chars sdk s c
  · obtain ⟨c', hc⟩ := loadSelectedFile_failed hp hl
    exact ⟨⟨c', hc⟩, fun cleared hclear => hc.trans (hclear c')⟩

def storeOf (contents : Octets) : Store :=
  let file := fileIn appDataPathPrefix ['a']
  ⟨file, fun path => if path = file then some contents else none⟩

/-- One load that succeeds under the name of its file, and one that stops in the decoder. -/
theorem loads_of_a_card :
    let prior : Credential 8 Unit := { cardWith [] with name := Name.copy 8 [] }
    let whole := loadSelectedFile lastSlash cardCodec workingLoad (storeOf (packCard textMark (cardWith []).card).2) prior
    let cut := loadSelectedFile lastSlash cardCodec workingLoad (storeOf [binaryFirstOctet]) prior
    (whole.status = .ok ∧ whole.credential.name.chars = ['a'] ∧ whole.credential.card = (cardWith []).card) ∧
    (cut.loaded = false ∧ cut.status ≠ .ok ∧ cut.credential = cardCodec.clear prior) := by
  intro prior whole cut
  have hw := loadSelectedFile_all_or_nothing lastSlash cardCodec workingLoad
    (storeOf (packCard textMark (cardWith []).card).2) prior (fileIn_ne_nil _ _)
  have hc := loadSelectedFile_all_or_nothing lastSlash cardCodec workingLoad (storeOf [binaryFirstOctet]) prior
    (fileIn_ne_nil _ _)
  have hl : whole.loaded = true := by decide
  have hf : cut.loaded = false := by decide
  refine ⟨⟨hw.1.mp hl, by decide, by decide⟩, hf, fun h => ?_, (hc.2.2 hf).2 _ fun _ => rfl⟩
  rw [hc.1.mpr h] at hf
  cases hf

/-! ## The exits -/

section Exits

variable {K : Codec n β} {d : LoadDevice} {files : Files} {c c' : Credential n β} {path : Path} {raw octets : Octets}
  {st : CodecStatus} {name : Name n}

theorem statusFor_malformed_iff : statusFor st = .malformedFile ↔ st ≠ .ok ∧ st ≠ .unsupported ∧ st ≠ .capacity := by
  cases st <;> simp [statusFor]

/-- The codec stage that ran last came back with this status, and not with `ok`. -/
inductive CodecRefuses (K : Codec n β) (d : LoadDevice) (c : Credential n β) (raw : Octets) : CodecStatus → Prop
  | parse {st : CodecStatus} : raw.headD 0 ≠ binaryFirstOctet → textCodecOpen d.plugin = true →
      (K.parse c raw).1 = st → st ≠ .ok → CodecRefuses K d c raw st
  | size {c' : Credential n β} {st : CodecStatus} : raw.headD 0 ≠ binaryFirstOctet → textCodecOpen d.plugin = true →
      K.parse c raw = (.ok, c') → (K.encodedSize c').1 = st → st ≠ .ok → CodecRefuses K d c raw st
  | encode {c' : Credential n β} {size : Nat} {st : CodecStatus} : raw.headD 0 ≠ binaryFirstOctet →
      textCodecOpen d.plugin = true → K.parse c raw = (.ok, c') → K.encodedSize c' = (.ok, size) →
      hasHeapFor d.encodeHeap size binaryLoadHeapReserve = true → d.mallocOctets = true →
      (K.encode c' size).1 = st → st ≠ .ok → CodecRefuses K d c raw st
  | decode {c' : Credential n β} {octets : Octets} {st : CodecStatus} : Octeted K d c raw c' octets →
      (K.decode c' octets).1 = st → st ≠ .ok → CodecRefuses K d c raw st

/-- The file was opened and is empty, or a codec stage took it for broken. -/
inductive Broken (K : Codec n β) (d : LoadDevice) (files : Files) (c : Credential n β) (path : Path) : Prop
  | empty : d.openRead = true → files path = some [] → Broken K d files c path
  | codec {raw : Octets} {st : CodecStatus} : Reads d files path raw → CodecRefuses K d c raw st →
      st ≠ .unsupported → st ≠ .capacity → Broken K d files c path

/-- The file decodes, to a credential whose UID no reader detects. -/
def UidRefused (K : Codec n β) (d : LoadDevice) (files : Files) (c : Credential n β) (path : Path) : Prop :=
  ∃ raw c' octets, Reads d files path raw ∧ Octeted K d c raw c' octets ∧ (K.decode c' octets).1 = .ok ∧
    K.uidIsDetectable (K.decode c' octets).2.card.uid = false

theorem readWholeFile_malformed_iff :
    readWholeFile d files path = .error .malformedFile ↔ d.openRead = true ∧ files path = some [] := by
  constructor
  · intro h
    simp only [readWholeFile] at h
    split at h
    · cases h
    rename_i contents hc
    split at h
    · rename_i hz
      by_cases ho : d.openRead = true
      · rw [if_pos ho] at hc
        exact ⟨ho, by rw [hc, List.length_eq_zero_iff.mp hz]⟩
      · rw [if_neg ho] at hc
        cases hc
    · repeat' split at h
      all_goals cases h
  · intro h
    simp [readWholeFile, h.1, h.2]

/-- A file is read as one octet string. -/
theorem Reads.unique {raw' : Octets} (h : Reads d files path raw) (h' : Reads d files path raw') : raw = raw' :=
  Option.some.inj (h.contents.symm.trans h'.contents)

theorem Octeted.unique {c'' : Credential n β} {octets' : Octets} (h : Octeted K d c raw c' octets)
    (h' : Octeted K d c raw c'' octets') : c' = c'' ∧ octets = octets' := by
  have he := (binaryOctets_ok_iff.mpr h).symm.trans (binaryOctets_ok_iff.mpr h')
  exact ⟨(Prod.mk.inj he).1, Except.ok.inj (Prod.mk.inj he).2⟩

/-- The stage that comes before the decoder and fails: no octets for the decoder. -/
theorem binaryOctets_malformed (h : binaryOctets K d c raw = (c', .error .malformedFile)) :
    ∃ st, CodecRefuses K d c raw st ∧ statusFor st = .malformedFile := by
  simp only [binaryOctets] at h
  split at h
  · cases (Prod.mk.inj h).2
  rename_i hb
  split at h
  · cases (Prod.mk.inj h).2
  rename_i hp
  have hp : textCodecOpen d.plugin = true := by simpa using hp
  split at h
  · rename_i hs
    exact ⟨_, CodecRefuses.parse hb hp rfl hs, Except.error.inj (Prod.mk.inj h).2⟩
  rename_i ht
  have ht : K.parse c raw = (.ok, (K.parse c raw).2) := Prod.ext (Classical.not_not.mp ht) rfl
  split at h
  · rename_i hs
    exact ⟨_, CodecRefuses.size hb hp ht rfl hs, Except.error.inj (Prod.mk.inj h).2⟩
  rename_i hs
  split at h
  · cases (Prod.mk.inj h).2
  rename_i hh
  split at h
  · cases (Prod.mk.inj h).2
  rename_i hm
  split at h
  · rename_i he
    exact ⟨_, CodecRefuses.encode hb hp ht (Prod.ext (Classical.not_not.mp hs) rfl) (by simpa using hh)
      (by simpa using hm) rfl he, Except.error.inj (Prod.mk.inj h).2⟩
  · cases (Prod.mk.inj h).2

theorem decodeAndCheck_malformed_iff :
    (decodeAndCheck K c octets).2 = .malformedFile ↔
      statusFor (K.decode c octets).1 = .malformedFile ∨
      ((K.decode c octets).1 = .ok ∧ K.uidIsDetectable (K.decode c octets).2.card.uid = false) := by
  simp only [decodeAndCheck]
  by_cases hd : (K.decode c octets).1 = .ok
  · rw [if_neg (fun h => h hd), hd]
    by_cases hu : K.uidIsDetectable (K.decode c octets).2.card.uid = false
    · simp [hu]
    · rw [if_neg hu]
      have hk : (statusFor .ok = .malformedFile) = False := by simp [statusFor]
      simp only [hk, false_or, true_and, hu]
      repeat' split
      all_goals simp
  · rw [if_pos hd]
    simp [hd]

/-- A stage before the decoder that fails leaves no octets to decode; or the decoder itself fails. -/
theorem CodecRefuses.stage (h : CodecRefuses K d c raw st) :
    (∃ c', binaryOctets K d c raw = (c', .error (statusFor st))) ∨
    ∃ c' octets, Octeted K d c raw c' octets ∧ (K.decode c' octets).1 = st ∧ st ≠ .ok := by
  cases h with
  | parse hb hp ht hs =>
    refine Or.inl ⟨(K.parse c raw).2, ?_⟩
    simp only [binaryOctets]
    rw [if_neg hb, if_neg (by rw [hp]; simp), if_pos (by rw [ht]; exact hs), ht]
  | @size c' _ hb hp ht hz hs =>
    refine Or.inl ⟨c', ?_⟩
    simp only [binaryOctets]
    rw [if_neg hb, if_neg (by rw [hp]; simp), ht, if_neg (by simp), if_pos (by rw [hz]; exact hs), hz]
  | @encode c' _ _ hb hp ht hz hh hm he hs =>
    refine Or.inl ⟨c', ?_⟩
    simp only [binaryOctets]
    rw [if_neg hb, if_neg (by rw [hp]; simp), ht, if_neg (by simp), hz, if_neg (by simp),
      if_neg (by rw [hh]; simp), if_neg (by rw [hm]; simp), if_pos (by rw [he]; exact hs), he]
  | @decode c' octets _ ho hd hs => exact Or.inr ⟨c', octets, ho, hd, hs⟩

theorem CodecRefuses.ne_ok (h : CodecRefuses K d c raw st) : st ≠ .ok := by
  cases h <;> assumption

/-- What a refused codec stage makes a load report. -/
theorem CodecRefuses.status (h : CodecRefuses K d c raw st) (hr : Reads d files path raw) :
    (fileLoad K d files c path name).status = statusFor st := by
  simp only [fileLoad, readWholeFile_ok_iff.mpr hr]
  rcases h.stage with ⟨c', he⟩ | ⟨c', octets, ho, hd, hs⟩
  · simp only [he]
  · simp only [binaryOctets_ok_iff.mpr ho]
    have hk : (decodeAndCheck K c' octets).2 = statusFor st := by simp [decodeAndCheck, hd, hs]
    rw [if_neg fun h => hs (statusFor_ok_iff.mp (hk.symm.trans h)), hk]

/-- A file is reported as broken when it is, and when its UID is refused. -/
theorem fileLoad_malformed_iff :
    (fileLoad K d files c path name).status = .malformedFile ↔
      Broken K d files c path ∨ UidRefused K d files c path := by
  constructor
  · intro h
    simp only [fileLoad] at h
    split at h
    · rename_i st hr
      subst h
      obtain ⟨ho, he⟩ := readWholeFile_malformed_iff.mp hr
      exact Or.inl (Broken.empty ho he)
    · rename_i raw hr
      have hreads := readWholeFile_ok_iff.mp hr
      split at h
      · rename_i c' st hb
        subst h
        obtain ⟨st, hst, hm⟩ := binaryOctets_malformed hb
        obtain ⟨_, hu, hc⟩ := statusFor_malformed_iff.mp hm
        exact Or.inl (Broken.codec hreads hst hu hc)
      · rename_i c' octets hb
        have ho := binaryOctets_ok_iff.mp hb
        have hk : (decodeAndCheck K c' octets).2 = .malformedFile := by
          split at h
          · cases h
          · exact h
        rcases decodeAndCheck_malformed_iff.mp hk with hm | ⟨hd, hu⟩
        · obtain ⟨hne, hun, hca⟩ := statusFor_malformed_iff.mp hm
          exact Or.inl (Broken.codec hreads (CodecRefuses.decode ho rfl hne) hun hca)
        · exact Or.inr ⟨raw, c', octets, hreads, ho, hd, hu⟩
  · intro h
    rcases h with h | ⟨raw, c', octets, hr, ho, hd, hu⟩
    · cases h with
      | empty ho he => simp only [fileLoad, readWholeFile_malformed_iff.mpr ⟨ho, he⟩]
      | codec hr hst hu hc =>
        rw [hst.status hr]
        exact statusFor_malformed_iff.mpr ⟨hst.ne_ok, hu, hc⟩
    · simp only [fileLoad, readWholeFile_ok_iff.mpr hr, binaryOctets_ok_iff.mpr ho]
      have hk := decodeAndCheck_malformed_iff.mpr (Or.inr ⟨hd, hu⟩)
      rw [if_neg (by rw [hk]; simp), hk]

/-- A file whose UID is refused went through every codec stage. -/
theorem UidRefused.not_broken (h : UidRefused K d files c path) : ¬Broken K d files c path := by
  obtain ⟨raw, c', octets, hr, ho, hd, _⟩ := h
  intro hb
  cases hb with
  | empty _ he => exact hr.nonempty (Option.some.inj (hr.contents.symm.trans he))
  | codec hr' hst _ _ =>
    obtain rfl := hr.unique hr'
    rcases hst.stage with ⟨c'', he⟩ | ⟨c'', octets', ho', hd', hs⟩
    · cases (Prod.mk.inj (he.symm.trans (binaryOctets_ok_iff.mpr ho))).2
    · obtain ⟨rfl, rfl⟩ := ho.unique ho'
      exact hs (hd'.symm.trans hd)

end Exits

theorem loadSelectedFile_status_eq {sdk : PathSdk} {K : Codec n β} {d : LoadDevice} {s : Store} {c : Credential n β}
    (hp : s.loadPath ≠ []) :
    (loadSelectedFile sdk K d s c).status = (fileLoad K d s.files c s.loadPath (selectedName sdk s c)).status := by
  simp only [loadSelectedFile, if_neg hp]
  split
  · rfl
  · rfl

/-- A file is reported as broken exactly when it is, in every load but those that get as far as
the UID and refuse it. -/
theorem malformed_iff_broken_iff (sdk : PathSdk) (K : Codec n β) (d : LoadDevice) (s : Store) (c : Credential n β)
    (hp : s.loadPath ≠ []) :
    ((loadSelectedFile sdk K d s c).status = .malformedFile ↔ Broken K d s.files c s.loadPath) ↔
      ¬UidRefused K d s.files c s.loadPath := by
  rw [loadSelectedFile_status_eq hp, fileLoad_malformed_iff]
  constructor
  · intro h hu
    exact hu.not_broken (h.mp (Or.inr hu))
  · intro hu
    exact ⟨fun h => h.resolve_right hu, Or.inl⟩

def foreignCard : Card Unit := ⟨[0x05, 0xA1, 0x7C, 0x6E, 0x9B, 0x2D, 0x58], [], ()⟩

/-- What the codec reads back from the compiled card. -/
theorem foreignCard_refused :
    UidRefused cardCodec workingLoad (storeOf (packCard binaryFirstOctet foreignCard).2).files (cardWith [])
      (storeOf (packCard binaryFirstOctet foreignCard).2).loadPath := by
  refine ⟨(packCard binaryFirstOctet foreignCard).2, cardWith [], _, ?_, Octeted.binary ?_, ?_, ?_⟩
  · exact ⟨rfl, by decide, by decide, by decide, by decide, rfl, by decide⟩
  · decide
  · decide
  · decide

/-- The compiled file of a card with another maker's UID goes through the decoder and is
reported as one that cannot be parsed. -/
theorem foreign_uid_reported_broken :
    let s := storeOf (packCard binaryFirstOctet foreignCard).2
    (loadSelectedFile lastSlash cardCodec workingLoad s (cardWith [])).status = .malformedFile ∧
    ¬Broken cardCodec workingLoad s.files (cardWith []) s.loadPath :=
  ⟨by decide, foreignCard_refused.not_broken⟩

/-- A compiled file cut off behind its first octet. -/
theorem cut_file_broken :
    Broken cardCodec workingLoad (storeOf [binaryFirstOctet]).files (cardWith []) (storeOf [binaryFirstOctet]).loadPath := by
  have hread : Reads workingLoad (storeOf [binaryFirstOctet]).files (storeOf [binaryFirstOctet]).loadPath [binaryFirstOctet] :=
    ⟨rfl, by decide, by decide, by decide, by decide, rfl, by decide⟩
  refine .codec hread (.decode (Octeted.binary ?_) rfl ?_) ?_ ?_
  · decide
  · decide
  · decide
  · decide

/-- The foreign card's file, and one that is broken and said to be. -/
theorem malformed_iff_broken_iff_foreign :
    let foreign := storeOf (packCard binaryFirstOctet foreignCard).2
    let cut := storeOf [binaryFirstOctet]
    (UidRefused cardCodec workingLoad foreign.files (cardWith []) foreign.loadPath ∧
      ¬((loadSelectedFile lastSlash cardCodec workingLoad foreign (cardWith [])).status = .malformedFile ↔
        Broken cardCodec workingLoad foreign.files (cardWith []) foreign.loadPath)) ∧
    (¬UidRefused cardCodec workingLoad cut.files (cardWith []) cut.loadPath ∧
      (loadSelectedFile lastSlash cardCodec workingLoad cut (cardWith [])).status = .malformedFile) := by
  intro foreign cut
  have hcut : ¬UidRefused cardCodec workingLoad cut.files (cardWith []) cut.loadPath := fun h => h.not_broken cut_file_broken
  refine ⟨⟨foreignCard_refused, fun h => ?_⟩, hcut, ?_⟩
  · exact (malformed_iff_broken_iff lastSlash cardCodec workingLoad foreign (cardWith []) (fileIn_ne_nil _ _)).mp h
      foreignCard_refused
  · exact ((malformed_iff_broken_iff lastSlash cardCodec workingLoad cut (cardWith []) (fileIn_ne_nil _ _)).mpr hcut).mpr
      cut_file_broken

end DfcFlipper.Storage
