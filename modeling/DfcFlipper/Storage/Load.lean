/-
  DfcFlipper.Storage.Load — `dfc_credential_read_whole_file`, `dfc_credential_file_load` and
  `dfc_credential_load_selected_file` (dfc_credential_storage.c).

  The import plugin, the binary codec and the credential checks of `lib/core` are one
  parameter (`Codec`); what each call of a load comes back with is another (`LoadDevice`).
  A load goes through three stages, each its own definition: the octets of the file
  (`readWholeFile`), the binary encoding of it (`binaryOctets`: the octets themselves, or
  the text compiled), and the credential decoded and judged (`decodeAndCheck`).

  Every exit sets the status or keeps the `MalformedFile` the load started with; each stage
  returns the status its exit leaves.

  - `loadSelectedFile_cases`: a load succeeds exactly when every stage does, and leaves the
    decoded credential under the selected name.
  - `loadSelectedFile_status`: a load returns true exactly when its status is `Ok`.
-/

import DfcFlipper.Storage.Core

namespace DfcFlipper.Storage

open DfcFlipper.Lib.Bytes

variable {n : Nat} {β : Type}

/-! ## Statuses -/

/-- `DfcCredentialLoadStatus`. -/
inductive LoadStatus where
  | ok
  | openFailed
  | unsupportedFormat
  | malformedFile
  | unsupportedAuthMode
  | codecUnavailable
  | capacity
  deriving DecidableEq

/-- `dfc_credential_status_for`. -/
def statusFor : CodecStatus → LoadStatus
  | .ok => .ok
  | .unsupported => .unsupportedFormat
  | .capacity => .capacity
  | .malformed => .malformedFile
  | .other _ => .malformedFile

theorem statusFor_ok_iff {st : CodecStatus} : statusFor st = .ok ↔ st = .ok := by
  cases st <;> simp [statusFor]

/-! ## The checks -/

structure Heap where
  free : Nat
  largest : Nat

/-- `dfc_credential_has_heap_for`. -/
def hasHeapFor (h : Heap) (allocation reserve : Nat) : Bool :=
  allocation ≤ h.largest && allocation ≤ h.free && reserve ≤ h.free - allocation

theorem hasHeapFor_iff {h : Heap} {allocation reserve : Nat} :
    hasHeapFor h allocation reserve = true ↔
      allocation ≤ h.largest ∧ allocation ≤ h.free ∧ reserve ≤ h.free - allocation := by
  simp only [hasHeapFor, Bool.and_eq_true, decide_eq_true_eq, and_assoc]

theorem hasHeapFor_mono {h : Heap} {allocation r r' : Nat} (hr : r' ≤ r) (hh : hasHeapFor h allocation r = true) :
    hasHeapFor h allocation r' = true := by
  obtain ⟨hl, hf, hres⟩ := hasHeapFor_iff.mp hh
  exact hasHeapFor_iff.mpr ⟨hl, hf, Nat.le_trans hr hres⟩

/-- `DFC_BINARY_FIRST_OCTET`. -/
def binaryFirstOctet : UInt8 := 0x60

/-- `DFC_BINARY_LOAD_HEAP_RESERVE`. -/
def binaryLoadHeapReserve : Nat := 0

/-- `DFC_TEXT_LOAD_HEAP_RESERVE`. -/
def textLoadHeapReserve : Nat := 2 * 1024

/-- `is_text ? DFC_TEXT_LOAD_HEAP_RESERVE : DFC_BINARY_LOAD_HEAP_RESERVE`. -/
def loadHeapReserve (path : Path) : Nat :=
  if endWith path appExtension then textLoadHeapReserve else binaryLoadHeapReserve

/-- `dfc_credential_ats_is_radio_supported`, of the ATS octets. -/
def atsIsRadioSupported (ats : Octets) : Bool :=
  let length := ats.length
  if length = 0 then true
  else if length < 2 ∨ (ats.getD 0 0).toNat ≠ length then false
  else
    let t0 := ats.getD 1 0
    if t0 &&& 0x0F ≠ 5 then false
    -- TA(1): 106 kbit/s only
    else if t0 &&& 0x10 ≠ 0 ∧ (2 ≥ length ∨ ats.getD 2 0 ≠ 0) then false
    else
      let offset := if t0 &&& 0x10 ≠ 0 then 3 else 2
      -- TB(1): a frame wait time of at least 8
      if t0 &&& 0x20 = 0 then false
      else if offset ≥ length ∨ ats.getD offset 0 >>> 4 < 8 then false
      else
        let offset := offset + 1
        -- TC(1): no NAD
        if t0 &&& 0x40 ≠ 0 ∧ (offset ≥ length ∨ ats.getD offset 0 &&& 0x01 ≠ 0) then false else true

/-- The import plugin and the functions of `lib/core` a load calls. -/
structure Codec (n : Nat) (β : Type) where
  /-- `parse` of the plugin: it writes the credential, whatever its status. -/
  parse : Credential n β → Octets → CodecStatus × Credential n β
  /-- `dfc_der_encoded_size`. -/
  encodedSize : Credential n β → CodecStatus × Nat
  /-- `dfc_der_encode`, with the size of the buffer. -/
  encode : Credential n β → Nat → CodecStatus × Octets
  /-- `dfc_der_decode`. -/
  decode : Credential n β → Octets → CodecStatus × Credential n β
  /-- `dfc_desfire_uid_is_detectable`. -/
  uidIsDetectable : Octets → Bool
  /-- `dfc_credential_picc_ats_is_consistent`. -/
  piccAtsIsConsistent : Credential n β → Bool
  /-- `dfc_credential_clear`. -/
  clear : Credential n β → Credential n β

structure LoadDevice where
  openRead : Bool
  readHeap : Heap
  mallocRaw : Bool
  /-- The octets `storage_file_read` delivers at most. -/
  delivers : Nat
  plugin : PluginDevice
  encodeHeap : Heap
  mallocOctets : Bool

/-! ## The functions -/

/-- `dfc_credential_read_whole_file`. -/
def readWholeFile (d : LoadDevice) (files : Files) (path : Path) : Except LoadStatus Octets :=
  match (if d.openRead then files path else none) with
  | none => .error .openFailed
  | some contents =>
    let size := contents.length
    if size = 0 then .error .malformedFile
    else if size > flipperCredentialMaxSize then .error .capacity
    else if hasHeapFor d.readHeap size (loadHeapReserve path) = false then .error .capacity
    else if d.mallocRaw = false then .error .capacity
    else
      let buffer := contents.take d.delivers
      if buffer.length ≠ size then .error .openFailed else .ok buffer

/-- `dfc_credential_file_load`, up to the binary octets: those of the file, or its text
parsed and encoded. -/
def binaryOctets (K : Codec n β) (d : LoadDevice) (c : Credential n β) (raw : Octets) :
    Credential n β × Except LoadStatus Octets :=
  if raw.headD 0 = binaryFirstOctet then (c, .ok raw)
  else if textCodecOpen d.plugin = false then (c, .error .codecUnavailable)
  else
    let parsed := K.parse c raw
    if parsed.1 ≠ .ok then (parsed.2, .error (statusFor parsed.1))
    else
      let size := K.encodedSize parsed.2
      if size.1 ≠ .ok then (parsed.2, .error (statusFor size.1))
      else if hasHeapFor d.encodeHeap size.2 binaryLoadHeapReserve = false then (parsed.2, .error .capacity)
      else if d.mallocOctets = false then (parsed.2, .error .capacity)
      else
        let encoded := K.encode parsed.2 size.2
        if encoded.1 ≠ .ok then (parsed.2, .error (statusFor encoded.1)) else (parsed.2, .ok encoded.2)

/-- `dfc_credential_file_load`, from the binary octets on. -/
def decodeAndCheck (K : Codec n β) (c : Credential n β) (octets : Octets) : Credential n β × LoadStatus :=
  let decoded := K.decode c octets
  if decoded.1 ≠ .ok then (decoded.2, statusFor decoded.1)
  -- this exit leaves the status the load started with
  else if K.uidIsDetectable decoded.2.card.uid = false then (decoded.2, .malformedFile)
  else if K.piccAtsIsConsistent decoded.2 = false then (decoded.2, .unsupportedFormat)
  else if atsIsRadioSupported decoded.2.card.piccAts = false then (decoded.2, .unsupportedFormat)
  else (decoded.2, .ok)

structure Loading (n : Nat) (β : Type) where
  loaded : Bool
  status : LoadStatus
  credential : Credential n β

/-- `dfc_credential_file_load`. -/
def fileLoad (K : Codec n β) (d : LoadDevice) (files : Files) (c : Credential n β) (path : Path)
    (selectedName : Name n) : Loading n β :=
  match readWholeFile d files path with
  | .error st => ⟨false, st, c⟩
  | .ok raw =>
    match binaryOctets K d c raw with
    | (c', .error st) => ⟨false, st, K.clear c'⟩
    | (c', .ok octets) =>
      let checked := decodeAndCheck K c' octets
      if checked.2 = .ok then ⟨true, .ok, { checked.1 with name := Name.copy n selectedName.chars }⟩
      else ⟨false, checked.2, K.clear checked.1⟩

def selectedName (sdk : PathSdk) (s : Store) (c : Credential n β) : Name n :=
  let name := Name.copy n c.name.chars
  if name.chars = [] then Name.copy n (sdk.extractFilename s.loadPath) else name

/-- `dfc_credential_load_selected_file`. -/
def loadSelectedFile (sdk : PathSdk) (K : Codec n β) (d : LoadDevice) (s : Store) (c : Credential n β) : Loading n β :=
  if s.loadPath = [] then ⟨false, .openFailed, c⟩
  else
    let r := fileLoad K d s.files c s.loadPath (selectedName sdk s c)
    if r.loaded then r else { r with credential := K.clear r.credential }

/-! ## When a load succeeds -/

section Stages

variable {K : Codec n β} {d : LoadDevice} {files : Files} {c : Credential n β} {path : Path}

structure Reads (d : LoadDevice) (files : Files) (path : Path) (raw : Octets) : Prop where
  opened : d.openRead = true
  contents : files path = some raw
  nonempty : raw ≠ []
  small : raw.length ≤ flipperCredentialMaxSize
  heap : hasHeapFor d.readHeap raw.length (loadHeapReserve path) = true
  buffer : d.mallocRaw = true
  whole : raw.length ≤ d.delivers

theorem readWholeFile_ok_iff {raw : Octets} : readWholeFile d files path = .ok raw ↔ Reads d files path raw := by
  constructor
  · intro h
    simp only [readWholeFile] at h
    split at h
    · cases h
    rename_i contents hc
    split at h
    · cases h
    rename_i hz
    split at h
    · cases h
    rename_i hs
    split at h
    · cases h
    rename_i hh
    split at h
    · cases h
    rename_i hb
    split at h
    · cases h
    rename_i hr
    have ho : d.openRead = true := by
      by_cases ho : d.openRead = true
      · exact ho
      · rw [if_neg ho] at hc; cases hc
    have hl : contents.length ≤ d.delivers := by
      rw [List.length_take] at hr
      omega
    obtain rfl : contents = raw := by
      rw [List.take_of_length_le hl] at h
      exact Except.ok.inj h
    rw [if_pos ho] at hc
    exact ⟨ho, hc, fun he => hz (by rw [he]; rfl), by omega, by simpa using hh, by simpa using hb, hl⟩
  · intro h
    have hz : raw.length ≠ 0 := fun he => h.nonempty (List.length_eq_zero_iff.mp he)
    have hs : ¬raw.length > flipperCredentialMaxSize := by have := h.small; omega
    simp only [readWholeFile, h.opened, if_true, h.contents]
    rw [if_neg hz, if_neg hs, if_neg (by rw [h.heap]; simp), if_neg (by rw [h.buffer]; simp),
      List.take_of_length_le h.whole, if_neg (by simp)]

/-- The ways to the binary octets of a credential: they are the file, or its text compiled. -/
inductive Octeted (K : Codec n β) (d : LoadDevice) (c : Credential n β) (raw : Octets) :
    Credential n β → Octets → Prop
  | binary : raw.headD 0 = binaryFirstOctet → Octeted K d c raw c raw
  | text {c' : Credential n β} {size : Nat} {octets : Octets} :
      raw.headD 0 ≠ binaryFirstOctet → textCodecOpen d.plugin = true → K.parse c raw = (.ok, c') →
      K.encodedSize c' = (.ok, size) → hasHeapFor d.encodeHeap size binaryLoadHeapReserve = true →
      d.mallocOctets = true → K.encode c' size = (.ok, octets) → Octeted K d c raw c' octets

theorem binaryOctets_ok_iff {raw octets : Octets} {c' : Credential n β} :
    binaryOctets K d c raw = (c', .ok octets) ↔ Octeted K d c raw c' octets := by
  constructor
  · intro h
    simp only [binaryOctets] at h
    split at h
    · rename_i hb
      obtain ⟨rfl, he⟩ := Prod.mk.inj h
      obtain rfl := Except.ok.inj he
      exact Octeted.binary hb
    rename_i hb
    split at h
    · cases (Prod.mk.inj h).2
    rename_i hp
    split at h
    · cases (Prod.mk.inj h).2
    rename_i ht
    split at h
    · cases (Prod.mk.inj h).2
    rename_i hs
    split at h
    · cases (Prod.mk.inj h).2
    rename_i hh
    split at h
    · cases (Prod.mk.inj h).2
    rename_i hm
    split at h
    · cases (Prod.mk.inj h).2
    rename_i he
    obtain ⟨rfl, ho⟩ := Prod.mk.inj h
    obtain rfl := Except.ok.inj ho
    exact Octeted.text hb (by simpa using hp) (Prod.ext (Classical.not_not.mp ht) rfl)
      (Prod.ext (Classical.not_not.mp hs) rfl) (by simpa using hh) (by simpa using hm)
      (Prod.ext (Classical.not_not.mp he) rfl)
  · intro h
    cases h with
    | binary hb => rw [binaryOctets, if_pos hb]
    | text hb hp ht hs hh hm he =>
      simp only [binaryOctets]
      rw [if_neg hb, if_neg (by rw [hp]; simp), ht, if_neg (by simp), hs, if_neg (by simp),
        if_neg (by rw [hh]; simp), if_neg (by rw [hm]; simp), he, if_neg (by simp)]

/-- A stage that fails leaves a status of its own. -/
theorem readWholeFile_error {st : LoadStatus} (h : readWholeFile d files path = .error st) : st ≠ .ok := by
  simp only [readWholeFile] at h
  rintro rfl
  repeat' split at h
  all_goals cases h

theorem binaryOctets_error {raw : Octets} {c' : Credential n β} {st : LoadStatus}
    (h : binaryOctets K d c raw = (c', .error st)) : st ≠ .ok := by
  simp only [binaryOctets] at h
  rintro rfl
  repeat' split at h
  all_goals
    have he := (Prod.mk.inj h).2
    first
    | cases he
    | (rename_i hs; exact hs (statusFor_ok_iff.mp (Except.error.inj he)))

structure Accepted (K : Codec n β) (c : Credential n β) : Prop where
  uid : K.uidIsDetectable c.card.uid = true
  consistent : K.piccAtsIsConsistent c = true
  radio : atsIsRadioSupported c.card.piccAts = true

theorem decodeAndCheck_ok_iff {octets : Octets} :
    (decodeAndCheck K c octets).2 = .ok ↔
      (K.decode c octets).1 = .ok ∧ Accepted K (K.decode c octets).2 := by
  constructor
  · intro h
    simp only [decodeAndCheck] at h
    split at h
    · rename_i hd; exact absurd (statusFor_ok_iff.mp h) hd
    rename_i hd
    split at h
    · cases h
    rename_i hu
    split at h
    · cases h
    rename_i hc
    split at h
    · cases h
    rename_i hr
    exact ⟨Classical.not_not.mp hd, by simpa using hu, by simpa using hc, by simpa using hr⟩
  · intro h
    rcases h with ⟨hd, hu, hc, hr⟩
    simp [decodeAndCheck, hd, hu, hc, hr]

@[simp] theorem decodeAndCheck_credential (octets : Octets) :
    (decodeAndCheck K c octets).1 = (K.decode c octets).2 := by
  simp only [decodeAndCheck]
  repeat' split
  all_goals rfl

end Stages

/-- A load fails at some stage with a status of that stage and a cleared credential, or
succeeds at all of them and leaves the decoded credential under the selected name. -/
theorem fileLoad_cases (K : Codec n β) (d : LoadDevice) (files : Files) (c : Credential n β) (path : Path)
    (name : Name n) :
    ((fileLoad K d files c path name).loaded = false ∧ (fileLoad K d files c path name).status ≠ .ok) ∨
    ∃ raw c' octets, Reads d files path raw ∧ Octeted K d c raw c' octets ∧ (K.decode c' octets).1 = .ok ∧
      Accepted K (K.decode c' octets).2 ∧
      fileLoad K d files c path name = ⟨true, .ok, { (K.decode c' octets).2 with name := name }⟩ := by
  simp only [fileLoad]
  split
  · rename_i st hr
    exact Or.inl ⟨rfl, readWholeFile_error hr⟩
  · rename_i raw hr
    split
    · rename_i c' st hb
      exact Or.inl ⟨rfl, binaryOctets_error hb⟩
    · rename_i c' octets hb
      by_cases hk : (decodeAndCheck K c' octets).2 = .ok
      · have hd := decodeAndCheck_ok_iff.mp hk
        refine Or.inr ⟨raw, c', octets, readWholeFile_ok_iff.mp hr, binaryOctets_ok_iff.mp hb, hd.1, hd.2, ?_⟩
        rw [if_pos hk, Name.copy_self, decodeAndCheck_credential]
      · rw [if_neg hk]
        exact Or.inl ⟨rfl, hk⟩

/-- The stages run: when each of them succeeds, so does the load. -/
theorem fileLoad_of_stages {K : Codec n β} {d : LoadDevice} {files : Files} {c c' : Credential n β} {path : Path}
    {name : Name n} {raw octets : Octets} (hr : Reads d files path raw) (ho : Octeted K d c raw c' octets)
    (hd : (K.decode c' octets).1 = .ok) :
    (fileLoad K d files c path name).loaded = true ↔ Accepted K (K.decode c' octets).2 := by
  simp only [fileLoad, readWholeFile_ok_iff.mpr hr, binaryOctets_ok_iff.mpr ho]
  have hk : (decodeAndCheck K c' octets).2 = .ok ↔
      (K.decode c' octets).1 = .ok ∧ Accepted K (K.decode c' octets).2 := decodeAndCheck_ok_iff
  by_cases ha : (decodeAndCheck K c' octets).2 = .ok
  · rw [if_pos ha]
    exact ⟨fun _ => (hk.mp ha).2, fun _ => rfl⟩
  · rw [if_neg ha]
    exact ⟨fun h => absurd h (by simp), fun h => absurd (hk.mpr ⟨hd, h⟩) ha⟩

theorem loadSelectedFile_loaded_eq {sdk : PathSdk} {K : Codec n β} {d : LoadDevice} {s : Store} {c : Credential n β}
    (hp : s.loadPath ≠ []) :
    (loadSelectedFile sdk K d s c).loaded = (fileLoad K d s.files c s.loadPath (selectedName sdk s c)).loaded := by
  simp only [loadSelectedFile, if_neg hp]
  split
  · rfl
  · rfl

theorem loadSelectedFile_cases (sdk : PathSdk) (K : Codec n β) (d : LoadDevice) (s : Store) (c : Credential n β) :
    ((loadSelectedFile sdk K d s c).loaded = false ∧ (loadSelectedFile sdk K d s c).status ≠ .ok) ∨
    ∃ raw c' octets, Reads d s.files s.loadPath raw ∧ Octeted K d c raw c' octets ∧ (K.decode c' octets).1 = .ok ∧
      Accepted K (K.decode c' octets).2 ∧
      loadSelectedFile sdk K d s c = ⟨true, .ok, { (K.decode c' octets).2 with name := selectedName sdk s c }⟩ := by
  by_cases hp : s.loadPath = []
  · simp only [loadSelectedFile, if_pos hp]
    exact Or.inl ⟨trivial, by simp⟩
  · simp only [loadSelectedFile, if_neg hp]
    rcases fileLoad_cases K d s.files c s.loadPath (selectedName sdk s c) with ⟨hl, hs⟩ | ⟨raw, c', o, hr, ho, hd, ha, he⟩
    · rw [hl]
      exact Or.inl ⟨by simp, by simpa using hs⟩
    · rw [he]
      exact Or.inr ⟨raw, c', o, hr, ho, hd, ha, by simp⟩

/-- A load returns true exactly when its status is `Ok`. -/
theorem loadSelectedFile_status (sdk : PathSdk) (K : Codec n β) (d : LoadDevice) (s : Store) (c : Credential n β) :
    (loadSelectedFile sdk K d s c).loaded = true ↔ (loadSelectedFile sdk K d s c).status = .ok := by
  rcases loadSelectedFile_cases sdk K d s c with ⟨hl, hs⟩ | ⟨_, _, _, _, _, _, _, he⟩
  · rw [hl]
    exact ⟨fun h => absurd h (by simp), fun h => absurd h hs⟩
  · rw [he]
    exact ⟨fun _ => rfl, fun _ => rfl⟩

end DfcFlipper.Storage
