/-
  DfcFlipper.Storage.Compile — the compiler of credentials on the host, tests/compile_dfcb.c,
  beside the load that compiles a text on the device.

  The two run the same functions of `lib/core` (`Codec`; the import plugin only hands `parse`
  on). The device goes on from the octets to a decoded credential, in the object the text was
  parsed into, and so it does from a compiled file, in whatever object it was given. Of `lib/core`
  it is assumed that neither matters (`BytesAlone`).

  `text_compiled_alike`: a text is compiled by the host exactly when the load gets past
  compiling it, to the same octets, and both files load alike.
-/

import DfcFlipper.Storage.RoundTrip

namespace DfcFlipper.Storage

open DfcFlipper.Lib.Bytes

variable {n : Nat} {β : Type}

/-! ## The compiler -/

/-- What the calls of `main` come back with. -/
structure HostDevice where
  /-- `fopen`, `fseek` and `ftell`. -/
  openInput : Bool
  mallocText : Bool
  /-- All of the file is read, and it is closed. -/
  readInput : Bool
  credentialAlloc : Bool
  mallocBinary : Bool
  openOutput : Bool
  /-- All of the output is written, and it is closed. -/
  writeOutput : Bool

def HostDevice.working : HostDevice := ⟨true, true, true, true, true, true, true⟩

/-- `main`, given an input and an output: the file it leaves when it exits with 0. -/
def compileDfcb (K : Codec n β) (h : HostDevice) (fresh : Credential n β) (text : Octets) : Option Octets :=
  if h.openInput = false then none
  else if h.mallocText = false ∨ h.readInput = false then none
  else if h.credentialAlloc = false then none
  else
    let parsed := K.parse fresh text
    if parsed.1 ≠ .ok then none
    else
      let size := K.encodedSize parsed.2
      if size.1 ≠ .ok then none
      else if h.mallocBinary = false then none
      else
        let encoded := K.encode parsed.2 size.2
        if encoded.1 ≠ .ok then none
        else if h.openOutput = false ∨ h.writeOutput = false then none
        else some encoded.2

/-! ## What is assumed -/

structure SameModel (c c' : Credential n β) : Prop where
  card : c.card = c'.card
  dirty : c.dirty = c'.dirty

/-- Parsing and decoding give a model that depends on their octets alone; the encoder and the
check of the ATS see the model alone. -/
structure BytesAlone (K : Codec n β) : Prop where
  parse : ∀ p p' raw, (K.parse p raw).1 = (K.parse p' raw).1 ∧
    ((K.parse p raw).1 = .ok → SameModel (K.parse p raw).2 (K.parse p' raw).2)
  decode : ∀ p p' octets, (K.decode p octets).1 = (K.decode p' octets).1 ∧
    ((K.decode p octets).1 = .ok → SameModel (K.decode p octets).2 (K.decode p' octets).2)
  encodes : ∀ {c c'}, SameModel c c' → K.encodedSize c = K.encodedSize c' ∧ K.encode c = K.encode c'
  judges : ∀ {c c'}, SameModel c c' → K.piccAtsIsConsistent c = K.piccAtsIsConsistent c'

def Encodes (K : Codec n β) (c : Credential n β) (octets : Octets) : Prop :=
  ∃ size, K.encodedSize c = (.ok, size) ∧ K.encode c size = (.ok, octets)

def EncodesFiles (K : Codec n β) : Prop :=
  ∀ {c octets}, Encodes K c octets → octets.headD 0 = binaryFirstOctet ∧ octets.length ≤ flipperCredentialMaxSize

structure Available (K : Codec n β) (d : LoadDevice) : Prop where
  openRead : d.openRead = true
  readHeap : ∀ size, size ≤ flipperCredentialMaxSize → hasHeapFor d.readHeap size textLoadHeapReserve = true
  mallocRaw : d.mallocRaw = true
  delivers : flipperCredentialMaxSize ≤ d.delivers
  plugin : textCodecOpen d.plugin = true
  encodeHeap : ∀ {c octets}, Encodes K c octets → hasHeapFor d.encodeHeap (K.encodedSize c).2 binaryLoadHeapReserve = true
  mallocOctets : d.mallocOctets = true

/-! ## The text stage -/

section Text

variable {K : Codec n β} {d : LoadDevice}

/-- The text is parsed and encoded, starting from the credential `c`. -/
def Compiles (K : Codec n β) (c : Credential n β) (text octets : Octets) : Prop :=
  ∃ c', K.parse c text = (.ok, c') ∧ Encodes K c' octets

theorem Encodes.congr (h : BytesAlone K) {c c' : Credential n β} (hs : SameModel c c') {octets : Octets}
    (he : Encodes K c octets) : Encodes K c' octets := by
  obtain ⟨size, hsize, henc⟩ := he
  obtain ⟨h1, h2⟩ := h.encodes hs
  exact ⟨size, by rw [← h1]; exact hsize, by rw [← h2]; exact henc⟩

/-- Where it starts from makes no difference. -/
theorem Compiles.congr (h : BytesAlone K) {p p' : Credential n β} {text octets : Octets} (hc : Compiles K p text octets) :
    Compiles K p' text octets := by
  obtain ⟨c, hp, he⟩ := hc
  obtain ⟨hst, hmodel⟩ := h.parse p p' text
  rw [hp] at hst hmodel
  exact ⟨(K.parse p' text).2, Prod.ext hst.symm rfl, he.congr h (hmodel rfl)⟩

theorem compileDfcb_iff (fresh : Credential n β) (text octets : Octets) :
    compileDfcb K .working fresh text = some octets ↔ Compiles K fresh text octets := by
  simp only [compileDfcb, HostDevice.working, Bool.true_eq_false, or_self, if_false]
  constructor
  · intro h
    split at h
    · cases h
    rename_i hp
    split at h
    · cases h
    rename_i hs
    split at h
    · cases h
    rename_i he
    refine ⟨_, Prod.ext (Classical.not_not.mp hp) rfl, ⟨_, Prod.ext (Classical.not_not.mp hs) rfl, ?_⟩⟩
    exact Prod.ext (Classical.not_not.mp he) (Option.some.inj h)
  · rintro ⟨c, hp, size, hs, he⟩
    rw [hp, if_neg (by simp), hs, if_neg (by simp), he, if_neg (by simp)]

/-- With everything there, a load of a text gets past compiling it exactly when it compiles. -/
theorem binaryOctets_compiles (hd : Available K d) {prior : Credential n β} {text : Octets}
    (ht : text.headD 0 ≠ binaryFirstOctet) (octets : Octets) :
    (binaryOctets K d prior text).2 = .ok octets ↔ Compiles K prior text octets := by
  constructor
  · intro h
    have ho : Octeted K d prior text (binaryOctets K d prior text).1 octets := binaryOctets_ok_iff.mp (Prod.ext rfl h)
    generalize (binaryOctets K d prior text).1 = c at ho
    cases ho with
    | binary hb => exact absurd hb ht
    | text _ _ hp hs _ _ he => exact ⟨_, hp, ⟨_, hs, he⟩⟩
  · rintro ⟨c, hp, hc⟩
    have hheap := hd.encodeHeap hc
    obtain ⟨size, hs, he⟩ := hc
    rw [hs] at hheap
    rw [binaryOctets_ok_iff.mpr (.text ht hd.plugin hp hs hheap hd.mallocOctets he)]

end Text

/-! ## Decoding -/

/-- A credential decoded from the same octets is judged alike, whatever it was decoded into. -/
theorem decodeAndCheck_congr {K : Codec n β} (h : BytesAlone K) (c c' : Credential n β) (octets : Octets) :
    (decodeAndCheck K c octets).2 = (decodeAndCheck K c' octets).2 ∧
      ((decodeAndCheck K c octets).2 = .ok → SameModel (decodeAndCheck K c octets).1 (decodeAndCheck K c' octets).1) := by
  obtain ⟨hst, hmodel⟩ := h.decode c c' octets
  by_cases hd : (K.decode c octets).1 = .ok
  · have hs := hmodel hd
    have hd' : (K.decode c' octets).1 = .ok := hst ▸ hd
    refine ⟨?_, fun _ => by simpa using hs⟩
    simp only [decodeAndCheck, hd, hd', h.judges hs, hs.card]
    repeat' split
    all_goals rfl
  · have hd' : ¬(K.decode c' octets).1 = .ok := hst ▸ hd
    have hno : (decodeAndCheck K c octets).2 = statusFor (K.decode c octets).1 := by
      simp only [decodeAndCheck]
      rw [if_pos hd]
    have hno' : (decodeAndCheck K c' octets).2 = statusFor (K.decode c' octets).1 := by
      simp only [decodeAndCheck]
      rw [if_pos hd']
    rw [hno, hno', hst]
    exact ⟨rfl, fun hok => absurd (statusFor_ok_iff.mp hok) hd'⟩

theorem readWholeFile_available {K : Codec n β} {d : LoadDevice} (hd : Available K d) {files : Files} {path : Path}
    {raw : Octets} (hf : files path = some raw) (hne : raw ≠ []) (hs : raw.length ≤ flipperCredentialMaxSize) :
    readWholeFile d files path = .ok raw := by
  refine readWholeFile_ok_iff.mpr ⟨hd.openRead, hf, hne, hs, ?_, hd.mallocRaw, Nat.le_trans hs hd.delivers⟩
  exact hasHeapFor_mono (loadHeapReserve_le path) (hd.readHeap _ hs)

/-- A load from its binary octets on. -/
theorem fileLoad_decode {K : Codec n β} {d : LoadDevice} {files : Files} {c c' : Credential n β} {path : Path}
    (name : Name n) {raw octets : Octets} (hr : readWholeFile d files path = .ok raw)
    (ho : binaryOctets K d c raw = (c', .ok octets)) :
    let r := fileLoad K d files c path name
    (r.loaded = true ↔ (decodeAndCheck K c' octets).2 = .ok) ∧ r.status = (decodeAndCheck K c' octets).2 ∧
      (r.loaded = true → SameModel r.credential (decodeAndCheck K c' octets).1) := by
  simp only [fileLoad, hr, ho]
  by_cases hok : (decodeAndCheck K c' octets).2 = .ok
  · rw [if_pos hok]
    exact ⟨⟨fun _ => hok, fun _ => rfl⟩, hok.symm, fun _ => ⟨rfl, rfl⟩⟩
  · rw [if_neg hok]
    exact ⟨⟨fun h => absurd h (by simp), fun h => absurd h hok⟩, rfl, fun h => absurd h (by simp)⟩

/-- A text is compiled on the host exactly when the device gets past compiling it, and to the same
octets; and the text and its compiled file load with the same result. -/
theorem text_compiled_alike {K : Codec n β} (h : BytesAlone K) (hfiles : EncodesFiles K) {dt db : LoadDevice}
    (hdt : Available K dt) (hdb : Available K db) (fresh prior prior' : Credential n β) {text : Octets} (hne : text ≠ [])
    (hsmall : text.length ≤ flipperCredentialMaxSize) (htext : text.headD 0 ≠ binaryFirstOctet) {files files' : Files}
    {path path' : Path} (hf : files path = some text) (name name' : Name n) :
    readWholeFile dt files path = .ok text ∧
    (∀ octets, compileDfcb K .working fresh text = some octets ↔ (binaryOctets K dt prior text).2 = .ok octets) ∧
    ∀ octets, compileDfcb K .working fresh text = some octets → files' path' = some octets →
      let r := fileLoad K dt files prior path name
      let r' := fileLoad K db files' prior' path' name'
      r.loaded = r'.loaded ∧ r.status = r'.status ∧ (r.loaded = true → SameModel r.credential r'.credential) := by
  have hiff : ∀ octets, compileDfcb K .working fresh text = some octets ↔ (binaryOctets K dt prior text).2 = .ok octets := by
    intro octets
    rw [compileDfcb_iff, binaryOctets_compiles hdt htext]
    exact ⟨Compiles.congr h, Compiles.congr h⟩
  have hread := readWholeFile_available hdt hf hne hsmall
  refine ⟨hread, hiff, fun octets hc hf' => ?_⟩
  obtain ⟨c, _, henc⟩ := (compileDfcb_iff fresh text octets).mp hc
  obtain ⟨hfirst, hsize⟩ := hfiles henc
  have hnil : octets ≠ [] := by
    rintro rfl
    exact absurd hfirst (by decide)
  have hread' := readWholeFile_available hdb hf' hnil hsize
  have ho' : binaryOctets K db prior' octets = (prior', .ok octets) := binaryOctets_ok_iff.mpr (.binary hfirst)
  have ho : binaryOctets K dt prior text = ((binaryOctets K dt prior text).1, .ok octets) := Prod.ext rfl ((hiff octets).mp hc)
  obtain ⟨hl, hs, hm⟩ := fileLoad_decode name hread ho
  obtain ⟨hl', hs', hm'⟩ := fileLoad_decode name' hread' ho'
  obtain ⟨hst, hsame⟩ := decodeAndCheck_congr h (binaryOctets K dt prior text).1 prior' octets
  intro r r'
  refine ⟨?_, hs.trans (hst.trans hs'.symm), fun hr => ?_⟩
  · rw [Bool.eq_iff_iff, hl, hl', hst]
  · have hok := hl.mp hr
    have h1 := hm hr
    have h2 := hm' (hl'.mpr (hst ▸ hok))
    have h3 := hsame hok
    exact ⟨h1.card.trans (h3.card.trans h2.card.symm), h1.dirty.trans (h3.dirty.trans h2.dirty.symm)⟩

/-- The small codec, which writes no more than a load reads. -/
def cappedCodec : Codec n Unit :=
  { cardCodec with
    encode := fun c _ =>
      if (packCard binaryFirstOctet c.card).2.length ≤ flipperCredentialMaxSize then packCard binaryFirstOctet c.card
      else (.capacity, []) }

theorem readCard_bytes (mark : UInt8) (p p' : Credential n Unit) (raw : Octets) :
    (readCard mark p raw).1 = (readCard mark p' raw).1 ∧
      ((readCard mark p raw).1 = .ok → SameModel (readCard mark p raw).2 (readCard mark p' raw).2) := by
  unfold readCard
  cases unpackCard mark raw with
  | none => exact ⟨rfl, fun h => absurd h (by simp)⟩
  | some k => exact ⟨rfl, fun _ => ⟨rfl, rfl⟩⟩

theorem cardCodec_bytesAlone : BytesAlone (cardCodec (n := n)) where
  parse := readCard_bytes textMark
  decode := readCard_bytes binaryFirstOctet
  encodes h := by simp only [cardCodec, h.card, and_self]
  judges h := by simp only [cardCodec, h.card]

theorem cappedCodec_bytesAlone : BytesAlone (cappedCodec (n := n)) where
  parse := cardCodec_bytesAlone.parse
  decode := cardCodec_bytesAlone.decode
  encodes h := by simp only [cappedCodec, cardCodec, h.card, and_self]
  judges := cardCodec_bytesAlone.judges

theorem cappedCodec_packs {c : Credential n Unit} {octets : Octets} (h : Encodes cappedCodec c octets) :
    packCard binaryFirstOctet c.card = (.ok, octets) ∧ octets.length ≤ flipperCredentialMaxSize := by
  obtain ⟨size, _, he⟩ := h
  simp only [cappedCodec] at he
  split at he
  · rename_i hfit
    rw [he] at hfit
    exact ⟨he, hfit⟩
  · cases (Prod.mk.inj he).1

theorem cappedCodec_encodesFiles : EncodesFiles (cappedCodec (n := n)) := by
  intro c octets h
  obtain ⟨hp, hfit⟩ := cappedCodec_packs h
  rw [(packCard_ok hp).1]
  exact ⟨rfl, by rw [← (packCard_ok hp).1]; exact hfit⟩

theorem workingLoad_available : Available (cappedCodec (n := n)) workingLoad := by
  have hheap : ∀ size r, size ≤ flipperCredentialMaxSize → r ≤ textLoadHeapReserve →
      hasHeapFor roomyHeap size r = true := by
    intro size r hs hr
    rw [hasHeapFor_iff]
    simp only [roomyHeap]
    simp only [flipperCredentialMaxSize, textLoadHeapReserve] at hs hr
    omega
  refine ⟨rfl, fun size hs => hheap size _ hs (Nat.le_refl _), rfl, Nat.le_refl _, rfl, fun {c octets} he => ?_, rfl⟩
  obtain ⟨hp, hfit⟩ := cappedCodec_packs he
  refine hheap _ _ ?_ (Nat.zero_le _)
  show (packCard binaryFirstOctet c.card).2.length ≤ _
  rw [hp]
  exact hfit

/-- The text of a card without ATS and the octets it compiles to, loaded over two different credentials. -/
theorem text_compiled_alike_plain :
    let text : Octets := [0x46, 7, 0x04, 0xA1, 0x7C, 0x6E, 0x9B, 0x2D, 0x58]
    let octets : Octets := [0x60, 7, 0x04, 0xA1, 0x7C, 0x6E, 0x9B, 0x2D, 0x58]
    let r := fileLoad cappedCodec workingLoad (fun _ => some text) (cardWith []) ['a'] (cardWith []).name
    let r' := fileLoad cappedCodec workingLoad (fun _ => some octets) (cardWith [0x05]) ['b'] (cardWith []).name
    r.loaded = r'.loaded ∧ r.status = r'.status ∧ (r.loaded = true → SameModel r.credential r'.credential) :=
  (text_compiled_alike cappedCodec_bytesAlone cappedCodec_encodesFiles workingLoad_available workingLoad_available
    (cardWith []) (cardWith []) (cardWith [0x05]) (by decide) (by decide) (by decide) rfl _ _).2.2 _ (by decide) rfl

end DfcFlipper.Storage
