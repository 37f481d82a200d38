/-
  DfcFlipper.Storage.RoundTrip — saving and loading again.

  A save judges nothing but the rendering and its size. A load also judges the UID and the
  ATS, and a card being emulated can get an ATS the load refuses. So what was saved can be
  loaded exactly when it passes the checks of a load (`saved_loads_iff`), and then it is
  the same credential.

  The codecs are parameters; `Inverse` is what is assumed of them: each reads back what it
  wrote, the encoder sees only what a file holds, and a rendered text is as long as it was
  measured and does not begin like a compiled file. `Suffices` says that heap, storage and
  plugin are there.
-/

import DfcFlipper.Storage.Load
import DfcFlipper.Storage.Save

namespace DfcFlipper.Storage

open DfcFlipper.Lib.Bytes DfcFlipper.Lib.Frame

variable {n : Nat} {β : Type}

/-! ## What is assumed -/

structure Inverse (E : TextExport n β) (K : Codec n β) : Prop where
  measured : ∀ {c text}, E.render c ((E.measure c).2 + 1) = (.ok, text) → text.length ≤ (E.measure c).2
  heading : ∀ {c text}, E.render c ((E.measure c).2 + 1) = (.ok, text) → text ≠ [] ∧ text.headD 0 ≠ binaryFirstOctet
  parse_render : ∀ {c text}, E.render c ((E.measure c).2 + 1) = (.ok, text) →
    ∀ prior, ∃ c', K.parse prior text = (.ok, c') ∧ c'.card = c.card
  decode_encode : ∀ {c size octets}, K.encodedSize c = (.ok, size) → K.encode c size = (.ok, octets) →
    ∀ prior, ∃ c', K.decode prior octets = (.ok, c') ∧ c'.card = c.card
  encodes_card : ∀ {c c' : Credential n β}, c.card = c'.card →
    K.encodedSize c = K.encodedSize c' ∧ K.encode c = K.encode c'
  judges_card : ∀ {c c' : Credential n β}, c.card = c'.card → K.piccAtsIsConsistent c = K.piccAtsIsConsistent c'

structure Suffices (K : Codec n β) (d : LoadDevice) (c : Credential n β) : Prop where
  openRead : d.openRead = true
  readHeap : ∀ size, size ≤ flipperCredentialMaxSize → hasHeapFor d.readHeap size textLoadHeapReserve = true
  mallocRaw : d.mallocRaw = true
  delivers : flipperCredentialMaxSize ≤ d.delivers
  plugin : textCodecOpen d.plugin = true
  encodeHeap : hasHeapFor d.encodeHeap (K.encodedSize c).2 binaryLoadHeapReserve = true
  mallocOctets : d.mallocOctets = true

structure Encodable (K : Codec n β) (c : Credential n β) : Prop where
  size : (K.encodedSize c).1 = .ok
  encode : (K.encode c (K.encodedSize c).2).1 = .ok

/-! ## The way back -/

section Back

variable {E : TextExport n β} {K : Codec n β} {c : Credential n β} {text : Octets}

theorem Accepted.congr (h : Inverse E K) {c' : Credential n β} (hc : c'.card = c.card) :
    Accepted K c' ↔ Accepted K c := by
  constructor
  · intro ha
    exact ⟨hc ▸ ha.uid, h.judges_card hc ▸ ha.consistent, hc ▸ ha.radio⟩
  · intro ha
    exact ⟨hc ▸ ha.uid, (h.judges_card hc).symm ▸ ha.consistent, hc ▸ ha.radio⟩

theorem loadHeapReserve_le (path : Path) : loadHeapReserve path ≤ textLoadHeapReserve := by
  unfold loadHeapReserve
  split
  · exact Nat.le_refl _
  · exact Nat.zero_le _

/-- A rendered text that was saved is read back whole. -/
theorem reads_saved (h : Inverse E K) {ds : SaveDevice} {dl : LoadDevice} (hd : Suffices K dl c)
    (hR : Renders E ds c text) {files : Files} {path : Path} (hf : files path = some text) :
    Reads dl files path text := by
  have hl : text.length ≤ flipperCredentialMaxSize := Nat.le_trans (h.measured hR.rendered) hR.small
  refine ⟨hd.openRead, hf, (h.heading hR.rendered).1, hl, ?_, hd.mallocRaw, Nat.le_trans hl hd.delivers⟩
  exact hasHeapFor_mono (loadHeapReserve_le path) (hd.readHeap _ hl)

/-- The text of an encodable credential compiles, and to octets that decode to the same card. -/
theorem compiles (h : Inverse E K) {ds : SaveDevice} {dl : LoadDevice} (hd : Suffices K dl c)
    (hR : Renders E ds c text) (he : Encodable K c) (prior : Credential n β) :
    ∃ c' octets, Octeted K dl prior text c' octets ∧ (K.decode c' octets).1 = .ok ∧
      (K.decode c' octets).2.card = c.card := by
  obtain ⟨c', hp, hc⟩ := h.parse_render hR.rendered prior
  obtain ⟨hsz, henc⟩ := h.encodes_card hc
  have hs : K.encodedSize c' = (.ok, (K.encodedSize c).2) := by
    rw [hsz]
    exact Prod.ext he.size rfl
  have ho : K.encode c' (K.encodedSize c).2 = (.ok, (K.encode c (K.encodedSize c).2).2) := by
    rw [henc]
    exact Prod.ext he.encode rfl
  obtain ⟨c'', hdec, hc''⟩ := h.decode_encode hs ho c'
  refine ⟨c', _, Octeted.text (h.heading hR.rendered).2 hd.plugin hp hs hd.encodeHeap hd.mallocOctets ho, ?_, ?_⟩
  · rw [hdec]
  · rw [hdec, hc'', hc]

/-- Whatever octets a saved text leads to, they are those of an encodable credential and
decode to its card. -/
theorem octeted_saved (h : Inverse E K) {ds : SaveDevice} {dl : LoadDevice} (hR : Renders E ds c text)
    {prior c' : Credential n β} {octets : Octets} (ho : Octeted K dl prior text c' octets) :
    Encodable K c ∧ (K.decode c' octets).2.card = c.card := by
  cases ho with
  | binary hb => exact absurd hb (h.heading hR.rendered).2
  | text hb hp ht hs hh hm he =>
    obtain ⟨c'', hpr, hc⟩ := h.parse_render hR.rendered prior
    obtain rfl : c'' = c' := congrArg Prod.snd (hpr.symm.trans ht)
    obtain ⟨hsz, henc⟩ := h.encodes_card hc
    obtain ⟨k, hdec, hk⟩ := h.decode_encode hs he c''
    rw [hsz] at hs
    rw [henc] at he
    refine ⟨⟨by rw [hs], by rw [hs, he]⟩, ?_⟩
    rw [hdec, hk, hc]

structure LoadsBack (sdk : PathSdk) (K : Codec n β) (d : LoadDevice) (s : Store) (c prior : Credential n β) :
    Prop where
  loaded : (loadSelectedFile sdk K d s prior).loaded = true ↔ Encodable K c ∧ Accepted K c
  status : (loadSelectedFile sdk K d s prior).loaded = true ↔ (loadSelectedFile sdk K d s prior).status = .ok
  card : (loadSelectedFile sdk K d s prior).loaded = true → (loadSelectedFile sdk K d s prior).credential.card = c.card
  name : (loadSelectedFile sdk K d s prior).loaded = true → prior.name = c.name → c.name.chars ≠ [] →
    (loadSelectedFile sdk K d s prior).credential.name = c.name

theorem selectedName_eq (sdk : PathSdk) (s : Store) {prior c : Credential n β} (hn : prior.name = c.name)
    (hne : c.name.chars ≠ []) : selectedName sdk s prior = c.name := by
  simp [selectedName, hn, hne]

theorem loadsBack (h : Inverse E K) (sdk : PathSdk) {ds : SaveDevice} {dl : LoadDevice} (hd : Suffices K dl c)
    (hR : Renders E ds c text) {s : Store} (hp : s.loadPath ≠ []) (hf : s.files s.loadPath = some text)
    (prior : Credential n β) : LoadsBack sdk K dl s c prior := by
  have hreads := reads_saved h hd hR hf
  have hback : (loadSelectedFile sdk K dl s prior).loaded = true →
      Encodable K c ∧ Accepted K c ∧ (loadSelectedFile sdk K dl s prior).credential.card = c.card ∧
        (loadSelectedFile sdk K dl s prior).credential.name = selectedName sdk s prior := by
    intro hl
    rcases loadSelectedFile_cases sdk K dl s prior with ⟨hf', _⟩ | ⟨raw, c', octets, hr, ho, _, ha, he⟩
    · rw [hf'] at hl; cases hl
    · obtain rfl : text = raw := Option.some.inj (hf.symm.trans hr.contents)
      obtain ⟨henc, hcard⟩ := octeted_saved h hR ho
      rw [he]
      exact ⟨henc, (Accepted.congr h hcard).mp ha, hcard, rfl⟩
  refine ⟨?_, loadSelectedFile_status sdk K dl s prior, fun hl => (hback hl).2.2.1, ?_⟩
  · constructor
    · intro hl
      exact ⟨(hback hl).1, (hback hl).2.1⟩
    · intro hpass
      rcases hpass with ⟨henc, hacc⟩
      obtain ⟨c', octets, ho, hdec, hcard⟩ := compiles h hd hR henc prior
      rw [loadSelectedFile_loaded_eq hp, fileLoad_of_stages hreads ho hdec]
      exact (Accepted.congr h hcard).mpr hacc
  · intro hl hn hne
    rw [(hback hl).2.2.2, selectedName_eq sdk s hn hne]

end Back

/-- What either save wrote is loaded again, as the same credential, exactly when the binary
codec takes it and it passes the checks of a load. -/
theorem saved_loads_iff (sdk : PathSdk) {E : TextExport n β} {K : Codec n β} (h : Inverse E K) (ds : SaveDevice)
    (dl : LoadDevice) (s : Store) (c prior : Credential n β) (hd : Suffices K dl c) (devName : Path) :
    ((credentialSave sdk E ds s c devName).saved = true →
      LoadsBack sdk K dl (credentialSave sdk E ds s c devName).store c prior) ∧
    ((credentialSaveLoaded E ds s c).saved = true →
      LoadsBack sdk K dl (credentialSaveLoaded E ds s c).store c prior) := by
  have hat : ∀ path : Path, path ≠ [] → (saveAt E ds s c path).saved = true →
      LoadsBack sdk K dl (saveAt E ds s c path).store c prior := by
    intro path hne hs
    obtain ⟨hp, _, text, hR, hf⟩ := saveAt_stored hs
    exact loadsBack h sdk hd hR (by rw [hp]; exact hne) hf prior
  refine ⟨hat _ (savePath_ne_nil sdk s.loadPath devName), fun hs => ?_⟩
  have hp := loadPath_ne_nil_of_saved hs
  have he := credentialSaveLoaded_eq hs
  rw [he] at hs ⊢
  exact hat _ (textPath_ne_nil hp) hs

/-! ## A codec -/

/-- A card as octets: a mark, the length of the UID, the UID, the ATS. -/
def packCard (mark : UInt8) (k : Card Unit) : CodecStatus × Octets :=
  if k.uid.length < 256 then (.ok, mark :: UInt8.ofNat k.uid.length :: (k.uid ++ k.piccAts)) else (.capacity, [])

def unpackCard (mark : UInt8) : Octets → Option (Card Unit)
  | m :: l :: rest => if m = mark then some ⟨rest.take l.toNat, rest.drop l.toNat, ()⟩ else none
  | _ => none

def readCard (mark : UInt8) (prior : Credential n Unit) (raw : Octets) : CodecStatus × Credential n Unit :=
  match unpackCard mark raw with
  | some k => (.ok, { prior with card := k, dirty := false })
  | none => (.malformed, prior)

theorem packCard_ok {mark : UInt8} {k : Card Unit} {octets : Octets} (h : packCard mark k = (.ok, octets)) :
    octets = mark :: UInt8.ofNat k.uid.length :: (k.uid ++ k.piccAts) ∧ unpackCard mark octets = some k := by
  unfold packCard at h
  split at h
  · rename_i hl
    obtain rfl := (Prod.mk.inj h).2
    have ht : (UInt8.ofNat k.uid.length).toNat = k.uid.length := by simp; omega
    refine ⟨rfl, ?_⟩
    rw [unpackCard, if_pos rfl, ht, List.take_left, List.drop_left]
  · cases (Prod.mk.inj h).1

theorem readCard_pack {mark : UInt8} {k : Card Unit} {octets : Octets} (h : packCard mark k = (.ok, octets))
    (prior : Credential n Unit) : ∃ c', readCard mark prior octets = (.ok, c') ∧ c'.card = k :=
  ⟨{ prior with card := k, dirty := false }, by rw [readCard, (packCard_ok h).2], rfl⟩

/-- The text of a card begins with `F`, as in `Filetype:`. -/
def textMark : UInt8 := 0x46

def cardExport : TextExport n Unit where
  measure c := (.capacity, (packCard textMark c.card).2.length)
  render c _ := packCard textMark c.card

def cardCodec : Codec n Unit where
  parse := readCard textMark
  encodedSize c := ((packCard binaryFirstOctet c.card).1, (packCard binaryFirstOctet c.card).2.length)
  encode c _ := packCard binaryFirstOctet c.card
  decode := readCard binaryFirstOctet
  uidIsDetectable uid := uid.length == 7 && uid.headD 0 == 0x04
  piccAtsIsConsistent c := c.card.piccAts.isEmpty || (c.card.piccAts.headD 0).toNat == c.card.piccAts.length
  clear _ := ⟨Name.copy n [], ⟨[], [], ()⟩, false⟩

theorem cardCodec_inverse : Inverse (n := n) cardExport cardCodec where
  measured {c text} h := by
    have ht : (packCard textMark c.card).2 = text := congrArg Prod.snd h
    exact Nat.le_of_eq (congrArg List.length ht.symm)
  heading {c text} h := by
    rw [(packCard_ok h).1]
    exact ⟨List.cons_ne_nil _ _, by simp [textMark, binaryFirstOctet]⟩
  parse_render h prior := readCard_pack h prior
  decode_encode _ he prior := readCard_pack he prior
  encodes_card h := by simp only [cardCodec, h, and_self]
  judges_card h := by simp only [cardCodec, h]

def roomyHeap : Heap := ⟨64 * 1024, 32 * 1024⟩

def workingLoad : LoadDevice := ⟨true, roomyHeap, true, flipperCredentialMaxSize, .working, roomyHeap, true⟩

theorem workingLoad_suffices {c : Credential n Unit}
    (h : (packCard binaryFirstOctet c.card).2.length ≤ flipperCredentialMaxSize) :
    Suffices cardCodec workingLoad c := by
  have hheap : ∀ size r, size ≤ flipperCredentialMaxSize → r ≤ textLoadHeapReserve →
      hasHeapFor roomyHeap size r = true := by
    intro size r hs hr
    rw [hasHeapFor_iff]
    simp only [roomyHeap]
    simp only [flipperCredentialMaxSize, textLoadHeapReserve] at hs hr
    omega
  exact ⟨rfl, fun size hs => hheap size _ hs (Nat.le_refl _), rfl, Nat.le_refl _, rfl,
    hheap _ _ h (Nat.zero_le _), rfl⟩

def cardWith (ats : Octets) : Credential 8 Unit :=
  ⟨⟨['a'], by decide⟩, ⟨[0x04, 0xA1, 0x7C, 0x6E, 0x9B, 0x2D, 0x58], ats, ()⟩, true⟩

def emptyStore : Store := ⟨[], fun _ => none⟩

theorem plain_card_loads_back :
    (credentialSave lastSlash cardExport (workingSave 64) emptyStore (cardWith []) ['a']).saved = true ∧
    LoadsBack lastSlash cardCodec workingLoad
      (credentialSave lastSlash cardExport (workingSave 64) emptyStore (cardWith []) ['a']).store
      (cardWith []) (cardWith []) :=
  ⟨by decide, (saved_loads_iff lastSlash cardCodec_inverse (workingSave 64) workingLoad emptyStore (cardWith [])
    (cardWith []) (workingLoad_suffices (by decide)) ['a']).1 (by decide)⟩

/-- A card whose ATS offers 848 kbit/s, which a reader may set while it is emulated, is saved
and cannot be loaded. -/
theorem fast_card_strands :
    let c := cardWith [0x06, 0x75, 0x77, 0x81, 0x02, 0x80]
    let r := credentialSave lastSlash cardExport (workingSave 64) emptyStore c ['a']
    Inverse (n := 8) cardExport cardCodec ∧ Suffices cardCodec workingLoad c ∧ r.saved = true ∧
    (loadSelectedFile lastSlash cardCodec workingLoad r.store r.credential).loaded = false ∧
    (loadSelectedFile lastSlash cardCodec workingLoad r.store r.credential).status = .unsupportedFormat :=
  ⟨cardCodec_inverse, workingLoad_suffices (by decide), by decide, by decide, by decide⟩

end DfcFlipper.Storage
