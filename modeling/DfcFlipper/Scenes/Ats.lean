/-
  DfcFlipper.Scenes.Ats — `dfc_set_listener_ats` (dfc_scene_emulate.c): an ATS unpacked into the
  listener's fields.

  The load judges the same octets (`atsIsRadioSupported`), with offsets of its own and against
  the number of octets there are; the unpacking goes by the length octet, and takes a field that
  is cut off for absent. Reads are checked: `setListenerAts` is `none` where the code would
  read past the octets, or copy a negative number of them.

  `ats_unpacked`: it never does, on any octets; and an ATS that the load accepts is unpacked
  without loss, each field holding the value that was judged.
-/

import DfcFlipper.Storage.Load

namespace DfcFlipper.Scenes

open DfcFlipper.Lib.Bytes DfcFlipper.Storage

/-! ## Unpacking -/

/-- `ats_data` of `Iso14443_4aData`. -/
structure AtsData where
  tl : UInt8
  t0 : UInt8
  ta1 : UInt8
  tb1 : UInt8
  tc1 : UInt8
  t1Tk : Octets
  deriving DecidableEq, Repr

def AtsData.zero : AtsData := ⟨0, 0, 0, 0, 0, []⟩

/-- `if(present && i < declared) field = ats[i++];`, on a field that was reset. -/
def readField (present : Bool) (ats : Octets) (declared i : Nat) : Option (UInt8 × Nat) :=
  if present = true ∧ i < declared then ats[i]?.map fun b => (b, i + 1) else some (0, i)

/-- `dfc_set_listener_ats`, from the octets that are declared on. -/
def setDeclaredAts (ats : Octets) (tl : UInt8) (declared : Nat) : Option AtsData := do
  let (t0, i) ← readField true ats declared 1
  let (ta1, i) ← readField (t0 &&& 0x10 != 0) ats declared i
  let (tb1, i) ← readField (t0 &&& 0x20 != 0) ats declared i
  let (tc1, i) ← readField (t0 &&& 0x40 != 0) ats declared i
  if declared < i then some ⟨tl, t0, ta1, tb1, tc1, []⟩
  else
    let historicalLen ← checkedSub declared i
    let t1Tk ← slice ats i historicalLen
    some ⟨tl, t0, ta1, tb1, tc1, t1Tk⟩

/-- `dfc_set_listener_ats`. -/
def setListenerAts (ats : Octets) : Option AtsData :=
  if ats.length = 0 then some .zero
  else do
    let tl ← ats[0]?
    setDeclaredAts ats tl (if tl.toNat > ats.length then ats.length else tl.toNat)

/-- The octets of the fields, the interface bytes that T0 announces among them. -/
def AtsData.writeOut (d : AtsData) : Octets :=
  [d.tl] ++ ([d.t0] ++ ((if d.t0 &&& 0x10 != 0 then [d.ta1] else []) ++
    ((if d.t0 &&& 0x20 != 0 then [d.tb1] else []) ++ ((if d.t0 &&& 0x40 != 0 then [d.tc1] else []) ++ d.t1Tk))))

example : setListenerAts [0x06, 0x75, 0x00, 0x81, 0x02, 0x80] = some ⟨0x06, 0x75, 0x00, 0x81, 0x02, [0x80]⟩ ∧
    setListenerAts [0x00, 0x75] = some .zero ∧ setListenerAts [0x09, 0x75] = some ⟨0x09, 0x75, 0, 0, 0, []⟩ := by decide

/-! ## Reads in bounds -/

/-- A field within what is declared is read within the octets, or left out. -/
theorem readField_some (present : Bool) {ats : Octets} {declared : Nat} (hd : declared ≤ ats.length) (i : Nat) :
    ∃ b j, readField present ats declared i = some (b, j) ∧ j ≤ max i declared := by
  unfold readField
  by_cases h : present = true ∧ i < declared
  · rw [if_pos h, List.getElem?_eq_getElem (show i < ats.length by omega)]
    exact ⟨_, _, rfl, by omega⟩
  · rw [if_neg h]
    exact ⟨_, _, rfl, by omega⟩

theorem setDeclaredAts_isSome {ats : Octets} {declared : Nat} (hd : declared ≤ ats.length) (tl : UInt8) :
    (setDeclaredAts ats tl declared).isSome = true := by
  obtain ⟨t0, i0, h0, hi0⟩ := readField_some true hd 1
  obtain ⟨ta1, i1, h1, hi1⟩ := readField_some (t0 &&& 0x10 != 0) hd i0
  obtain ⟨tb1, i2, h2, hi2⟩ := readField_some (t0 &&& 0x20 != 0) hd i1
  obtain ⟨tc1, i3, h3, hi3⟩ := readField_some (t0 &&& 0x40 != 0) hd i2
  simp only [setDeclaredAts, Option.bind_eq_bind, h0, h1, h2, h3, Option.bind_some]
  by_cases hlt : declared < i3
  · rw [if_pos hlt]
    rfl
  · rw [if_neg hlt, checkedSub_eq (by omega), Option.bind_some, slice, if_pos (by omega)]
    rfl

/-- No read past the octets, and no negative number of historical bytes, on any octets. -/
theorem setListenerAts_isSome (ats : Octets) : (setListenerAts ats).isSome = true := by
  unfold setListenerAts
  by_cases h0 : ats.length = 0
  · rw [if_pos h0]
    rfl
  · rw [if_neg h0, List.getElem?_eq_getElem (show 0 < ats.length by omega)]
    refine setDeclaredAts_isSome ?_ ats[0]
    split <;> omega

/-! ## Accepted octets -/

/-- The values the load judges, at the offsets it finds them. -/
structure Judged where
  fsci : UInt8
  ta1 : UInt8
  fwi : UInt8
  nad : UInt8
  deriving DecidableEq, Repr

def tbOffset (t0 : UInt8) : Nat := if t0 &&& 0x10 ≠ 0 then 3 else 2

def judged (ats : Octets) : Judged :=
  let t0 := ats.getD 1 0
  { fsci := t0 &&& 0x0F
    ta1 := if t0 &&& 0x10 ≠ 0 then ats.getD 2 0 else 0
    fwi := ats.getD (tbOffset t0) 0 >>> 4
    nad := if t0 &&& 0x40 ≠ 0 then ats.getD (tbOffset t0 + 1) 0 &&& 0x01 else 0 }

def AtsData.judged (d : AtsData) : Judged := ⟨d.t0 &&& 0x0F, d.ta1, d.tb1 >>> 4, d.tc1 &&& 0x01⟩

/-- The ATS is whole: its length is right, and the interface bytes are there, TB(1) among them. -/
structure Whole (ats : Octets) : Prop where
  length_eq : (ats.getD 0 0).toNat = ats.length
  t0 : 1 < ats.length
  tb1 : ats.getD 1 0 &&& 0x20 ≠ 0
  tb1_lt : tbOffset (ats.getD 1 0) < ats.length
  tc1_lt : ats.getD 1 0 &&& 0x40 ≠ 0 → tbOffset (ats.getD 1 0) + 1 < ats.length

theorem not_lt_eight : ∀ b : UInt8, ¬b < 8 ↔ 8 ≤ b := forall_octet (by decide +kernel)

/-- A check that refuses, before the rest. -/
theorem refused_iff {p : Prop} [Decidable p] {rest : Bool} : (if p then false else rest) = true ↔ ¬p ∧ rest = true := by
  by_cases h : p <;> simp [h]

/-- What the load accepts, in terms of the values it judges. -/
theorem atsIsRadioSupported_iff {ats : Octets} (hne : ats ≠ []) :
    atsIsRadioSupported ats = true ↔
      Whole ats ∧ (judged ats).fsci = 5 ∧ (judged ats).ta1 = 0 ∧ 8 ≤ (judged ats).fwi ∧ (judged ats).nad = 0 := by
  have h0 : ats.length ≠ 0 := fun h => hne (List.length_eq_zero_iff.mp h)
  have hoff : ats.getD 1 0 &&& 0x10 ≠ 0 → tbOffset (ats.getD 1 0) = 3 := fun h => if_pos h
  have hta : (judged ats).ta1 = 0 ↔ (ats.getD 1 0 &&& 0x10 ≠ 0 → ats.getD 2 0 = 0) := by
    simp only [judged]
    split <;> simp_all
  have hnad : (judged ats).nad = 0 ↔
      (ats.getD 1 0 &&& 0x40 ≠ 0 → ats.getD (tbOffset (ats.getD 1 0) + 1) 0 &&& 0x01 = 0) := by
    simp only [judged]
    split <;> simp_all
  rw [hta, hnad]
  simp only [atsIsRadioSupported, if_neg h0, refused_iff, and_true]
  rw [show (if ats.getD 1 0 &&& 0x10 ≠ 0 then 3 else 2) = tbOffset (ats.getD 1 0) from rfl]
  constructor
  · rintro ⟨h1, h2, h3, h4, h5, h6⟩
    refine ⟨⟨?_, ?_, h4, ?_, ?_⟩, ?_, ?_, ?_, ?_⟩
    · exact Classical.not_not.mp fun h => h1 (Or.inr h)
    · omega
    · omega
    · intro htc
      by_cases hlt : tbOffset (ats.getD 1 0) + 1 < ats.length
      · exact hlt
      · exact absurd ⟨htc, Or.inl (by omega)⟩ h6
    · exact Classical.not_not.mp h2
    · intro h
      exact Classical.not_not.mp fun hv => h3 ⟨h, Or.inr hv⟩
    · exact (not_lt_eight _).mp fun h => h5 (Or.inr h)
    · intro h
      exact Classical.not_not.mp fun hv => h6 ⟨h, Or.inr hv⟩
  · rintro ⟨hw, hf, ht, hwi, hn⟩
    have htl := hw.length_eq
    have hlen := hw.t0
    have hb := hw.tb1_lt
    refine ⟨?_, fun h => h hf, ?_, hw.tb1, ?_, ?_⟩
    · rintro (h | h)
      · omega
      · exact h htl
    · rintro ⟨h, hv | hv⟩
      · rw [hoff h] at hb
        omega
      · exact hv (ht h)
    · rintro (h | h)
      · omega
      · exact (not_lt_eight _).mpr hwi h
    · rintro ⟨h, hv | hv⟩
      · have := hw.tc1_lt h
        omega
      · exact hv (hn h)

/-- A field of a whole ATS: it is read when it is announced, and the octets go on behind it. -/
theorem readField_whole (present : Bool) (ats : Octets) (i : Nat) (h : present = true → i < ats.length) :
    ∃ b j, readField present ats ats.length i = some (b, j) ∧ j = (if present then i + 1 else i) ∧
      b = (if present then ats.getD i 0 else 0) ∧ (if present then [b] else []) ++ ats.drop j = ats.drop i := by
  unfold readField
  cases present with
  | false => exact ⟨0, i, rfl, rfl, rfl, rfl⟩
  | true =>
    have hi := h rfl
    refine ⟨ats[i], i + 1, ?_, rfl, by simp [hi], (List.drop_eq_getElem_cons hi).symm⟩
    rw [if_pos ⟨rfl, hi⟩, List.getElem?_eq_getElem hi]
    rfl

theorem tbOffset_eq (t0 : UInt8) : tbOffset t0 = if t0 &&& 0x10 != 0 then 3 else 2 := by
  simp only [tbOffset, bne_iff_ne]

/-- A whole ATS is unpacked without loss: each field is read where the load looks for it. -/
theorem Whole.unpacked {ats : Octets} (hw : Whole ats) :
    ∃ d, setListenerAts ats = some d ∧ d.writeOut = ats ∧ d.t0 = ats.getD 1 0 ∧
      d.ta1 = (if d.t0 &&& 0x10 != 0 then ats.getD 2 0 else 0) ∧ d.tb1 = ats.getD (tbOffset d.t0) 0 ∧
      d.tc1 = (if d.t0 &&& 0x40 != 0 then ats.getD (tbOffset d.t0 + 1) 0 else 0) := by
  have hlen := hw.t0
  have htb := hw.tb1_lt
  obtain ⟨tl, rest, rfl⟩ : ∃ tl rest, ats = tl :: rest := List.exists_cons_of_ne_nil fun h => by
    rw [h] at hlen
    cases hlen
  have htl : tl.toNat = (tl :: rest).length := hw.length_eq
  obtain ⟨t0, i0, h0, hi0, ht0, hd0⟩ := readField_whole true (tl :: rest) 1 fun _ => hlen
  rw [if_pos rfl] at hi0 ht0 hd0
  rw [← ht0] at htb
  obtain ⟨ta1, i1, h1, hi1, hta1, hd1⟩ := readField_whole (t0 &&& 0x10 != 0) (tl :: rest) i0 fun hp => by
    rw [tbOffset_eq, if_pos hp] at htb
    omega
  have hoff : i1 = tbOffset t0 := by
    rw [hi1, hi0, tbOffset_eq]
  obtain ⟨tb1, i2, h2, hi2, htb1, hd2⟩ := readField_whole (t0 &&& 0x20 != 0) (tl :: rest) i1 fun _ => by omega
  have hpres : (t0 &&& 0x20 != 0) = true := by
    rw [ht0]
    simpa using hw.tb1
  rw [if_pos hpres] at hi2 htb1
  have htc : (t0 &&& 0x40 != 0) = true → tbOffset t0 + 1 < (tl :: rest).length := fun hp => by
    have := hw.tc1_lt (by rw [← ht0]; simpa using hp)
    rwa [← ht0] at this
  obtain ⟨tc1, i3, h3, hi3, htc1, hd3⟩ := readField_whole (t0 &&& 0x40 != 0) (tl :: rest) i2 fun hp => by
    have := htc hp
    omega
  have hend : i3 ≤ (tl :: rest).length := by
    by_cases hp : (t0 &&& 0x40 != 0) = true
    · have := htc hp
      rw [if_pos hp] at hi3
      omega
    · rw [if_neg hp] at hi3
      omega
  refine ⟨⟨tl, t0, ta1, tb1, tc1, (tl :: rest).drop i3⟩, ?_, ?_, ht0, ?_, ?_, ?_⟩
  · show setDeclaredAts (tl :: rest) tl (if tl.toNat > (tl :: rest).length then (tl :: rest).length else tl.toNat) = _
    rw [if_neg (by omega), htl]
    simp only [setDeclaredAts, Option.bind_eq_bind, h0, h1, h2, h3, Option.bind_some]
    rw [if_neg (by omega), checkedSub_eq hend, Option.bind_some, slice_to_end hend, Option.bind_some]
  · simp only [AtsData.writeOut]
    rw [hd3, hd2, hd1, hd0]
    rfl
  · rw [hta1, hi0]
  · rw [htb1, hoff]
  · rw [htc1, hi2, hoff]

/-- An accepted ATS is unpacked without loss, and the judged values are those of the fields. -/
theorem setListenerAts_exact {ats : Octets} (hne : ats ≠ []) (h : atsIsRadioSupported ats = true) :
    ∃ d, setListenerAts ats = some d ∧ d.writeOut = ats ∧ d.judged = judged ats := by
  obtain ⟨hw, _⟩ := (atsIsRadioSupported_iff hne).mp h
  obtain ⟨d, hd, hout, ht0, hta1, htb1, htc1⟩ := hw.unpacked
  have hnad : d.tc1 &&& 0x01 = if d.t0 &&& 0x40 ≠ 0 then ats.getD (tbOffset d.t0 + 1) 0 &&& 0x01 else 0 := by
    rw [htc1]
    by_cases hp : d.t0 &&& 0x40 = 0
    · simp [hp]
    · simp [hp]
  refine ⟨d, hd, hout, ?_⟩
  simp only [AtsData.judged, judged, ← ht0, hnad]
  rw [hta1, htb1]
  simp only [bne_iff_ne]

/-- An ATS that the load accepts, of any length, is in the fields octet for octet, and they hold the judged values;
and on any octets at all the unpacking stays within them. -/
theorem ats_unpacked (ats : Octets) :
    (ats ≠ [] → atsIsRadioSupported ats = true →
      ∃ d, setListenerAts ats = some d ∧ d.writeOut = ats ∧ d.judged = judged ats) ∧
    (setListenerAts ats).isSome = true :=
  ⟨setListenerAts_exact, setListenerAts_isSome ats⟩

/-- An ATS with TA(1), TB(1) and TC(1) and one historical byte. -/
theorem ats_unpacked_full :
    ∃ d, setListenerAts [0x06, 0x75, 0x00, 0x81, 0x02, 0x80] = some d ∧
      d.writeOut = [0x06, 0x75, 0x00, 0x81, 0x02, 0x80] ∧ d.judged = judged [0x06, 0x75, 0x00, 0x81, 0x02, 0x80] :=
  (ats_unpacked _).1 (by decide) (by decide)

end DfcFlipper.Scenes
