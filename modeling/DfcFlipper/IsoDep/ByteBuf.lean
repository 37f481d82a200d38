/-
  DfcFlipper.IsoDep.ByteBuf — the byte buffer as the C struct it is
  (port/dfc_bytebuf_flipper.c), below `DfcByteBuf`.

  The array has `DFC_BYTEBUF_MAX` octets; `size_bytes` is a `size_t` that a caller may have
  left at anything, as tests/bytebuf_security_test.py does. A copy that leaves the array it
  writes or the octets it reads has no result.

  `raw_refines`: from any contents and any size, appends and resets in any order never leave
  an array, given octets as many as announced. While the size is within the array they do
  what `DfcByteBuf` does, and otherwise nothing at all until a reset; what they leave to
  `dfc_bytebuf_get_byte` is a read behind the array, for an index between the two.
-/

import DfcFlipper.IsoDep.Core

namespace DfcFlipper.IsoDep

open DfcFlipper.Lib.Bytes

/-- `size_t`, and `DFC_BYTEBUF_MAX` in it. -/
structure SizeT (L : Limits) where
  width : Nat
  bytebufMax : BitVec width
  max_eq : bytebufMax.toNat = L.bytebufMax

/-- `struct DfcByteBuf`. -/
structure RawBuf {L : Limits} (Z : SizeT L) where
  data : Octets
  sizeBytes : BitVec Z.width
  sized : data.length = L.bytebufMax

variable {L : Limits} {Z : SizeT L}

namespace RawBuf

/-! ## The functions -/

/-- `memcpy(b->data + start, source, len)`. -/
def copyIn (b : RawBuf Z) (start : Nat) (source : Octets) (len : Nat) : Option (RawBuf Z) :=
  if h : start + len ≤ L.bytebufMax ∧ len ≤ source.length then
    some { b with
      data := writeAt b.data start (source.take len)
      sized := by rw [length_writeAt (by rw [List.length_take, b.sized]; omega), b.sized] }
  else none

def reset (b : RawBuf Z) : RawBuf Z := { b with sizeBytes := 0 }

/-- `data` may be `NULL`. -/
def appendBytes (b : RawBuf Z) (data : Option Octets) (len : BitVec Z.width) : Option (RawBuf Z) :=
  if (data = none ∧ 0 < len) ∨ Z.bytebufMax < b.sizeBytes ∨ Z.bytebufMax - b.sizeBytes < len then some b
  else (b.copyIn b.sizeBytes.toNat (data.getD []) len.toNat).map fun c => { c with sizeBytes := b.sizeBytes + len }

def appendByte (b : RawBuf Z) (byte : UInt8) : Option (RawBuf Z) :=
  if Z.bytebufMax ≤ b.sizeBytes then some b
  else (b.copyIn b.sizeBytes.toNat [byte] 1).map fun c => { c with sizeBytes := b.sizeBytes + 1 }

/-- `none` is a read outside the array. -/
def getByte (b : RawBuf Z) (index : BitVec Z.width) : Option UInt8 :=
  if index < b.sizeBytes then b.data[index.toNat]? else some 0

/-- The octets below `size_bytes`, when it is within the array. -/
def view (b : RawBuf Z) : Option (DfcByteBuf L) :=
  if h : b.sizeBytes.toNat ≤ L.bytebufMax then
    some ⟨b.data.take b.sizeBytes.toNat, by rw [List.length_take]; omega⟩
  else none

end RawBuf

/-! ## Callers -/

inductive BufOp (w : Nat) where
  | reset
  | bytes (data : Option Octets) (len : BitVec w)
  | byte (octet : UInt8)

def RawBuf.step (b : RawBuf Z) : BufOp Z.width → Option (RawBuf Z)
  | .reset => some b.reset
  | .bytes data len => b.appendBytes data len
  | .byte octet => b.appendByte octet

/-- Octets that could be appended are there to be read. -/
def BufOp.Readable (L : Limits) {w : Nat} : BufOp w → Prop
  | .bytes (some data) len => len.toNat ≤ L.bytebufMax → len.toNat ≤ data.length
  | _ => True

/-- The same call on the buffer of the model; a size outside the array stays there until a reset. -/
def BufOp.viewed {w : Nat} (v : Option (DfcByteBuf L)) : BufOp w → Option (DfcByteBuf L)
  | .reset => some .empty
  | .bytes (some data) len => v.map fun b => if len.toNat ≤ L.bytebufMax then b.appendBytes (data.take len.toNat) else b
  | .bytes none _ => v
  | .byte octet => v.map (·.appendByte octet)

/-! ## One call -/

namespace RawBuf

variable {b : RawBuf Z} {op : BufOp Z.width}

theorem eq_of_data {x y : DfcByteBuf L} (h : x.data = y.data) : x = y := by
  cases x; cases y; cases h; rfl

theorem appendBytes_nil (x : DfcByteBuf L) : x.appendBytes [] = x := by
  refine eq_of_data ?_
  rw [DfcByteBuf.appendBytes_data (by rw [List.length_nil]; exact x.fits), List.append_nil]

theorem view_eq_some (h : b.sizeBytes.toNat ≤ L.bytebufMax) :
    b.view = some ⟨b.data.take b.sizeBytes.toNat, by rw [List.length_take]; omega⟩ := dif_pos h

theorem view_eq_none : b.view = none ↔ L.bytebufMax < b.sizeBytes.toNat := by
  unfold view
  split
  · simp; omega
  · simp; omega

theorem view_reset (b : RawBuf Z) : b.reset.view = some .empty := by
  have hzero : b.reset.sizeBytes.toNat = 0 := by simp [reset]
  rw [view_eq_some (by rw [hzero]; exact Nat.zero_le _)]
  refine congrArg some (eq_of_data ?_)
  show b.reset.data.take b.reset.sizeBytes.toNat = []
  rw [hzero, List.take_zero]

/-- A copy that fits, and the size that goes with it. -/
theorem copyIn_view (source : Octets) (len : BitVec Z.width) (h : b.sizeBytes.toNat ≤ L.bytebufMax)
    (hfit : b.sizeBytes.toNat + len.toNat ≤ L.bytebufMax) (hl : len.toNat ≤ source.length) :
    ∃ c, b.copyIn b.sizeBytes.toNat source len.toNat = some c ∧
      view { c with sizeBytes := b.sizeBytes + len } =
        b.view.map (·.appendBytes (source.take len.toNat)) := by
  have hw : b.sizeBytes.toNat + len.toNat < 2 ^ Z.width := by
    have := Z.bytebufMax.isLt
    rw [Z.max_eq] at this
    omega
  have hsum : (b.sizeBytes + len).toNat = b.sizeBytes.toNat + len.toNat := BitVec.toNat_add_of_lt hw
  have htaken : (source.take len.toNat).length = len.toNat := by rw [List.length_take]; omega
  refine ⟨_, dif_pos ⟨hfit, hl⟩, ?_⟩
  rw [view_eq_some h, view_eq_some (by rw [hsum]; exact hfit), Option.map_some]
  refine congrArg some (eq_of_data ?_)
  rw [DfcByteBuf.appendBytes_data (by rw [List.length_take, htaken]; omega)]
  show (writeAt b.data b.sizeBytes.toNat (source.take len.toNat)).take (b.sizeBytes + len).toNat = _
  have hread := @take_writeAt _ b.data b.sizeBytes.toNat (source.take len.toNat) (by rwa [b.sized])
  rwa [htaken, ← hsum] at hread

/-- A size outside the array: no append does anything. -/
theorem append_outside (h : L.bytebufMax < b.sizeBytes.toNat) (data : Option Octets) (len : BitVec Z.width) (octet : UInt8) :
    b.appendBytes data len = some b ∧ b.appendByte octet = some b := by
  have hlt : Z.bytebufMax < b.sizeBytes := by rw [BitVec.lt_def, Z.max_eq]; exact h
  exact ⟨if_pos (Or.inr (Or.inl hlt)), if_pos (BitVec.le_of_lt hlt)⟩

/-- What `DFC_BYTEBUF_MAX - size_bytes` leaves room for. -/
theorem room_iff (h : b.sizeBytes.toNat ≤ L.bytebufMax) (len : BitVec Z.width) :
    Z.bytebufMax - b.sizeBytes < len ↔ L.bytebufMax < b.sizeBytes.toNat + len.toNat := by
  rw [BitVec.lt_def, BitVec.toNat_sub_of_le (by rw [BitVec.le_def, Z.max_eq]; exact h), Z.max_eq]
  omega

theorem appendBytes_view (h : b.sizeBytes.toNat ≤ L.bytebufMax) {data : Option Octets} {len : BitVec Z.width}
    (hr : (BufOp.bytes data len).Readable L) :
    ∃ c, b.appendBytes data len = some c ∧ c.view = (BufOp.bytes data len).viewed b.view := by
  have hle : ¬Z.bytebufMax < b.sizeBytes := by rw [BitVec.lt_def, Z.max_eq]; omega
  unfold appendBytes
  split
  · rename_i hrefused
    refine ⟨b, rfl, ?_⟩
    cases data with
    | none => rfl
    | some d =>
      rcases hrefused with hnull | hout | hlong
      · cases hnull.1
      · exact absurd hout hle
      · -- The abstract buffer has no room for as much either.
        have hover := (room_iff h len).mp hlong
        rw [BufOp.viewed, view_eq_some h, Option.map_some]
        split
        · rename_i hmax
          have hread : len.toNat ≤ d.length := hr hmax
          rw [DfcByteBuf.appendBytes, dif_neg]
          rw [List.length_take, List.length_take, b.sized]
          omega
        · rfl
  · rename_i hok
    obtain ⟨hnull, hroom⟩ := not_or.mp hok
    have hfit : b.sizeBytes.toNat + len.toNat ≤ L.bytebufMax :=
      Nat.not_lt.mp fun hlt => hroom (Or.inr ((room_iff h len).mpr hlt))
    cases data with
    | none =>
      have hzero : len.toNat = 0 := by
        have hn : ¬0 < len := fun hlt => hnull ⟨rfl, hlt⟩
        rw [BitVec.lt_def] at hn
        simpa using hn
      obtain ⟨c, hc, hv⟩ := copyIn_view [] len h hfit (by rw [hzero]; exact Nat.zero_le _)
      refine ⟨_, by rw [Option.getD_none, hc, Option.map_some], ?_⟩
      rw [hv, BufOp.viewed, view_eq_some h, Option.map_some, List.take_nil]
      exact congrArg some (appendBytes_nil _)
    | some d =>
      have hmax : len.toNat ≤ L.bytebufMax := by omega
      obtain ⟨c, hc, hv⟩ := copyIn_view d len h hfit (hr hmax)
      refine ⟨_, by rw [Option.getD_some, hc, Option.map_some], ?_⟩
      rw [hv, BufOp.viewed]
      simp only [if_pos hmax]

theorem appendByte_view (h : b.sizeBytes.toNat ≤ L.bytebufMax) (octet : UInt8) :
    ∃ c, b.appendByte octet = some c ∧ c.view = b.view.map (·.appendByte octet) := by
  unfold appendByte
  split
  · rename_i hfull
    rw [BitVec.le_def, Z.max_eq] at hfull
    refine ⟨b, rfl, ?_⟩
    rw [view_eq_some h, Option.map_some, DfcByteBuf.appendByte, DfcByteBuf.appendBytes, dif_neg]
    rw [List.length_take, b.sized, List.length_singleton]
    omega
  · rename_i hroom
    rw [BitVec.le_def, Z.max_eq, Nat.not_le] at hroom
    have hone : (1 : BitVec Z.width).toNat = 1 := by
      have hlt := Z.bytebufMax.isLt
      rw [Z.max_eq] at hlt
      have hone : 1 < 2 ^ Z.width := by omega
      exact Nat.mod_eq_of_lt hone
    obtain ⟨c, hc, hv⟩ := copyIn_view [octet] 1 h (by omega) (by rw [hone]; exact Nat.le_refl 1)
    rw [hone] at hc hv
    exact ⟨_, by rw [hc, Option.map_some], hv⟩

theorem step_view (hr : op.Readable L) : ∃ c, b.step op = some c ∧ c.view = op.viewed b.view ∧
    (b.view = none → op ≠ .reset → c = b) := by
  rcases Nat.lt_or_ge L.bytebufMax b.sizeBytes.toNat with hout | hin
  · have hnone := view_eq_none.mpr hout
    rw [hnone]
    cases op with
    | reset => exact ⟨_, rfl, view_reset b, fun _ h => absurd rfl h⟩
    | bytes data len => exact ⟨b, (append_outside hout data len 0).1, by cases data <;> exact hnone, fun _ _ => rfl⟩
    | byte octet => exact ⟨b, (append_outside hout none 0 octet).2, hnone, fun _ _ => rfl⟩
  · have hsome := view_eq_some hin
    have hne : b.view ≠ none := by rw [hsome]; exact Option.some_ne_none _
    cases op with
    | reset => exact ⟨_, rfl, view_reset b, fun h => absurd h hne⟩
    | bytes data len =>
      obtain ⟨c, hc, hv⟩ := appendBytes_view hin hr
      exact ⟨c, hc, hv, fun h => absurd h hne⟩
    | byte octet =>
      obtain ⟨c, hc, hv⟩ := appendByte_view hin octet
      exact ⟨c, hc, hv, fun h => absurd h hne⟩

/-- The one read that may leave the array. -/
theorem getByte_none_iff (b : RawBuf Z) (index : BitVec Z.width) :
    b.getByte index = none ↔ L.bytebufMax ≤ index.toNat ∧ index < b.sizeBytes := by
  unfold getByte
  split
  · rename_i hlt
    rw [List.getElem?_eq_none_iff, b.sized]
    exact ⟨fun h => ⟨h, hlt⟩, fun h => h.1⟩
  · rename_i hge
    exact ⟨fun h => absurd h (Option.some_ne_none _), fun h => absurd h.2 hge⟩

theorem getByte_view {v : DfcByteBuf L} (h : b.view = some v) (index : BitVec Z.width) :
    b.getByte index = some (v.data.getD index.toNat 0) := by
  have hin : b.sizeBytes.toNat ≤ L.bytebufMax := by
    refine Nat.not_lt.mp fun hout => ?_
    rw [view_eq_none.mpr hout] at h
    cases h
  rw [view_eq_some hin] at h
  obtain rfl := Option.some.inj h
  simp only [getByte, List.getD_eq_getElem?_getD]
  split
  · rename_i hlt
    rw [BitVec.lt_def] at hlt
    have hread : index.toNat < b.data.length := by rw [b.sized]; omega
    rw [List.getElem?_take_of_lt hlt, List.getElem?_eq_getElem hread, Option.getD_some]
  · rename_i hge
    rw [BitVec.lt_def] at hge
    rw [List.getElem?_eq_none (by rw [List.length_take]; omega), Option.getD_none]

end RawBuf

/-! ## Any calls -/

/-- From any contents and any size, whatever is called in whatever order: no append leaves an
    array; what the calls leave is what they leave of the abstract buffer; a size outside the
    array makes every append a no-op; and `dfc_bytebuf_get_byte` reads outside the array
    exactly for an index between its end and such a size. -/
theorem raw_refines (b : RawBuf Z) (ops : List (BufOp Z.width)) (hr : ∀ op ∈ ops, op.Readable L) :
    ∃ c, ops.foldlM RawBuf.step b = some c ∧ c.view = ops.foldl BufOp.viewed b.view ∧
      (b.view = none → (∀ op ∈ ops, op ≠ .reset) → c = b) ∧
      (∀ index, c.getByte index = none ↔ c.view = none ∧ L.bytebufMax ≤ index.toNat ∧ index < c.sizeBytes) ∧
      ∀ v, c.view = some v → ∀ index, c.getByte index = some (v.data.getD index.toNat 0) := by
  have hrun : ∃ c, ops.foldlM RawBuf.step b = some c ∧ c.view = ops.foldl BufOp.viewed b.view ∧
      (b.view = none → (∀ op ∈ ops, op ≠ .reset) → c = b) := by
    induction ops generalizing b with
    | nil => exact ⟨b, rfl, rfl, fun _ _ => rfl⟩
    | cons op ops ih =>
      obtain ⟨c, hc, hv, hsame⟩ := RawBuf.step_view (b := b) (hr op List.mem_cons_self)
      obtain ⟨d, hd, hv', hsame'⟩ := ih c fun o ho => hr o (List.mem_cons_of_mem op ho)
      refine ⟨d, by rw [List.foldlM_cons, hc]; exact hd, by rw [hv', hv, List.foldl_cons], fun hnone hnr => ?_⟩
      obtain rfl := hsame hnone (hnr op List.mem_cons_self)
      exact hsame' hnone fun o ho => hnr o (List.mem_cons_of_mem op ho)
  obtain ⟨c, hc, hv, hsame⟩ := hrun
  refine ⟨c, hc, hv, hsame, fun index => ?_, fun v h index => RawBuf.getByte_view h index⟩
  rw [RawBuf.getByte_none_iff, RawBuf.view_eq_none]
  refine ⟨fun h => ⟨?_, h⟩, fun h => h.2⟩
  have hlt := h.2
  rw [BitVec.lt_def] at hlt
  omega

/-- 32 bits, as on the device. -/
def smallSizeT : SizeT smallLimits := ⟨32, 256, rfl⟩

/-- What a size of `SIZE_MAX` leaves of two appends and a reset. -/
theorem raw_refines_size_max :
    let b : RawBuf smallSizeT := ⟨List.replicate 256 0, BitVec.allOnes 32, List.length_replicate⟩
    let ops : List (BufOp 32) := [.bytes (some [0xA5]) 1, .byte 0xA5, .reset, .bytes (some [0xA5]) (BitVec.allOnes 32)]
    ∃ c, ops.foldlM RawBuf.step b = some c ∧ c.view = ops.foldl BufOp.viewed b.view ∧
      (b.view = none → (∀ op ∈ ops, op ≠ .reset) → c = b) ∧
      (∀ index, c.getByte index = none ↔ c.view = none ∧ 256 ≤ index.toNat ∧ index < c.sizeBytes) ∧
      ∀ v, c.view = some v → ∀ index, c.getByte index = some (v.data.getD index.toNat 0) := by
  intro b ops
  refine raw_refines b ops (List.forall_mem_cons.mpr ⟨fun _ => Nat.le_refl 1, ?_⟩)
  refine List.forall_mem_cons.mpr ⟨trivial, List.forall_mem_cons.mpr ⟨trivial, List.forall_mem_singleton.mpr ?_⟩⟩
  exact fun h => absurd h (by decide)

end DfcFlipper.IsoDep
