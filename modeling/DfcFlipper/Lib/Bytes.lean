/-
  DfcFlipper.Lib.Bytes — octets and fixed arrays of them.

  An array is the list of its elements; `writeAt a off src` is a C `memcpy(a + off, src,
  src.length)`. A write inside the array keeps its length (`length_writeAt`) and what was
  written is read back (`take_writeAt`).

  `slice` and `checkedSub` are a read of several elements and an unsigned subtraction that
  fail where the C has none: past the end, below zero.

  `forall_octet` decides a statement about one octet by its 256 values;
  `eraseReps_repeat` and `eraseReps_new` say what one more element adds to a list once the
  repetitions are erased.
-/

namespace DfcFlipper.Lib.Bytes

abbrev Octets := List UInt8

/-! ## Octets -/

/-- A decidable property of one octet holds if it holds of each of the 256. -/
theorem forall_octet {P : UInt8 → Prop} (h : ∀ i : Fin 256, P (UInt8.ofFin i)) : ∀ b, P b :=
  fun b => h b.toFin

/-! ## Arrays -/

section Arrays

variable {α : Type}

def writeAt (a : List α) (off : Nat) (src : List α) : List α := a.take off ++ src ++ a.drop (off + src.length)

@[simp] theorem length_writeAt {a : List α} {off : Nat} {src : List α} (h : off + src.length ≤ a.length) :
    (writeAt a off src).length = a.length := by
  simp only [writeAt, List.length_append, List.length_take, List.length_drop]; omega

/-- The bytes before the write and the bytes written, read back together. -/
theorem take_writeAt {a : List α} {off : Nat} {src : List α} (h : off ≤ a.length) :
    (writeAt a off src).take (off + src.length) = a.take off ++ src := by
  have hl : (a.take off ++ src).length = off + src.length := by simp; omega
  rw [writeAt, List.take_append_of_le_length (by omega), List.take_of_length_le (by omega)]

def slice (a : List α) (off length : Nat) : Option (List α) :=
  if off + length ≤ a.length then some ((a.drop off).take length) else none

theorem slice_to_end {a : List α} {off : Nat} (h : off ≤ a.length) : slice a off (a.length - off) = some (a.drop off) := by
  rw [slice, if_pos (by omega), List.take_of_length_le (Nat.le_of_eq List.length_drop)]

def checkedSub (a b : Nat) : Option Nat := if b ≤ a then some (a - b) else none

theorem checkedSub_eq {a b : Nat} (h : b ≤ a) : checkedSub a b = some (a - b) := if_pos h

end Arrays

/-! ## Repetitions -/

section Reps

variable {α : Type} [BEq α]

theorem eraseReps_loop (a : α) (l acc : List α) :
    List.eraseRepsBy.loop (· == ·) a l acc = acc.reverse ++ List.eraseRepsBy.loop (· == ·) a l [] := by
  induction l generalizing a acc with
  | nil => simp [List.eraseRepsBy.loop]
  | cons b l ih =>
    simp only [List.eraseRepsBy.loop]
    split
    · exact ih a acc
    · rw [ih b (a :: acc), ih b [a]]; simp

theorem eraseReps_cons_cons (a b : α) (l : List α) :
    (a :: b :: l).eraseReps = if a == b then (a :: l).eraseReps else a :: (b :: l).eraseReps := by
  simp only [List.eraseReps, List.eraseRepsBy, List.eraseRepsBy.loop]
  cases h : a == b
  · exact eraseReps_loop b l [a]
  · rfl

variable [LawfulBEq α]

/-- One more element repeats the one right before it, or is kept. -/
theorem eraseReps_concat (b : α) :
    ∀ l : List α, (l ++ [b]).eraseReps = if l.getLast? == some b then l.eraseReps else l.eraseReps ++ [b]
  | [] => rfl
  | [a] => eraseReps_cons_cons a b []
  | a :: c :: l => by
    have ih := eraseReps_concat b (c :: l)
    have ih' := eraseReps_concat b (a :: l)
    rw [List.cons_append] at ih ih'
    rw [List.cons_append, List.cons_append, eraseReps_cons_cons a c (l ++ [b]), eraseReps_cons_cons a c l,
      List.getLast?_cons_cons]
    by_cases h : a = c
    · subst h
      rw [if_pos (beq_self_eq_true a), if_pos (beq_self_eq_true a), ih']
    · have hb : ¬(a == c) = true := by simpa using h
      rw [if_neg hb, if_neg hb, ih]
      split <;> rfl

theorem eraseReps_repeat {l : List α} {b : α} (h : l.getLast? = some b) : (l ++ [b]).eraseReps = l.eraseReps := by
  rw [eraseReps_concat, h, if_pos (beq_self_eq_true _)]

theorem eraseReps_new {l : List α} {a b : α} (h : l.getLast? = some a) (hne : a ≠ b) :
    (l ++ [b]).eraseReps = l.eraseReps ++ [b] := by
  rw [eraseReps_concat, h, if_neg (by simpa using hne)]

end Reps

end DfcFlipper.Lib.Bytes
