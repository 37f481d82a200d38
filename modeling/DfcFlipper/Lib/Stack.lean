/-
  DfcFlipper.Lib.Stack — a navigation stack, its top first.

  `search x` is where a switch to the nearest `x` below the top lands: a part of the stack
  with `x` on top (`search_eq_some`), if there is one (`downTo_of_mem`). A relation between neighbours is kept by every such
  switch (`isChain_search`).
-/

import Mathlib.Data.List.Chain

namespace DfcFlipper.Lib.Stack

variable {α : Type} [DecidableEq α] {x : α} {stack found : List α}

def downTo (x : α) : List α → Option (List α)
  | [] => none
  | y :: below => if y = x then some (y :: below) else downTo x below

def search (x : α) (stack : List α) : Option (List α) := downTo x stack.tail

theorem downTo_eq_some (h : downTo x stack = some found) : found <:+ stack ∧ found.head? = some x := by
  induction stack with
  | nil => cases h
  | cons y below ih =>
    rw [downTo] at h
    split at h
    · rename_i hy
      obtain rfl := Option.some.inj h
      exact ⟨List.suffix_rfl, by rw [List.head?_cons, hy]⟩
    · obtain ⟨hs, hh⟩ := ih h
      exact ⟨hs.trans (List.suffix_cons y below), hh⟩

/-- What is there is found. -/
theorem downTo_of_mem (h : x ∈ stack) : downTo x stack = some (stack.dropWhile fun y => !decide (y = x)) := by
  induction stack with
  | nil => cases h
  | cons y below ih =>
    rw [downTo]
    by_cases hy : y = x
    · rw [if_pos hy, List.dropWhile_cons_of_neg (by simp [hy])]
    · rw [if_neg hy, List.dropWhile_cons_of_pos (by simp [hy])]
      exact ih ((List.mem_cons.mp h).resolve_left fun he => hy he.symm)

theorem search_eq_some (h : search x stack = some found) : found <:+ stack.tail ∧ found.head? = some x :=
  downTo_eq_some h

theorem search_suffix (h : search x stack = some found) : found <:+ stack :=
  (search_eq_some h).1.trans (List.tail_suffix stack)

theorem isChain_search {R : α → α → Prop} (hc : List.IsChain R stack) (h : search x stack = some found) :
    List.IsChain R found :=
  hc.suffix (search_suffix h)

end DfcFlipper.Lib.Stack
