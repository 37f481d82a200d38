/-
  DfcFlipper.Lib.Frame — what an operation on a keyed store leaves alone.

  A store is a function of its keys. `ChangedOnly S f g` says that `g` differs from `f` at
  keys of `S` only; a write changes its own key (`update_changedOnly`).

  `Put` is an atomic write: the value is in place, or nothing moved. A failed one leaves the
  store as it was (`Put.eq_of_failed`).
-/

import Mathlib.Logic.Function.Basic
import Mathlib.Data.Set.Basic

namespace DfcFlipper.Lib.Frame

variable {κ α : Type} {f g : κ → α}

/-- Outside `S` the two stores hold the same. -/
def ChangedOnly (S : Set κ) (f g : κ → α) : Prop := ∀ k, k ∉ S → g k = f k

theorem ChangedOnly.refl (S : Set κ) (f : κ → α) : ChangedOnly S f f := fun _ _ => rfl

variable [DecidableEq κ]

theorem update_changedOnly (f : κ → α) (k : κ) (v : α) : ChangedOnly {k} f (Function.update f k v) := by
  intro j hj
  exact Function.update_of_ne hj _ _

/-- An atomic write of `v` at `k`, and whether it took place. -/
inductive Put (k : κ) (v : α) (f : κ → α) : Bool → (κ → α) → Prop
  | done : Put k v f true (Function.update f k v)
  | failed : Put k v f false f

theorem Put.eq_of_failed {k : κ} {v : α} (hp : Put k v f false g) : g = f := by
  cases hp
  rfl

end DfcFlipper.Lib.Frame
