/-
  DfcFlipper.Lib.Run — runs of a deterministic machine that answers every input with a
  new state and a list of outputs.

  A run folds the step over a list of inputs and keeps every output, so a property of a
  whole run is a property of the pair (state, outputs so far).

  - `foldl_inv`: what one step preserves, under a condition on its input, a whole run
    preserves when the condition holds along it.
  - `last_touch`: what most steps leave alone is as it was, or as the last step that may change it left it.
  - `foldl_drains`: a run of inputs that each lower a cost comes to an end; `foldlM_inv`: a run
    of a step that can fail does not.
  - `along_iff`: a condition along a run, as one on every input and the state before it;
    `along_congr` and `along_of_inv` pass from one condition to another, `states_iff_along`
    from the condition to the states.
  - `run_logged_inv`: the same for a run whose outputs all have a property.
  - `Reachable.inv`: the same for a machine's reachable states.
  - `run_bisim`: two states related by a bisimulation answer every later input alike.
-/

namespace DfcFlipper.Lib.Run

/-! ## Folds under a condition -/

section Fold

variable {A I : Type} (step : A → I → A)

/-- Every input of the run meets `P` at the state it is given to. -/
def Along (P : A → I → Prop) : A → List I → Prop
  | _, [] => True
  | a, i :: is => P a i ∧ Along P (step a i) is

variable {step} {P Q : A → I → Prop}

instance Along.decidable [∀ a i, Decidable (P a i)] : ∀ (a : A) (is : List I), Decidable (Along step P a is)
  | _, [] => isTrue trivial
  | a, i :: is => @instDecidableAnd _ _ _ (Along.decidable (step a i) is)

theorem foldl_inv (Inv : A → Prop) (hstep : ∀ a i, Inv a → P a i → Inv (step a i)) :
    ∀ (is : List I) (a : A), Inv a → Along step P a is → Inv (is.foldl step a) := by
  intro is
  induction is with
  | nil => intro a h _; exact h
  | cons i is ih => intro a h hp; exact ih _ (hstep a i h hp.1) hp.2

/-- Where every good input lowers a cost that is not zero, as many of them as it counts use it up. -/
theorem foldl_drains (Inv : A → Prop) (cost : A → Nat) (Good : I → Prop)
    (hstep : ∀ a i, Inv a → Good i → Inv (step a i) ∧ cost (step a i) ≤ cost a - 1) :
    ∀ (is : List I) (a : A), Inv a → (∀ i ∈ is, Good i) → Inv (is.foldl step a) ∧ cost (is.foldl step a) ≤ cost a - is.length := by
  intro is
  induction is with
  | nil => intro a h _; exact ⟨h, Nat.le_refl _⟩
  | cons i is ih =>
    intro a h hg
    obtain ⟨hi, hc⟩ := hstep a i h (hg i (List.mem_cons_self ..))
    obtain ⟨hi', hc'⟩ := ih _ hi fun j hj => hg j (List.mem_cons_of_mem _ hj)
    refine ⟨hi', Nat.le_trans hc' ?_⟩
    rw [List.length_cons]; omega

/-- A step that keeps an invariant and never fails under it never fails in a run. -/
theorem foldlM_inv {step : A → I → Option A} (Inv : A → Prop) (hstep : ∀ a i, Inv a → ∃ b, step a i = some b ∧ Inv b) :
    ∀ (is : List I) (a : A), Inv a → ∃ b, is.foldlM step a = some b ∧ Inv b := by
  intro is
  induction is with
  | nil => intro a h; exact ⟨a, rfl, h⟩
  | cons i is ih =>
    intro a h
    obtain ⟨b, hb, hi⟩ := hstep a i h
    obtain ⟨d, hd, hi'⟩ := ih b hi
    exact ⟨d, by rw [List.foldlM_cons, hb]; exact hd, hi'⟩

theorem along_append (is js : List I) (a : A) :
    Along step P a (is ++ js) ↔ Along step P a is ∧ Along step P (is.foldl step a) js := by
  induction is generalizing a with
  | nil => simp [Along]
  | cons i is ih => simp only [List.cons_append, Along, List.foldl_cons, ih, and_assoc]

/-- A condition holds along a run when it holds at every input, in the state the inputs before it lead to. -/
theorem along_iff (is : List I) (a : A) :
    Along step P a is ↔ ∀ js i, js ++ [i] <+: is → P (js.foldl step a) i := by
  induction is generalizing a with
  | nil => simp [Along]
  | cons k is ih =>
    rw [Along, ih]
    constructor
    · rintro ⟨hk, his⟩ js i hp
      cases js with
      | nil =>
        obtain ⟨rfl, _⟩ := List.cons_prefix_cons.mp hp
        exact hk
      | cons j js =>
        obtain ⟨rfl, hjs⟩ := List.cons_prefix_cons.mp hp
        exact his js i hjs
    · intro h
      refine ⟨h [] k (List.cons_prefix_cons.mpr ⟨rfl, List.nil_prefix⟩), fun js i hp => ?_⟩
      exact h (k :: js) i (List.cons_prefix_cons.mpr ⟨rfl, hp⟩)

/-- What a step leaves alone unless it touches it is, behind a run, what it was before, or what the last step that
touches it left. -/
theorem last_touch {V : Type} (value : A → V) (Touches : A → I → Prop)
    (hframe : ∀ a i, ¬Touches a i → value (step a i) = value a) (is : List I) (a : A) :
    (Along step (fun b j => ¬Touches b j) a is ∧ value (is.foldl step a) = value a) ∨
    ∃ js i ks, is = js ++ i :: ks ∧ Touches (js.foldl step a) i ∧
      Along step (fun b j => ¬Touches b j) (step (js.foldl step a) i) ks ∧
      value (is.foldl step a) = value (step (js.foldl step a) i) := by
  induction is generalizing a with
  | nil => exact Or.inl ⟨trivial, rfl⟩
  | cons k is ih =>
    rcases ih (step a k) with ⟨hfree, hv⟩ | ⟨js, i, ks, rfl, ht, hfree, hv⟩
    · by_cases hk : Touches a k
      · exact Or.inr ⟨[], k, is, rfl, hk, hfree, hv⟩
      · exact Or.inl ⟨⟨hk, hfree⟩, hv.trans (hframe a k hk)⟩
    · exact Or.inr ⟨k :: js, i, ks, rfl, ht, hfree, hv⟩

/-- Two conditions that say the same wherever an invariant holds, which they keep, hold along the same runs. -/
theorem along_congr (Inv : A → Prop) (hpq : ∀ a i, Inv a → (P a i ↔ Q a i)) (hstep : ∀ a i, Inv a → P a i → Inv (step a i)) :
    ∀ (is : List I) (a : A), Inv a → (Along step P a is ↔ Along step Q a is) := by
  intro is
  induction is with
  | nil => intro a _; exact Iff.rfl
  | cons i is ih =>
    intro a h
    simp only [Along]
    constructor
    · intro ⟨hp, his⟩
      exact ⟨(hpq a i h).mp hp, (ih _ (hstep a i h hp)).mp his⟩
    · intro ⟨hq, his⟩
      have hp := (hpq a i h).mpr hq
      exact ⟨hp, (ih _ (hstep a i h hp)).mpr his⟩

/-- A condition that an invariant gives, and that keeps the invariant together with another, holds along every run
of the other. -/
theorem along_of_inv (Inv : A → Prop) (hp : ∀ a i, Inv a → P a i) (hstep : ∀ a i, Inv a → Q a i → Inv (step a i)) :
    ∀ (is : List I) (a : A), Inv a → Along step Q a is → Along step P a is := by
  intro is
  induction is with
  | nil => intro a _ _; trivial
  | cons i is ih =>
    intro a h hq
    exact ⟨hp a i h, ih _ (hstep a i h hq.1) hq.2⟩

theorem along_and (is : List I) (a : A) :
    Along step (fun a i => P a i ∧ Q a i) a is ↔ Along step P a is ∧ Along step Q a is := by
  induction is generalizing a with
  | nil => simp [Along]
  | cons i is ih =>
    simp only [Along, ih]
    constructor
    · rintro ⟨⟨hp, hq⟩, hps, hqs⟩
      exact ⟨⟨hp, hps⟩, hq, hqs⟩
    · rintro ⟨⟨hp, hps⟩, hq, hqs⟩
      exact ⟨⟨hp, hq⟩, hps, hqs⟩

/-- Where an invariant is kept under a condition `P`, and a good state behind a step needs `P` of it, the states of a
run are good exactly when `P` holds along it; `Q` is assumed of the run in any case. -/
theorem states_iff_along_under (Inv Good : A → Prop) (hgood : ∀ a, Inv a → Good a)
    (hstep : ∀ a i, Inv a → P a i ∧ Q a i → Inv (step a i)) (hneed : ∀ a i, Inv a → Q a i → Good (step a i) → P a i)
    (is : List I) (a : A) (h : Inv a) (hq : Along step Q a is) :
    (∀ js, js <+: is → Good (js.foldl step a)) ↔ Along step P a is := by
  constructor
  · intro hall
    induction is generalizing a with
    | nil => trivial
    | cons i is ih =>
      have hp := hneed a i h hq.1 (hall [i] (List.cons_prefix_cons.mpr ⟨rfl, List.nil_prefix⟩))
      refine ⟨hp, ih _ (hstep a i h ⟨hp, hq.1⟩) hq.2 fun js hjs => ?_⟩
      exact hall (i :: js) (List.cons_prefix_cons.mpr ⟨rfl, hjs⟩)
  · intro ha js hjs
    obtain ⟨ks, rfl⟩ := hjs
    have hpq := (along_and (js ++ ks) a).mpr ⟨ha, hq⟩
    exact hgood _ (foldl_inv Inv hstep js a h ((along_append js ks a).mp hpq).1)

theorem states_iff_along (Inv Good : A → Prop) (hgood : ∀ a, Inv a → Good a) (hstep : ∀ a i, Inv a → P a i → Inv (step a i))
    (hneed : ∀ a i, Inv a → Good (step a i) → P a i) (is : List I) (a : A) (h : Inv a) :
    (∀ js, js <+: is → Good (js.foldl step a)) ↔ Along step P a is :=
  states_iff_along_under (Q := fun _ _ => True) Inv Good hgood (fun a i h hp => hstep a i h hp.1)
    (fun a i h _ hg => hneed a i h hg) is a h ((along_iff is a).mpr fun _ _ _ => trivial)

end Fold

/-! ## Machines with outputs -/

variable {S I O : Type}

/-- One step, its outputs appended to those of the run so far. -/
def logged (step : S → I → S × List O) (a : S × List O) (i : I) : S × List O :=
  ((step a.1 i).1, a.2 ++ (step a.1 i).2)

def run (step : S → I → S × List O) (s : S) (is : List I) : S × List O := is.foldl (logged step) (s, [])

variable {step : S → I → S × List O}

theorem foldl_logged (is : List I) (s : S) (tr : List O) :
    is.foldl (logged step) (s, tr) = ((run step s is).1, tr ++ (run step s is).2) := by
  induction is generalizing s tr with
  | nil => simp [run]
  | cons i is ih =>
    simp only [run, List.foldl_cons, logged, List.nil_append]
    rw [ih, ih (step s i).1 (step s i).2]
    simp [run, List.append_assoc]

@[simp] theorem run_nil (s : S) : run step s [] = (s, []) := rfl

theorem run_cons (s : S) (i : I) (is : List I) :
    run step s (i :: is) =
      ((run step (step s i).1 is).1, (step s i).2 ++ (run step (step s i).1 is).2) := by
  simp only [run, List.foldl_cons, logged, List.nil_append]
  exact foldl_logged is _ _

theorem run_append (s : S) (is js : List I) :
    run step s (is ++ js) =
      ((run step (run step s is).1 js).1, (run step s is).2 ++ (run step (run step s is).1 js).2) := by
  rw [run, List.foldl_append]
  exact foldl_logged js _ _

theorem run_snoc (s : S) (is : List I) (i : I) :
    run step s (is ++ [i]) =
      ((step (run step s is).1 i).1, (run step s is).2 ++ (step (run step s is).1 i).2) := by
  rw [run_append, run_cons]; simp

/-- What holds of every output of a run holds of the outputs of each of its steps. -/
theorem along_of_outputs {Q : O → Prop} (is : List I) :
    ∀ a : S × List O, (∀ o ∈ (run step a.1 is).2, Q o) →
      Along (logged step) (fun a i => ∀ o ∈ (step a.1 i).2, Q o) a is := by
  induction is with
  | nil => intro _ _; trivial
  | cons i is ih =>
    intro a h
    rw [run_cons] at h
    exact ⟨fun o ho => h o (List.mem_append_left _ ho), ih _ fun o ho => h o (List.mem_append_right _ ho)⟩

/-- What one step preserves, given a property of its outputs, a run with such outputs preserves. -/
theorem run_logged_inv {Q : O → Prop} (Inv : S × List O → Prop)
    (hstep : ∀ a i, Inv a → (∀ o ∈ (step a.1 i).2, Q o) → Inv (logged step a i)) (is : List I) (a : S × List O)
    (h : Inv a) (hq : ∀ o ∈ (run step a.1 is).2, Q o) :
    Inv ((run step a.1 is).1, a.2 ++ (run step a.1 is).2) := by
  have hinv := foldl_inv Inv hstep is a h (along_of_outputs is a hq)
  rwa [show a = (a.1, a.2) from rfl, foldl_logged] at hinv

/-- What every step preserves, of the state and the outputs so far, a run preserves. -/
theorem run_outputs_inv (Inv : S × List O → Prop) (hstep : ∀ a i, Inv a → Inv (logged step a i)) (is : List I)
    (a : S × List O) (h : Inv a) : Inv ((run step a.1 is).1, a.2 ++ (run step a.1 is).2) :=
  run_logged_inv (Q := fun _ => True) Inv (fun a i h _ => hstep a i h) is a h fun _ _ => trivial

def Reachable (step : S → I → S × List O) (init : S) (s : S) : Prop := ∃ is, (run step init is).1 = s

theorem Reachable.init (s : S) : Reachable step s s := ⟨[], rfl⟩

theorem Reachable.run {init s : S} (h : Reachable step init s) (is : List I) :
    Reachable step init (run step s is).1 := by
  obtain ⟨js, rfl⟩ := h
  exact ⟨js ++ is, by rw [run_append]⟩

theorem run_inv (Inv : S → Prop) (hstep : ∀ s i, Inv s → Inv (step s i).1) :
    ∀ (is : List I) (s : S), Inv s → Inv (run step s is).1 := by
  intro is
  induction is with
  | nil => intro s h; exact h
  | cons i is ih => intro s h; rw [run_cons]; exact ih _ (hstep s i h)

theorem Reachable.inv {init s : S} (Inv : S → Prop) (h0 : Inv init)
    (hstep : ∀ s i, Inv s → Inv (step s i).1) (h : Reachable step init s) : Inv s := by
  obtain ⟨is, rfl⟩ := h
  exact run_inv Inv hstep is init h0

def Bisim (step : S → I → S × List O) (R : S → S → Prop) : Prop :=
  ∀ s t i, R s t → (step s i).2 = (step t i).2 ∧ R (step s i).1 (step t i).1

theorem run_bisim {R : S → S → Prop} (hb : Bisim step R) :
    ∀ (is : List I) (s t : S), R s t → (run step s is).2 = (run step t is).2 := by
  intro is
  induction is with
  | nil => intro s t _; rfl
  | cons i is ih =>
    intro s t h
    obtain ⟨ho, hr⟩ := hb s t i h
    rw [run_cons, run_cons, ho, ih _ _ hr]

end DfcFlipper.Lib.Run
