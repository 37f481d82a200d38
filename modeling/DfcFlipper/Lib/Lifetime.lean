/-
  DfcFlipper.Lib.Lifetime — traces of acquiring, using and releasing resources.

  A resource has one life: not yet acquired, held, released (`Phase`). `Passes` says of a
  piece of a trace that every event finds its resource in the right phase, that a rule of
  the caller's holds at every event, and which phases the piece leads to; pieces join
  (`Passes.append`). Acquisitions and releases are conserved (`Passes.acquired`,
  `Passes.released`), so an `Orderly` trace, which ends with nothing held, releases once
  what it acquired (`Orderly.released_once`).
-/

import DfcFlipper.Lib.Run
import Mathlib.Data.Fintype.Pi

namespace DfcFlipper.Lib.Lifetime

open DfcFlipper.Lib.Run

variable {ρ ω : Type} [DecidableEq ρ]

inductive Phase where
  | unborn
  | held
  | released
  deriving DecidableEq

namespace Phase

def acquired : Phase → Nat
  | unborn => 0
  | held => 1
  | released => 1

def freed : Phase → Nat
  | unborn => 0
  | held => 0
  | released => 1

end Phase

inductive Event (ρ ω : Type) where
  | acquire (r : ρ)
  | use (r : ρ) (op : ω)
  | release (r : ρ)
  deriving DecidableEq

abbrev Phases (ρ : Type) := ρ → Phase

def unborn : Phases ρ := fun _ => .unborn

def advance (φ : Phases ρ) : Event ρ ω → Phases ρ
  | .acquire r => Function.update φ r .held
  | .use _ _ => φ
  | .release r => Function.update φ r .released

def Allowed (φ : Phases ρ) : Event ρ ω → Prop
  | .acquire r => φ r = .unborn
  | .use r _ => φ r = .held
  | .release r => φ r = .held

instance Allowed.decidable (φ : Phases ρ) (e : Event ρ ω) : Decidable (Allowed φ e) :=
  match e with
  | .acquire r => decEq (φ r) .unborn
  | .use r _ => decEq (φ r) .held
  | .release r => decEq (φ r) .held

/-! ## Pieces of a trace -/

section Pieces

variable {rule : Phases ρ → Event ρ ω → Prop} {φ φ' φ'' : Phases ρ} {tr tr' : List (Event ρ ω)}

/-- The piece keeps the rules from the phases `φ` on and leads to `φ'`. -/
structure Passes (rule : Phases ρ → Event ρ ω → Prop) (φ : Phases ρ) (tr : List (Event ρ ω)) (φ' : Phases ρ) : Prop where
  along : Along advance (fun φ e => Allowed φ e ∧ rule φ e) φ tr
  leads : tr.foldl advance φ = φ'

instance Passes.decidable [Fintype ρ] [∀ φ e, Decidable (rule φ e)] (φ : Phases ρ) (tr : List (Event ρ ω)) (φ' : Phases ρ) :
    Decidable (Passes rule φ tr φ') :=
  decidable_of_iff (Along advance (fun φ e => Allowed φ e ∧ rule φ e) φ tr ∧ tr.foldl advance φ = φ')
    ⟨fun h => ⟨h.1, h.2⟩, fun h => ⟨h.along, h.leads⟩⟩

theorem Passes.nil : Passes rule φ ([] : List (Event ρ ω)) φ := ⟨trivial, rfl⟩

theorem Passes.append (h : Passes rule φ tr φ') (h' : Passes rule φ' tr' φ'') : Passes rule φ (tr ++ tr') φ'' := by
  refine ⟨(along_append tr tr' φ).mpr ⟨h.along, ?_⟩, ?_⟩
  · rw [h.leads]
    exact h'.along
  · rw [List.foldl_append, h.leads, h'.leads]

theorem Passes.prefix (h : Passes rule φ tr φ') {pre : List (Event ρ ω)} {e : Event ρ ω} (hp : pre ++ [e] <+: tr) :
    Passes rule φ pre (pre.foldl advance φ) ∧ Allowed (pre.foldl advance φ) e ∧ rule (pre.foldl advance φ) e := by
  obtain ⟨post, rfl⟩ := hp
  have ha := (along_append (pre ++ [e]) post φ).mp h.along
  have hpre := (along_append pre [e] φ).mp ha.1
  exact ⟨⟨hpre.1, rfl⟩, hpre.2.1⟩

/-- Releasing what is held, each resource once. -/
theorem passes_releases (hrule : ∀ φ r, rule φ (.release r)) {rs : List ρ} (hn : rs.Nodup) (hh : ∀ r ∈ rs, φ r = .held) :
    Passes rule φ (rs.map .release) (fun r => if r ∈ rs then .released else φ r) := by
  induction rs generalizing φ with
  | nil => exact ⟨trivial, by simp⟩
  | cons q rs ih =>
    obtain ⟨hq, hn⟩ := List.nodup_cons.mp hn
    have hrest : ∀ r ∈ rs, advance φ (.release q : Event ρ ω) r = .held := by
      intro r hr
      have hne : r ≠ q := fun he => hq (he ▸ hr)
      simp only [advance, Function.update_of_ne hne]
      exact hh r (List.mem_cons_of_mem _ hr)
    obtain ⟨ha, hl⟩ := ih hn hrest
    refine ⟨⟨⟨hh q List.mem_cons_self, hrule φ q⟩, ha⟩, ?_⟩
    rw [List.map_cons, List.foldl_cons, hl]
    funext r
    by_cases hr : r = q
    · subst hr
      simp [advance]
    · simp [advance, hr]

/-- What a piece acquires is what comes to life in it. -/
theorem Passes.acquired [DecidableEq ω] (h : Passes rule φ tr φ') (r : ρ) :
    (φ r).acquired + tr.count (.acquire r) = (φ' r).acquired := by
  obtain ⟨ha, rfl⟩ := h
  induction tr generalizing φ with
  | nil => rfl
  | cons e tr ih =>
    rw [List.foldl_cons, ← ih ha.2, List.count_cons]
    have he := ha.1.1
    cases e with
    | acquire q =>
      by_cases hq : q = r
      · subst hq
        have hu : φ q = .unborn := he
        simp [advance, hu, Phase.acquired]
        omega
      · have hne : (Event.acquire q : Event ρ ω) ≠ .acquire r := fun hc => hq (Event.acquire.inj hc)
        simp [advance, Function.update_of_ne (Ne.symm hq), hne]
    | use q op => simp [advance]
    | release q =>
      by_cases hq : q = r
      · subst hq
        have hu : φ q = .held := he
        simp [advance, hu, Phase.acquired]
      · simp [advance, Function.update_of_ne (Ne.symm hq)]

theorem Passes.released [DecidableEq ω] (h : Passes rule φ tr φ') (r : ρ) :
    (φ r).freed + tr.count (.release r) = (φ' r).freed := by
  obtain ⟨ha, rfl⟩ := h
  induction tr generalizing φ with
  | nil => rfl
  | cons e tr ih =>
    rw [List.foldl_cons, ← ih ha.2, List.count_cons]
    have he := ha.1.1
    cases e with
    | acquire q =>
      by_cases hq : q = r
      · subst hq
        have hu : φ q = .unborn := he
        simp [advance, hu, Phase.freed]
      · simp [advance, Function.update_of_ne (Ne.symm hq)]
    | use q op => simp [advance]
    | release q =>
      by_cases hq : q = r
      · subst hq
        have hu : φ q = .held := he
        simp [advance, hu, Phase.freed]
        omega
      · have hne : (Event.release q : Event ρ ω) ≠ .release r := fun hc => hq (Event.release.inj hc)
        simp [advance, Function.update_of_ne (Ne.symm hq), hne]

end Pieces

/-! ## Whole traces -/

section Orderly

variable {rule : Phases ρ → Event ρ ω → Prop} {tr pre : List (Event ρ ω)} {r : ρ}

def Idle (φ : Phases ρ) : Prop := ∀ r, φ r ≠ .held

instance Idle.decidable [Fintype ρ] (φ : Phases ρ) : Decidable (Idle φ) := Fintype.decidableForallFintype

def Orderly (rule : Phases ρ → Event ρ ω → Prop) (tr : List (Event ρ ω)) : Prop := ∃ φ, Passes rule unborn tr φ ∧ Idle φ

/-- At every event the rule holds of the phases so far. -/
theorem Orderly.ruled (h : Orderly rule tr) {e : Event ρ ω} (hp : pre ++ [e] <+: tr) :
    ∃ φ, Passes rule unborn pre φ ∧ rule φ e := by
  obtain ⟨φ, hpass, _⟩ := h
  obtain ⟨hpre, _, hrule⟩ := hpass.prefix hp
  exact ⟨_, hpre, hrule⟩

variable [DecidableEq ω]

/-- What is released in the phases a trace leads to was released in it. -/
theorem release_mem {φ : Phases ρ} (h : Passes rule unborn tr φ) (hr : φ r = .released) : .release r ∈ tr := by
  have hc := h.released r
  rw [hr] at hc
  simp only [unborn, Phase.freed, Nat.zero_add] at hc
  exact List.count_pos_iff.mp (by omega)

theorem release_not_mem {φ : Phases ρ} (h : Passes rule unborn tr φ) (hr : φ r = .held) : .release r ∉ tr := by
  have hc := h.released r
  rw [hr] at hc
  simp only [unborn, Phase.freed, Nat.zero_add] at hc
  exact List.count_eq_zero.mp hc

theorem acquire_mem {φ : Phases ρ} (h : Passes rule unborn tr φ) (hr : φ r = .held) : .acquire r ∈ tr := by
  have hc := h.acquired r
  rw [hr] at hc
  simp only [unborn, Phase.acquired, Nat.zero_add] at hc
  exact List.count_pos_iff.mp (by omega)

theorem acquire_born {φ : Phases ρ} (h : Passes rule unborn tr φ) (ha : .acquire r ∈ tr) : φ r ≠ .unborn := by
  intro hr
  have hc := h.acquired r
  have hpos := List.count_pos_iff.mpr ha
  rw [hr] at hc
  simp only [unborn, Phase.acquired, Nat.zero_add] at hc
  omega

/-- Every acquired resource is released exactly once. -/
theorem Orderly.released_once (h : Orderly rule tr) (ha : .acquire r ∈ tr) :
    tr.count (.acquire r) = 1 ∧ tr.count (.release r) = 1 := by
  obtain ⟨φ, hp, hidle⟩ := h
  have hpos := List.count_pos_iff.mpr ha
  have hacq := hp.acquired r
  have hrel := hp.released r
  simp only [unborn, Phase.acquired, Phase.freed, Nat.zero_add] at hacq hrel
  cases hr : φ r with
  | unborn =>
    rw [hr] at hacq
    have hz : tr.count (.acquire r) = 0 := hacq
    omega
  | held => exact absurd hr (hidle r)
  | released =>
    rw [hr] at hacq hrel
    exact ⟨hacq, hrel⟩

/-- A resource is used after it was acquired and before it is released. -/
theorem Orderly.used_while_held (h : Orderly rule tr) {op : ω} (hp : pre ++ [.use r op] <+: tr) :
    .acquire r ∈ pre ∧ .release r ∉ pre := by
  obtain ⟨φ, hpass, _⟩ := h
  obtain ⟨hpre, hr, _⟩ := hpass.prefix hp
  exact ⟨acquire_mem hpre hr, release_not_mem hpre hr⟩

end Orderly

end DfcFlipper.Lib.Lifetime
