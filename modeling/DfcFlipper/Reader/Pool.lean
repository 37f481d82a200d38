/-
  DfcFlipper.Reader.Pool — the file pool of a credential, as dfc_reader.c fills it
  (dfc_file_resize and dfc_file_data of lib/core).

  `PoolLaws` is what is asked of the two; whether there is room for a file is theirs to say, of
  each pool, file and length (`HasRoom`).

  `commit_roomy`: a file that finds room is replaced, and no other is touched.
-/

import DfcFlipper.Reader.Core

namespace DfcFlipper.Reader

open DfcFlipper.Lib.Bytes

variable {σ : Type} {C : Core σ} {pool : Pool} {i : Nat} {plain : Octets}

/-- A file that is resized has that length, and the others keep their contents. -/
structure PoolLaws (C : Core σ) : Prop where
  length : ∀ {pool i length resized}, C.fileResize pool i length = some resized → (resized i).length = length
  others : ∀ {pool i length resized}, C.fileResize pool i length = some resized → ∀ j, j ≠ i → resized j = pool j

/-- `dfc_file_resize` succeeds, and `dfc_file_data` does for a file that is not empty. -/
def HasRoom (C : Core σ) (pool : Pool) (i length : Nat) : Prop :=
  ∃ resized ∈ C.fileResize pool i length, 0 < length → C.fileData resized i = true

instance (C : Core σ) (pool : Pool) (i length : Nat) : Decidable (HasRoom C pool i length) := by
  unfold HasRoom
  infer_instance

theorem writeAt_whole {α : Type} {a src : List α} (h : a.length = src.length) : writeAt a 0 src = src := by
  simp [writeAt, h]

/-! ## A commit -/

theorem commit_continue_iff : (commit C pool i plain).1 = .commandContinue ↔ HasRoom C pool i plain.length := by
  simp only [commit, HasRoom]
  cases C.fileResize pool i plain.length with
  | none => simp
  | some resized =>
    by_cases hpos : 0 < plain.length
    · cases hdata : C.fileData resized i <;> simp [hpos, hdata]
    · simp [hpos]

theorem commit_roomless (h : ¬HasRoom C pool i plain.length) : (commit C pool i plain).1 = .commandStop := by
  cases hk : (commit C pool i plain).1 with
  | commandStop => rfl
  | commandContinue => exact absurd (commit_continue_iff.mp hk) h

theorem commit_others (hC : PoolLaws C) {j : Nat} (hj : j ≠ i) (plain : Octets) :
    (commit C pool i plain).2 j = pool j := by
  simp only [commit]
  split
  · rfl
  · rename_i resized hr
    split
    · split
      · exact hC.others hr j hj
      · exact (Function.update_of_ne hj _ resized).trans (hC.others hr j hj)
    · exact hC.others hr j hj

/-- Where there is no room the file is at most resized. -/
theorem commit_resized (h : ¬HasRoom C pool i plain.length) :
    (commit C pool i plain).2 = (C.fileResize pool i plain.length).getD pool := by
  simp only [commit]
  split
  · rename_i hr
    rw [hr]
    rfl
  · rename_i resized hr
    have hfail : ¬(0 < plain.length → C.fileData resized i = true) := fun hd => h ⟨resized, hr, hd⟩
    obtain ⟨hpos, hdata⟩ := Classical.not_imp.mp hfail
    rw [if_pos hpos, if_pos (Bool.eq_false_iff.mpr hdata), hr]
    rfl

/-- A file that finds room is replaced, and no other is touched. -/
theorem commit_roomy (hC : PoolLaws C) (h : HasRoom C pool i plain.length) :
    commit C pool i plain = (.commandContinue, Function.update pool i plain) := by
  obtain ⟨resized, hr, hdata⟩ := h
  have hr : C.fileResize pool i plain.length = some resized := hr
  have hself : (commit C pool i plain).2 i = plain := by
    simp only [commit, hr]
    split
    · rename_i hpos
      rw [hdata hpos, if_neg (by decide)]
      exact (Function.update_self i _ resized).trans (writeAt_whole (hC.length hr))
    · rename_i hpos
      obtain rfl : plain = [] := List.length_eq_zero_iff.mp (by omega)
      exact List.length_eq_zero_iff.mp (hC.length hr)
  have hpool : (commit C pool i plain).2 = Function.update pool i plain := by
    funext j
    by_cases hj : j = i
    · rw [hj, hself, Function.update_self]
    · rw [Function.update_of_ne hj, commit_others hC hj]
  exact Prod.ext (commit_continue_iff.mpr ⟨resized, hr, hdata⟩) hpool

/-! ## A pool -/

/-- The octets in use, of `DFC_MAX_FILES` files. -/
def used (pool : Pool) : Nat := (List.range 16).foldl (fun octets i => octets + (pool i).length) 0

/-- Within `DFC_MAX_FILE_DATA` and `DFC_FILE_POOL_SIZE`. -/
def boundedResize (pool : Pool) (i length : Nat) : Option Pool :=
  let resized := Function.update pool i (List.replicate length 0)
  if i < 16 ∧ length ≤ 2048 ∧ used resized ≤ 3072 then some resized else none

theorem boundedResize_laws (h : C.fileResize = boundedResize) : PoolLaws C := by
  have hresized : ∀ {pool resized : Pool} {i length : Nat}, C.fileResize pool i length = some resized →
      resized = Function.update pool i (List.replicate length 0) := by
    intro pool resized i length hr
    rw [h] at hr
    exact (Option.some.inj (Option.ite_none_right_eq_some.mp hr).2).symm
  constructor
  · intro pool i length resized hr
    rw [hresized hr, Function.update_self, List.length_replicate]
  · intro pool i length resized hr j hj
    rw [hresized hr]
    exact Function.update_of_ne hj _ pool

/-- Sessions that are nothing: what comes is what was sent. -/
def plainCore : Core Unit where
  maxFileData := 2048
  blockSizeForCipher _ := 8
  buildSelectApplicationFrame aid := 0x5A :: aid
  buildReadDataFrame number _ _ := [cmdReadData, number, 0, 0, 0, 0, 0, 0]
  aesCbcDecrypt _ iv data := (data, iv)
  aesCbcEncrypt _ iv data := (data, iv)
  desCbcDecrypt _ iv data := (data, iv)
  desCbcEncrypt _ iv data := (data, iv)
  rotateLeft octets := octets.rotateLeft 1
  deriveSessionKey _ _ rndA rndB := rndA ++ rndB
  secureMessagingAlloc _ _ _ := some ()
  asPcd _ := ()
  appliesEv1 _ _ := false
  updateEv1Command _ _ _ := ()
  unwrapEv1Response _ _ payload := ((), some payload)
  unwrap _ _ _ payload := ((), payload)
  fileResize := boundedResize
  fileData _ _ := true

theorem plainCore_laws : PoolLaws plainCore := boundedResize_laws rfl

/-- A file of 1 KiB finds room beside one of 2 KiB, and not beside two of 1 KiB and an octet. -/
example : HasRoom plainCore (Function.update (fun _ => []) 0 (List.replicate 2048 0)) 1 1024 ∧
    ¬HasRoom plainCore (Function.update (Function.update (fun _ => []) 0 (List.replicate 1024 0)) 1 (List.replicate 1025 0)) 2
      1024 := by decide +kernel

end DfcFlipper.Reader
