/-
  DfcFlipper.Lib.Cbc — cipher block chaining over a permutation of the blocks.

  `E` is the cipher under one key and `mix` puts a block and the chaining value together. Both
  directions return the chaining value they leave beside the blocks, the last block of the
  cipher text (`encrypt_iv`); they undo each other (`decrypt_encrypt`, `encrypt_decrypt`).

  `chain` is the chain alone, as a MAC runs it: from different values it ends in different
  values, whatever the blocks are (`chain_injective`).

  `encryptOctets` and `decryptOctets` are the two directions on octets, in blocks of `n`; what
  consists of whole blocks comes back (`decryptOctets_encryptOctets`).
-/

import DfcFlipper.Lib.Bytes
import Mathlib.Logic.Equiv.Defs

namespace DfcFlipper.Lib.Cbc

open DfcFlipper.Lib.Bytes

/-! ## Chaining -/

section Chaining

variable {B : Type}

/-- What is mixed in twice is taken out again. -/
structure Mixes (mix : B → B → B) : Prop where
  cancel : ∀ a b, mix (mix a b) b = a

theorem Mixes.injective {mix : B → B → B} (h : Mixes mix) {a a' b : B} (he : mix a b = mix a' b) : a = a' := by
  rw [← h.cancel a b, he, h.cancel]

variable (mix : B → B → B) (E : Equiv.Perm B)

def encrypt (iv : B) : List B → List B × B
  | [] => ([], iv)
  | block :: rest =>
    let c := E (mix block iv)
    let r := encrypt c rest
    (c :: r.1, r.2)

def decrypt (iv : B) : List B → List B × B
  | [] => ([], iv)
  | c :: rest =>
    let r := decrypt c rest
    (mix (E.symm c) iv :: r.1, r.2)

def chain (iv : B) (blocks : List B) : B := blocks.foldl (fun state block => E (mix state block)) iv

variable {mix}

theorem decrypt_encrypt (h : Mixes mix) (iv : B) (blocks : List B) :
    decrypt mix E iv (encrypt mix E iv blocks).1 = (blocks, (encrypt mix E iv blocks).2) := by
  induction blocks generalizing iv with
  | nil => rfl
  | cons block rest ih => simp only [encrypt, decrypt, ih, Equiv.symm_apply_apply, h.cancel]

theorem encrypt_decrypt (h : Mixes mix) (iv : B) (blocks : List B) :
    encrypt mix E iv (decrypt mix E iv blocks).1 = (blocks, (decrypt mix E iv blocks).2) := by
  induction blocks generalizing iv with
  | nil => rfl
  | cons c rest ih => simp only [encrypt, decrypt, h.cancel, Equiv.apply_symm_apply, ih]

@[simp] theorem length_encrypt (iv : B) (blocks : List B) : (encrypt mix E iv blocks).1.length = blocks.length := by
  induction blocks generalizing iv with
  | nil => rfl
  | cons block rest ih => simp [encrypt, ih]

@[simp] theorem length_decrypt (iv : B) (blocks : List B) : (decrypt mix E iv blocks).1.length = blocks.length := by
  induction blocks generalizing iv with
  | nil => rfl
  | cons c rest ih => simp [decrypt, ih]

theorem encrypt_iv (iv : B) (blocks : List B) :
    (encrypt mix E iv blocks).2 = (encrypt mix E iv blocks).1.getLastD iv := by
  induction blocks generalizing iv with
  | nil => rfl
  | cons block rest ih => simp only [encrypt, List.getLastD_cons, ih]

theorem chain_injective (h : Mixes mix) {iv iv' : B} (blocks : List B) (he : chain mix E iv blocks = chain mix E iv' blocks) :
    iv = iv' := by
  induction blocks generalizing iv iv' with
  | nil => exact he
  | cons block rest ih => exact h.injective (E.injective (ih he))

end Chaining

/-! ## Blocks of octets -/

section Blocks

abbrev Block (n : Nat) := {octets : Octets // octets.length = n}

variable {n : Nat}

/-- The block these octets begin with, filled up with zeros. -/
def ofOctets (n : Nat) (octets : Octets) : Block n := ⟨(octets ++ List.replicate n 0).take n, by simp⟩

theorem ofOctets_val {octets : Octets} (h : octets.length = n) : (ofOctets n octets).1 = octets := by
  simp [ofOctets, ← h]

@[simp] theorem ofOctets_block (b : Block n) : ofOctets n b.1 = b := Subtype.ext (ofOctets_val b.2)

def xorBlock (a b : Block n) : Block n :=
  ⟨List.zipWith (· ^^^ ·) a.1 b.1, by rw [List.length_zipWith, a.2, b.2, Nat.min_self]⟩

theorem xor_mixes : Mixes (xorBlock : Block n → Block n → Block n) := by
  constructor
  intro a b
  have hl := a.2.trans b.2.symm
  apply Subtype.ext
  apply List.ext_getElem
  · simp only [xorBlock, List.length_zipWith, hl, Nat.min_self]
  · intro i _ _
    simp only [xorBlock, List.getElem_zipWith]
    rw [UInt8.xor_assoc, UInt8.xor_self, UInt8.xor_zero]

@[simp] theorem xor_zeros (a : Block n) : xorBlock a (ofOctets n (List.replicate n 0)) = a := by
  apply Subtype.ext
  apply List.ext_getElem
  · rw [(xorBlock a _).2, a.2]
  · intro i _ _
    simp [xorBlock, ofOctets]

def split (n : Nat) : Nat → Octets → List (Block n)
  | 0, _ => []
  | k + 1, octets => ofOctets n (octets.take n) :: split n k (octets.drop n)

def blocks (n : Nat) (octets : Octets) : List (Block n) := split n (octets.length / n) octets

def join (bs : List (Block n)) : Octets := (bs.map Subtype.val).flatten

@[simp] theorem length_split (k : Nat) (octets : Octets) : (split n k octets).length = k := by
  induction k generalizing octets with
  | zero => rfl
  | succ k ih => rw [split, List.length_cons, ih]

@[simp] theorem length_join (bs : List (Block n)) : (join bs).length = bs.length * n := by
  induction bs with
  | nil => simp [join]
  | cons b bs ih =>
    have hcons : join (b :: bs) = b.1 ++ join bs := rfl
    rw [hcons, List.length_append, ih, b.2, List.length_cons, Nat.succ_mul, Nat.add_comm]

theorem split_join (bs : List (Block n)) : split n bs.length (join bs) = bs := by
  induction bs with
  | nil => rfl
  | cons b bs ih =>
    have hcons : join (b :: bs) = b.1 ++ join bs := rfl
    rw [List.length_cons, split, hcons, List.take_left' b.2, List.drop_left' b.2, ofOctets_block, ih]

theorem blocks_join (hn : 0 < n) (bs : List (Block n)) : blocks n (join bs) = bs := by
  rw [blocks, length_join, Nat.mul_div_cancel _ hn, split_join]

/-! ## The two directions on octets -/

variable (E : Equiv.Perm (Block n))

def encryptOctets (iv octets : Octets) : Octets × Octets :=
  let r := encrypt xorBlock E (ofOctets n iv) (blocks n octets)
  (join r.1, r.2.1)

def decryptOctets (iv octets : Octets) : Octets × Octets :=
  let r := decrypt xorBlock E (ofOctets n iv) (blocks n octets)
  (join r.1, r.2.1)

theorem length_encryptOctets (iv octets : Octets) : (encryptOctets E iv octets).1.length = octets.length / n * n := by
  rw [encryptOctets, length_join, length_encrypt, blocks, length_split]

theorem length_decryptOctets (iv octets : Octets) : (decryptOctets E iv octets).1.length = octets.length / n * n := by
  rw [decryptOctets, length_join, length_decrypt, blocks, length_split]

theorem join_split (k : Nat) {octets : Octets} (h : octets.length = k * n) : join (split n k octets) = octets := by
  induction k generalizing octets with
  | zero =>
    rw [Nat.zero_mul] at h
    exact (List.length_eq_zero_iff.mp h).symm
  | succ k ih =>
    rw [Nat.succ_mul] at h
    have hhead : (octets.take n).length = n := by rw [List.length_take]; omega
    have htail : (octets.drop n).length = k * n := by rw [List.length_drop]; omega
    have hcons : join (split n (k + 1) octets) = (ofOctets n (octets.take n)).1 ++ join (split n k (octets.drop n)) := rfl
    rw [hcons, ofOctets_val hhead, ih htail, List.take_append_drop]

theorem join_blocks {octets : Octets} (h : n ∣ octets.length) : join (blocks n octets) = octets :=
  join_split _ (Nat.div_mul_cancel h).symm

theorem blocks_one (hn : 0 < n) (b : Block n) : blocks n b.1 = [b] := by
  have hj : join [b] = b.1 := List.append_nil b.1
  rw [← hj, blocks_join hn]

/-- One block decrypts to what encrypts to it. -/
theorem decryptOctets_block (hn : 0 < n) (iv : Octets) (c p : Block n) :
    (decryptOctets E iv c.1).1 = p.1 ↔ c.1 = (encryptOctets E iv p.1).1 := by
  have hd := encrypt_decrypt E xor_mixes (ofOctets n iv) [c]
  have he := decrypt_encrypt E xor_mixes (ofOctets n iv) [p]
  have hjoin : ∀ b : Block n, join [b] = b.1 := fun b => List.append_nil b.1
  simp only [decryptOctets, encryptOctets, blocks_one hn]
  constructor
  · intro h
    have hp : (decrypt xorBlock E (ofOctets n iv) [c]).1 = [p] := by
      rw [← blocks_one hn p, ← h, blocks_join hn]
    rw [hp] at hd
    rw [← hjoin c, hd]
  · intro h
    have hc : (encrypt xorBlock E (ofOctets n iv) [p]).1 = [c] := by
      rw [← blocks_one hn c, h, blocks_join hn]
    rw [hc] at he
    rw [← hjoin p, he]

/-- Whole blocks that are encrypted decrypt to what they were, and leave the same chaining value. -/
theorem decryptOctets_encryptOctets (hn : 0 < n) (iv : Octets) {octets : Octets} (h : n ∣ octets.length) :
    decryptOctets E iv (encryptOctets E iv octets).1 = (octets, (encryptOctets E iv octets).2) := by
  simp only [decryptOctets, encryptOctets, blocks_join hn, decrypt_encrypt E xor_mixes, join_blocks h]

/-- One block that is decrypted is the chaining value it leaves. -/
theorem decryptOctets_iv (hn : 0 < n) (iv : Octets) (c : Block n) : (decryptOctets E iv c.1).2 = c.1 := by
  simp only [decryptOctets, blocks_one hn]
  rfl

theorem drop_join {bs : List (Block n)} (hne : bs ≠ []) (b : Block n) :
    (join bs).drop ((join bs).length - n) = (bs.getLastD b).1 := by
  obtain ⟨front, last, rfl⟩ := (List.eq_nil_or_concat bs).resolve_left hne
  have hj : join (front ++ [last]) = join front ++ last.1 := by simp [join]
  rw [List.concat_eq_append, List.getLastD_concat, hj, List.length_append, last.2, Nat.add_sub_cancel, List.drop_left]

/-- The last octets that are encrypted are the chaining value they leave. -/
theorem encryptOctets_iv (hn : 0 < n) (iv : Octets) {octets : Octets} (h : n ≤ octets.length) :
    (encryptOctets E iv octets).1.drop ((encryptOctets E iv octets).1.length - n) = (encryptOctets E iv octets).2 := by
  have hq : 0 < octets.length / n := Nat.div_pos h hn
  have hl : (encrypt xorBlock E (ofOctets n iv) (blocks n octets)).1.length = octets.length / n := by
    rw [length_encrypt, blocks, length_split]
  have hne : (encrypt xorBlock E (ofOctets n iv) (blocks n octets)).1 ≠ [] := by
    intro he
    rw [he, List.length_nil] at hl
    omega
  rw [encryptOctets, encrypt_iv]
  exact drop_join hne _

end Blocks

end DfcFlipper.Lib.Cbc
