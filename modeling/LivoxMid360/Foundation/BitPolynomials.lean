/- digest: Words as polynomials over the two-element field, and what a shift register leaves. -/

import LivoxMid360.Foundation.ShiftRegister
import Mathlib.Algebra.CharP.Two
import Mathlib.Algebra.Field.ZMod
import Mathlib.Algebra.Polynomial.Div
import Mathlib.RingTheory.AdjoinRoot
import Mathlib.Tactic.Ring

set_option autoImplicit false
set_option relaxedAutoImplicit false

namespace LivoxMid360.Foundation.BitPolynomials

open Polynomial
open ShiftRegister

variable {w : Nat}

/-- The polynomial whose coefficient of degree `i` is bit `i` of the word. -/
noncomputable def ofBits (c : BitVec w) : (ZMod 2)[X] :=
  ∑ i ∈ Finset.range w, if c.getLsbD i then X ^ i else 0

theorem coeff_ofBits (c : BitVec w) (n : Nat) :
    (ofBits c).coeff n = if c.getLsbD n then 1 else 0 := by
  have term (i : Nat) : (if c.getLsbD i then (X : (ZMod 2)[X]) ^ i else 0).coeff n =
      if n = i then if c.getLsbD i then 1 else 0 else 0 := by
    cases c.getLsbD i with
    | false => simp
    | true => simp [coeff_X_pow]
  rw [ofBits, finsetSum_coeff, Finset.sum_congr rfl fun i _ => term i, Finset.sum_ite_eq]
  by_cases inside : n < w
  · rw [if_pos (Finset.mem_range.mpr inside)]
  · rw [if_neg (by simpa using inside), BitVec.getLsbD_of_ge c n (by omega)]
    rfl

theorem ofBits_xor (a b : BitVec w) : ofBits (a ^^^ b) = ofBits a + ofBits b := by
  ext n
  rw [coeff_add, coeff_ofBits, coeff_ofBits, coeff_ofBits, BitVec.getLsbD_xor]
  cases a.getLsbD n with
  | false => simp
  | true =>
    cases b.getLsbD n with
    | false => simp
    | true => exact (CharTwo.add_self_eq_zero 1).symm

theorem degree_ofBits_lt (c : BitVec w) : (ofBits c).degree < w := by
  rw [degree_lt_iff_coeff_zero]
  intro n above
  rw [coeff_ofBits, BitVec.getLsbD_of_ge c n above]
  rfl

theorem ofBits_allOnes : ofBits (BitVec.allOnes w) = ∑ i ∈ Finset.range w, X ^ i := by
  refine Finset.sum_congr rfl fun i inside => ?_
  rw [BitVec.getLsbD_allOnes, decide_eq_true (Finset.mem_range.mp inside), if_pos rfl]

/-- The feedback word together with the bit that falls out. -/
noncomputable def modulus (poly : BitVec w) : (ZMod 2)[X] := X ^ w + ofBits poly

theorem modulus_monic (poly : BitVec w) : (modulus poly).Monic :=
  monic_X_pow_add (degree_ofBits_lt poly)

theorem degree_modulus (poly : BitVec w) : (modulus poly).degree = w := by
  have below : (ofBits poly).degree < (X ^ w : (ZMod 2)[X]).degree := by
    rw [degree_X_pow]
    exact degree_ofBits_lt poly
  rw [modulus, degree_add_eq_left_of_degree_lt below, degree_X_pow]

theorem ofBits_modByMonic (poly c : BitVec w) : ofBits c %ₘ modulus poly = ofBits c := by
  rw [modByMonic_eq_self_iff (modulus_monic poly), degree_modulus]
  exact degree_ofBits_lt c

theorem ofBits_shiftLeft_setWidth {v k : Nat} (c : BitVec v) (fits : v + k ≤ w) :
    ofBits (c.setWidth w <<< k) = X ^ k * ofBits c := by
  ext n
  rw [coeff_ofBits, coeff_X_pow_mul', coeff_ofBits, BitVec.getLsbD_shiftLeft,
    BitVec.getLsbD_setWidth]
  by_cases low : n < k
  · simp [low, show ¬ k ≤ n by omega]
  · by_cases inside : n < w
    · simp [low, inside, show k ≤ n by omega, show n - k < w by omega]
    · simp [low, inside, BitVec.getLsbD_of_ge c (n - k) (by omega)]

theorem ofBits_succ (c : BitVec (w + 1)) :
    ofBits c = ofBits (c.setWidth w) + if c.getLsbD w then X ^ w else 0 := by
  rw [ofBits, ofBits, Finset.sum_range_succ]
  apply congrArg (· + _)
  refine Finset.sum_congr rfl fun i inside => ?_
  rw [BitVec.getLsbD_setWidth, decide_eq_true (Finset.mem_range.mp inside), Bool.true_and]

theorem ofBits_shiftLeft_one (c : BitVec w) :
    ofBits (c <<< 1) + (if c.msb then X ^ w else 0) = X * ofBits c := by
  have whole : ofBits (c.setWidth (w + 1) <<< 1) = X ^ 1 * ofBits c :=
    ofBits_shiftLeft_setWidth c le_rfl
  have low : (c.setWidth (w + 1) <<< 1).setWidth w = c <<< 1 := by
    apply BitVec.eq_of_getLsbD_eq
    intro i hi
    simp [hi]
  have top : (c.setWidth (w + 1) <<< 1).getLsbD w = c.msb := by
    rw [BitVec.msb_eq_getLsbD_last]
    cases w with
    | zero => simp
    | succ w => simp
  rw [ofBits_succ, low, top, pow_one] at whole
  exact whole

/-- A shift towards the top multiplies by the variable, less a multiple of the modulus. -/
theorem ofBits_up (poly c : BitVec w) :
    ofBits (up poly c) + (if c.msb then modulus poly else 0) = X * ofBits c := by
  rw [← ofBits_shiftLeft_one, up]
  cases c.msb with
  | false => rfl
  | true =>
    rw [if_pos rfl, if_pos rfl, if_pos rfl, ofBits_xor, modulus]
    calc
      _ = ofBits (c <<< 1) + X ^ w + (ofBits poly + ofBits poly) := by ring
      _ = ofBits (c <<< 1) + X ^ w := by rw [CharTwo.add_self_eq_zero, add_zero]

/-- The bytes one after the other, each from its top bit. -/
noncomputable def message (data : List UInt8) : (ZMod 2)[X] :=
  data.foldl (fun m b => m * X ^ 8 + ofBits b.toBitVec) 0

theorem message_concat (data : List UInt8) (b : UInt8) :
    message (data ++ [b]) = message data * X ^ 8 + ofBits b.toBitVec :=
  List.foldl_concat _ _ _ _

section Residues

variable (poly : BitVec w)

theorem residue_up (c : BitVec w) : AdjoinRoot.mk (modulus poly) (ofBits (up poly c)) =
    AdjoinRoot.mk (modulus poly) (X * ofBits c) := by
  rw [← ofBits_up, map_add]
  cases c.msb with
  | false => rw [if_neg (by decide), map_zero, add_zero]
  | true => rw [if_pos rfl, AdjoinRoot.mk_self, add_zero]

theorem residue_iterate_up (n : Nat) (c : BitVec w) :
    AdjoinRoot.mk (modulus poly) (ofBits ((up poly)^[n] c)) =
      AdjoinRoot.mk (modulus poly) (X ^ n * ofBits c) := by
  induction n with
  | zero => rw [Function.iterate_zero_apply, pow_zero, one_mul]
  | succ n ih =>
    rw [Function.iterate_succ_apply', residue_up, map_mul, ih, ← map_mul, ← mul_assoc, pow_succ']

variable (bottom : poly.getLsbD 0 = true) (wide : 8 ≤ w)

theorem residue_absorb (s : BitVec w) (b : UInt8) :
    AdjoinRoot.mk (modulus poly) (ofBits ((highEntry poly bottom wide).absorb s b)) =
      AdjoinRoot.mk (modulus poly) (X ^ 8 * ofBits s + X ^ w * ofBits b.toBitVec) := by
  have entered : ofBits ((highEntry poly bottom wide).feed b) =
      X ^ (w - 8) * ofBits b.toBitVec := ofBits_shiftLeft_setWidth _ (by omega)
  have above : (X ^ 8 * X ^ (w - 8) : (ZMod 2)[X]) = X ^ w := by
    rw [← pow_add, Nat.add_sub_cancel' wide]
  rw [← above, mul_assoc, ← mul_add, ← entered, ← ofBits_xor]
  exact residue_iterate_up poly 8 _

theorem residue_foldl (s : BitVec w) (data : List UInt8) :
    AdjoinRoot.mk (modulus poly) (ofBits (data.foldl (highEntry poly bottom wide).absorb s)) =
      AdjoinRoot.mk (modulus poly) (message data * X ^ w + ofBits s * X ^ (8 * data.length)) := by
  induction data using List.reverseRecOn with
  | nil => simp [message]
  | append_singleton data b ih =>
    rw [List.foldl_concat, residue_absorb, map_add, map_mul, ih, ← map_mul, ← map_add,
      message_concat, List.length_append, List.length_singleton]
    apply congrArg
    ring

/-- The register holds the remainder of the message above the word and of its first state
above the message. -/
theorem ofBits_foldl_absorb (s : BitVec w) (data : List UInt8) :
    ofBits (data.foldl (highEntry poly bottom wide).absorb s) =
      (message data * X ^ w + ofBits s * X ^ (8 * data.length)) %ₘ modulus poly := by
  rw [← ofBits_modByMonic poly]
  exact modByMonic_eq_of_dvd_sub (modulus_monic poly)
    (AdjoinRoot.mk_eq_mk.mp (residue_foldl poly bottom wide s data))

end Residues

theorem reverse_xor (a b : BitVec w) : (a ^^^ b).reverse = a.reverse ^^^ b.reverse := by
  apply BitVec.eq_of_getLsbD_eq
  intro i hi
  rw [BitVec.getLsbD_xor, BitVec.getLsbD_reverse, BitVec.getLsbD_reverse, BitVec.getLsbD_reverse,
    BitVec.getMsbD_xor]

theorem reverse_allOnes : (BitVec.allOnes w).reverse = BitVec.allOnes w := by
  apply BitVec.eq_of_getLsbD_eq
  intro i hi
  rw [BitVec.getLsbD_reverse, BitVec.getMsbD_allOnes, BitVec.getLsbD_allOnes]

theorem reverse_ushiftRight (c : BitVec w) (n : Nat) : (c >>> n).reverse = c.reverse <<< n := by
  apply BitVec.eq_of_getLsbD_eq
  intro i hi
  rw [BitVec.getLsbD_reverse, BitVec.getMsbD_ushiftRight, BitVec.getLsbD_shiftLeft,
    BitVec.getLsbD_reverse]
  simp [hi]

theorem reverse_down (poly c : BitVec w) :
    (down poly c).reverse = up poly.reverse c.reverse := by
  rw [down, up, BitVec.msb_reverse, ← reverse_ushiftRight]
  cases c.getLsbD 0 with
  | false => rfl
  | true => exact reverse_xor _ _

def mirrored (b : UInt8) : UInt8 := ⟨b.toBitVec.reverse⟩

theorem reverse_feed (wide : 8 ≤ w) (b : UInt8) :
    (b.toBitVec.setWidth w).reverse = (mirrored b).toBitVec.setWidth w <<< (w - 8) := by
  apply BitVec.eq_of_getLsbD_eq
  intro i hi
  rw [BitVec.getLsbD_reverse, BitVec.getMsbD_eq_getLsbD, BitVec.getLsbD_setWidth,
    BitVec.getLsbD_shiftLeft, BitVec.getLsbD_setWidth, mirrored, BitVec.getLsbD_reverse,
    BitVec.getMsbD_eq_getLsbD]
  by_cases low : i < w - 8
  · simp [low, BitVec.getLsbD_of_ge b.toBitVec (w - 1 - i) (by omega)]
  · have place : 8 - 1 - (i - (w - 8)) = w - 1 - i := by omega
    simp [low, hi, place, show w - 1 - i < w by omega, show i - (w - 8) < w by omega,
      show i - (w - 8) < 8 by omega]

section Mirror

variable {poly image : BitVec w} (mirror : poly.reverse = image) (top : poly.msb = true)
  (bottom : image.getLsbD 0 = true) (wide : 8 ≤ w)

include mirror

theorem reverse_absorb (s : BitVec w) (b : UInt8) :
    ((lowEntry poly top wide).absorb s b).reverse =
      (highEntry image bottom wide).absorb s.reverse (mirrored b) := by
  have shifts := Function.Semiconj.iterate_right (f := BitVec.reverse) (reverse_down poly) 8
  show ((down poly)^[8] (s ^^^ b.toBitVec.setWidth w)).reverse = _
  rw [shifts, reverse_xor, reverse_feed wide, mirror]
  rfl

/-- A register with its entry at bit 0 is the mirror image of one with its entry at the top. -/
theorem reverse_foldl_absorb (s : BitVec w) (data : List UInt8) :
    (data.foldl (lowEntry poly top wide).absorb s).reverse =
      (data.map mirrored).foldl (highEntry image bottom wide).absorb s.reverse := by
  rw [List.foldl_map]
  exact (List.foldl_hom BitVec.reverse fun s b =>
    (reverse_absorb mirror top bottom wide s b).symm).symm

end Mirror

end LivoxMid360.Foundation.BitPolynomials
