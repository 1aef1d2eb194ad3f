/- digest: Flipped bits as error polynomials, and the flips that a shift register notices. -/

import LivoxMid360.Foundation.BitPolynomials
import LivoxMid360.Foundation.LittleEndian
import Mathlib.Algebra.Polynomial.EraseLead
import Mathlib.GroupTheory.OrderOfElement

set_option autoImplicit false
set_option relaxedAutoImplicit false

namespace LivoxMid360.Foundation.BitErrors

open Polynomial
open ShiftRegister
open BitPolynomials
open LittleEndian (bytesOfNat)

variable {w : Nat}

def weight (c : BitVec w) : Nat := ((Finset.range w).filter fun i => c.getLsbD i = true).card

/-- The number of places in which two byte strings of one length differ. -/
def flips (a b : List UInt8) : Nat :=
  (List.zipWith (fun x y => weight (x.toBitVec ^^^ y.toBitVec)) a b).sum

theorem flips_append {a b c d : List UInt8} (same : a.length = b.length) :
    flips (a ++ c) (b ++ d) = flips a b + flips c d := by
  rw [flips, List.zipWith_append same, List.sum_append]
  rfl

theorem flips_take_add_drop (n : Nat) (a b : List UInt8) :
    flips (a.take n) (b.take n) + flips (a.drop n) (b.drop n) = flips a b := by
  rw [flips, flips, ← List.take_zipWith, ← List.drop_zipWith, List.sum_take_add_sum_drop]
  rfl

@[simp] theorem flips_self (a : List UInt8) : flips a a = 0 := by
  induction a with
  | nil => rfl
  | cons x a ih =>
    rw [flips, List.zipWith_cons_cons, List.sum_cons, BitVec.xor_self]
    exact (Nat.add_eq_zero_iff.mpr ⟨by simp [weight], ih⟩)

theorem support_ofBits (c : BitVec w) :
    (ofBits c).support = (Finset.range w).filter fun i => c.getLsbD i = true := by
  ext i
  rw [mem_support_iff, coeff_ofBits, Finset.mem_filter, Finset.mem_range]
  by_cases inside : i < w
  · cases c.getLsbD i with
    | false => simp
    | true => simp [inside]
  · simp [inside, BitVec.getLsbD_of_ge c i (by omega)]

theorem card_support_ofBits (c : BitVec w) : (ofBits c).support.card = weight c :=
  congrArg Finset.card (support_ofBits c)

theorem weight_reverse (c : BitVec w) : weight c.reverse = weight c := by
  rw [weight, weight, Finset.card_filter, Finset.card_filter, ← Finset.sum_range_reflect]
  refine Finset.sum_congr rfl fun i inside => ?_
  have low := Finset.mem_range.mp inside
  rw [BitVec.getLsbD_reverse, BitVec.getMsbD_eq_getLsbD, decide_eq_true (by omega),
    Bool.true_and, show w - 1 - (w - 1 - i) = i by omega]

theorem weight_eq_zero_iff {c : BitVec w} : weight c = 0 ↔ c = 0#w := by
  rw [weight, Finset.card_eq_zero, Finset.filter_eq_empty_iff]
  constructor
  · intro clear
    apply BitVec.eq_of_getLsbD_eq
    intro i inside
    rw [BitVec.getLsbD_zero]
    exact Bool.eq_false_iff.mpr (clear (Finset.mem_range.mpr inside))
  · rintro rfl i _
    rw [BitVec.getLsbD_zero]
    decide

theorem eq_of_flips_eq_zero {a b : List UInt8} (same : a.length = b.length)
    (none : flips a b = 0) : a = b := by
  induction a generalizing b with
  | nil => exact (List.length_eq_zero_iff.mp same.symm).symm
  | cons x a ih =>
    cases b with
    | nil => cases same
    | cons y b =>
      rw [flips, List.zipWith_cons_cons, List.sum_cons] at none
      obtain ⟨head, tail⟩ := Nat.add_eq_zero_iff.mp none
      rw [ih (Nat.succ.inj same) tail,
        UInt8.toBitVec_inj.mp (BitVec.xor_eq_zero_iff.mp (weight_eq_zero_iff.mp head))]

theorem flips_map_mirrored (a b : List UInt8) :
    flips (a.map mirrored) (b.map mirrored) = flips a b := by
  rw [flips, List.zipWith_map]
  apply congrArg
  refine congrArg (List.zipWith · a b) (funext fun x => funext fun y => ?_)
  rw [mirrored, mirrored, ← reverse_xor, weight_reverse]

theorem card_support_beside (p : (ZMod 2)[X]) {q : (ZMod 2)[X]} {n : Nat} (low : q.degree < n) :
    (p * X ^ n + q).support.card = p.support.card + q.support.card := by
  have coeff (i : Nat) : (p * X ^ n + q).coeff i =
      if n ≤ i then p.coeff (i - n) else q.coeff i := by
    rw [coeff_add, coeff_mul_X_pow']
    by_cases high : n ≤ i
    · rw [if_pos high, if_pos high, (degree_lt_iff_coeff_zero q n).mp low i high, add_zero]
    · rw [if_neg high, if_neg high, zero_add]
  -- the shifted part and the low part have no exponent in common
  have apart : Disjoint (p.support.map (addRightEmbedding n)) q.support := by
    rw [Finset.disjoint_left]
    intro i high present
    obtain ⟨j, -, rfl⟩ := Finset.mem_map.mp high
    exact mem_support_iff.mp present
      ((degree_lt_iff_coeff_zero q n).mp low _ (Nat.le_add_left n j))
  have union : (p * X ^ n + q).support = p.support.map (addRightEmbedding n) ∪ q.support := by
    ext i
    rw [mem_support_iff, coeff, Finset.mem_union, Finset.mem_map]
    by_cases high : n ≤ i
    · rw [if_pos high, ← mem_support_iff]
      constructor
      · intro present
        exact .inl ⟨i - n, present, Nat.sub_add_cancel high⟩
      · rintro (⟨j, present, rfl⟩ | present)
        · rwa [addRightEmbedding_apply, Nat.add_sub_cancel]
        · exact absurd ((degree_lt_iff_coeff_zero q n).mp low i high)
            (mem_support_iff.mp present)
    · rw [if_neg high, ← mem_support_iff]
      constructor
      · exact .inr
      · rintro (⟨j, -, rfl⟩ | present)
        · exact absurd (Nat.le_add_left n j) high
        · exact present
  rw [union, Finset.card_union_of_disjoint apart, Finset.card_map]

theorem flips_bytesOfNat (k m n : Nat) :
    flips (bytesOfNat k m) (bytesOfNat k n) =
      ∑ i ∈ Finset.range (8 * k), if (m ^^^ n).testBit i then 1 else 0 := by
  induction k generalizing m n with
  | zero => rfl
  | succ k ih =>
    have low : weight ((UInt8.ofNat m).toBitVec ^^^ (UInt8.ofNat n).toBitVec) =
        ∑ i ∈ Finset.range 8, if (m ^^^ n).testBit i then 1 else 0 := by
      rw [weight, Finset.card_filter]
      refine Finset.sum_congr rfl fun i inside => ?_
      have place := Finset.mem_range.mp inside
      have digit (l : Nat) : (UInt8.ofNat l).toBitVec.getLsbD i = l.testBit i := by
        show (l % 2 ^ 8).testBit i = l.testBit i
        rw [Nat.testBit_mod_two_pow, decide_eq_true place, Bool.true_and]
      rw [BitVec.getLsbD_xor, Nat.testBit_xor, digit, digit]
    have high (i : Nat) : (m / 256 ^^^ n / 256).testBit i = (m ^^^ n).testBit (8 + i) := by
      rw [Nat.testBit_xor, Nat.testBit_xor, show (256 : Nat) = 2 ^ 8 from rfl,
        Nat.testBit_div_two_pow, Nat.testBit_div_two_pow, Nat.add_comm i 8]
    rw [bytesOfNat, bytesOfNat, flips, List.zipWith_cons_cons, List.sum_cons, low,
      show 8 * (k + 1) = 8 + 8 * k by ring, Finset.sum_range_add]
    apply congrArg
    refine (ih (m / 256) (n / 256)).trans (Finset.sum_congr rfl fun i _ => ?_)
    rw [high]

theorem flips_words {k : Nat} (c d : BitVec (8 * k)) :
    flips (bytesOfNat k c.toNat) (bytesOfNat k d.toNat) = weight (c ^^^ d) := by
  rw [flips_bytesOfNat, weight, Finset.card_filter]
  rfl

theorem message_append (xs ys : List UInt8) :
    message (xs ++ ys) = message xs * X ^ (8 * ys.length) + message ys := by
  induction ys using List.reverseRecOn with
  | nil => simp [message]
  | append_singleton ys b ih =>
    rw [← List.append_assoc, message_concat, message_concat, ih, List.length_append,
      List.length_singleton]
    ring

theorem message_cons (b : UInt8) (data : List UInt8) :
    message (b :: data) = ofBits b.toBitVec * X ^ (8 * data.length) + message data := by
  have single : message [b] = ofBits b.toBitVec := by simp [message]
  rw [← single, ← message_append]
  rfl

theorem degree_message_lt (data : List UInt8) :
    (message data).degree < (8 * data.length : Nat) := by
  rw [degree_lt_iff_coeff_zero]
  induction data with
  | nil =>
    intro i _
    rfl
  | cons b data ih =>
    intro i high
    rw [List.length_cons] at high
    rw [message_cons, coeff_add, coeff_mul_X_pow', if_pos (by omega), coeff_ofBits,
      BitVec.getLsbD_of_ge _ _ (by omega), ih i (by omega)]
    exact add_zero _

theorem card_support_message_add {a b : List UInt8} (same : a.length = b.length) :
    (message a + message b).support.card = flips a b := by
  induction a generalizing b with
  | nil =>
    obtain rfl := List.length_eq_zero_iff.mp same.symm
    simp [message, flips]
  | cons x a ih =>
    cases b with
    | nil => cases same
    | cons y b =>
      have rest := Nat.succ.inj same
      have split : message (x :: a) + message (y :: b) =
          ofBits (x.toBitVec ^^^ y.toBitVec) * X ^ (8 * a.length) + (message a + message b) := by
        rw [message_cons, message_cons, ofBits_xor, rest]
        ring
      have low : (message a + message b).degree < (8 * a.length : Nat) :=
        (degree_add_le _ _).trans_lt (max_lt (degree_message_lt a) (rest ▸ degree_message_lt b))
      rw [split, card_support_beside _ low, card_support_ofBits, ih rest]
      rfl

/-- What separates two messages that carry the words `s` and `t`. -/
noncomputable def errors (a b : List UInt8) (s t : BitVec w) : (ZMod 2)[X] :=
  (message a + message b) * X ^ w + ofBits (s ^^^ t)

theorem card_support_errors {a b : List UInt8} (same : a.length = b.length) (s t : BitVec w) :
    (errors a b s t).support.card = flips a b + weight (s ^^^ t) := by
  rw [errors, card_support_beside _ (degree_ofBits_lt _), card_support_message_add same,
    card_support_ofBits]

theorem coeff_errors_eq_zero {a b : List UInt8} (same : a.length = b.length) (s t : BitVec w)
    {i : Nat} (high : 8 * a.length + w ≤ i) : (errors a b s t).coeff i = 0 := by
  have messages : (message a + message b).degree < (8 * a.length : Nat) :=
    (degree_add_le _ _).trans_lt (max_lt (degree_message_lt a) (same ▸ degree_message_lt b))
  rw [errors, coeff_add, coeff_mul_X_pow', if_pos (by omega), coeff_ofBits,
    BitVec.getLsbD_of_ge _ _ (by omega),
    (degree_lt_iff_coeff_zero _ _).mp messages (i - w) (by omega)]
  exact add_zero _

/-- Words that a register computes from the messages leave an error that its modulus divides. -/
theorem modulus_dvd_errors (poly : BitVec w) (bottom : poly.getLsbD 0 = true) (wide : 8 ≤ w)
    (init : BitVec w) {a b : List UInt8} (same : a.length = b.length) :
    modulus poly ∣ errors a b (a.foldl (highEntry poly bottom wide).absorb init)
      (b.foldl (highEntry poly bottom wide).absorb init) := by
  rw [← AdjoinRoot.mk_eq_zero, errors, ofBits_xor, map_add, map_add, residue_foldl, residue_foldl,
    same, ← map_add, ← map_add]
  have twice : (message a + message b) * X ^ w +
      (message a * X ^ w + ofBits init * X ^ (8 * b.length) +
        (message b * X ^ w + ofBits init * X ^ (8 * b.length))) = (0 : (ZMod 2)[X]) := by
    calc
      _ = ((message a + message b) * X ^ w + ofBits init * X ^ (8 * b.length)) +
          ((message a + message b) * X ^ w + ofBits init * X ^ (8 * b.length)) := by ring
      _ = 0 := CharTwo.add_self_eq_zero _
  rw [twice, map_zero]

private theorem eq_one_of_ne_zero : ∀ c : ZMod 2, c ≠ 0 → c = 1 := by decide

theorem even_card_support {p e : (ZMod 2)[X]} (factor : p.eval 1 = 0) (divides : p ∣ e) :
    Even e.support.card := by
  obtain ⟨q, rfl⟩ := divides
  have root : (p * q).eval 1 = 0 := by rw [eval_mul, factor, zero_mul]
  rw [← ZMod.natCast_eq_zero_iff_even, ← root, eval_eq_sum, sum_def, Finset.card_eq_sum_ones,
    Nat.cast_sum]
  refine Finset.sum_congr rfl fun i present => ?_
  rw [eq_one_of_ne_zero _ (mem_support_iff.mp present), one_pow, mul_one, Nat.cast_one]

/-- A modulus notices one flip, and two that are closer than the order of its root. -/
theorem two_lt_card_support {p e : (ZMod 2)[X]} {n : Nat} (order : orderOf (AdjoinRoot.root p) = n)
    (nontrivial : 1 < n) (short : ∀ i, n ≤ i → e.coeff i = 0) (divides : p ∣ e)
    (flipped : e.support.card ≠ 0) : 2 < e.support.card := by
  have cycle : AdjoinRoot.root p ^ n = 1 := order ▸ pow_orderOf_eq_one _
  have unit : IsUnit (AdjoinRoot.root p) := IsUnit.of_pow_eq_one cycle (by omega)
  have distinct : (1 : AdjoinRoot p) ≠ 0 := by
    intro collapsed
    have trivial : AdjoinRoot.root p = 1 := eq_of_zero_eq_one collapsed.symm _ _
    rw [trivial, orderOf_one] at order
    omega
  have zero : AdjoinRoot.mk p e = 0 := AdjoinRoot.mk_eq_zero.mpr divides
  -- one flip is a power of the root, which is a unit
  have single : e.support.card ≠ 1 := by
    intro one
    obtain ⟨k, x, hx, rfl⟩ := card_support_eq_one.mp one
    rw [eq_one_of_ne_zero x hx, C_1, one_mul, map_pow, AdjoinRoot.mk_X] at zero
    have power := unit.pow k
    rw [zero, isUnit_zero_iff] at power
    exact distinct power.symm
  -- two flips would make the root return before its order
  have double : e.support.card ≠ 2 := by
    intro two
    obtain ⟨k, m, below, x, y, hx, hy, rfl⟩ := card_support_eq_two.mp two
    obtain ⟨d, rfl⟩ := Nat.exists_eq_add_of_lt below
    rw [eq_one_of_ne_zero x hx, eq_one_of_ne_zero y hy, C_1, one_mul, one_mul] at divides short
    have high : k + d + 1 < n := by
      by_contra far
      have top := short _ (Nat.le_of_not_lt far)
      rw [coeff_add, coeff_X_pow, coeff_X_pow, if_neg (by omega), if_pos rfl, zero_add] at top
      exact one_ne_zero top
    have equal : AdjoinRoot.root p ^ k * 1 =
        AdjoinRoot.root p ^ k * AdjoinRoot.root p ^ (d + 1) := by
      rw [mul_one, ← pow_add, ← AdjoinRoot.mk_X, ← map_pow, ← map_pow]
      exact AdjoinRoot.mk_eq_mk.mpr (by rwa [CharTwo.sub_eq_add])
    have back := (unit.pow k).mul_left_cancel equal
    have divisor := orderOf_dvd_of_pow_eq_one back.symm
    have bound := Nat.le_of_dvd (Nat.succ_pos d) divisor
    omega
  omega

/-- The product of two words modulo the feedback word, from the low bits of the second. -/
def product (poly : BitVec w) : Nat → BitVec w → BitVec w → BitVec w
  | 0, _, _ => 0#w
  | n + 1, a, b => (if b.getLsbD 0 then a else 0#w) ^^^ product poly n (up poly a) (b >>> 1)

/-- A power of the variable modulo the feedback word, by squaring; the first number bounds
the digits of the exponent. -/
def power (poly : BitVec w) : Nat → Nat → BitVec w
  | 0, _ => 1#w
  | f + 1, n =>
    let r := power poly f (n / 2)
    if n % 2 = 1 then up poly (product poly w r r) else product poly w r r

section Powers

variable (poly : BitVec w)

theorem ofBits_injective : Function.Injective (ofBits : BitVec w → (ZMod 2)[X]) := by
  intro a b same
  apply BitVec.eq_of_getLsbD_eq
  intro i _
  have coeff := congrArg (Polynomial.coeff · i) same
  simp only [coeff_ofBits] at coeff
  cases ha : a.getLsbD i <;> cases hb : b.getLsbD i <;> simp [ha, hb] at coeff ⊢

theorem residue_injective {a b : BitVec w}
    (same : AdjoinRoot.mk (modulus poly) (ofBits a) = AdjoinRoot.mk (modulus poly) (ofBits b)) :
    a = b := by
  apply ofBits_injective
  rw [← ofBits_modByMonic poly a, ← ofBits_modByMonic poly b]
  exact modByMonic_eq_of_dvd_sub (modulus_monic poly) (AdjoinRoot.mk_eq_mk.mp same)

theorem residue_product (n : Nat) (a b : BitVec w) :
    AdjoinRoot.mk (modulus poly) (ofBits (product poly n a b)) =
      AdjoinRoot.mk (modulus poly)
        (ofBits a * ∑ i ∈ Finset.range n, if b.getLsbD i then X ^ i else 0) := by
  induction n generalizing a b with
  | zero => simp [product, ofBits]
  | succ n ih =>
    have digits : (∑ i ∈ Finset.range n,
        if (b >>> 1).getLsbD i then (X : (ZMod 2)[X]) ^ i else 0) * X =
          ∑ i ∈ Finset.range n, if b.getLsbD (i + 1) then X ^ (i + 1) else 0 := by
      rw [Finset.sum_mul]
      refine Finset.sum_congr rfl fun i _ => ?_
      rw [BitVec.getLsbD_ushiftRight, Nat.add_comm 1 i]
      cases b.getLsbD (i + 1) with
      | false => exact zero_mul X
      | true => exact (pow_succ X i).symm
    have low : ofBits (if b.getLsbD 0 then a else 0#w) =
        ofBits a * if b.getLsbD 0 then X ^ 0 else 0 := by
      cases b.getLsbD 0 with
      | false => simp [ofBits]
      | true => simp
    rw [product, ofBits_xor, map_add, ih, Finset.sum_range_succ', ← digits, low, mul_add, map_add,
      map_mul _ (ofBits (up poly a)), residue_up, ← map_mul, add_comm]
    apply congrArg (· + _)
    apply congrArg
    ring

theorem residue_power (wide : 0 < w) {f n : Nat} (small : n < 2 ^ f) :
    AdjoinRoot.mk (modulus poly) (ofBits (power poly f n)) =
      AdjoinRoot.root (modulus poly) ^ n := by
  have one : ofBits (1#w) = 1 := by
    ext i
    rw [coeff_ofBits, coeff_one, BitVec.getLsbD_one]
    by_cases bottom : i = 0
    · simp [bottom, wide]
    · simp [bottom]
  induction f generalizing n with
  | zero =>
    obtain rfl : n = 0 := by simpa using small
    rw [power, one, map_one, pow_zero]
  | succ f ih =>
    have half := ih (n := n / 2) (by rw [pow_succ] at small; omega)
    have square : AdjoinRoot.mk (modulus poly)
        (ofBits (product poly w (power poly f (n / 2)) (power poly f (n / 2)))) =
          AdjoinRoot.root (modulus poly) ^ (2 * (n / 2)) := by
      rw [residue_product, map_mul, two_mul, pow_add]
      exact congrArg₂ (· * ·) half half
    rw [power]
    by_cases odd : n % 2 = 1
    · rw [if_pos odd, residue_up, map_mul, AdjoinRoot.mk_X, square, ← pow_succ']
      apply congrArg
      omega
    · rw [if_neg odd, square]
      apply congrArg
      omega

theorem root_pow_eq_one_iff (wide : 0 < w) {f n : Nat} (small : n < 2 ^ f) :
    AdjoinRoot.root (modulus poly) ^ n = 1 ↔ power poly f n = 1#w := by
  have one : AdjoinRoot.mk (modulus poly) (ofBits (1#w)) = 1 :=
    (residue_power poly wide (Nat.two_pow_pos 0)).trans (pow_zero _)
  rw [← residue_power poly wide small, ← one]
  constructor
  · exact residue_injective poly
  · intro same
    rw [same]

/-- The order of the root, from the prime factors of a number that the words return after. -/
theorem orderOf_root (wide : 0 < w) {f n : Nat} (small : n < 2 ^ f) (positive : 0 < n)
    {factors : List Nat} (primes : ∀ q ∈ factors, q.Prime) (whole : factors.prod = n)
    (cycle : power poly f n = 1#w) (early : ∀ q ∈ factors, power poly f (n / q) ≠ 1#w) :
    orderOf (AdjoinRoot.root (modulus poly)) = n := by
  refine orderOf_eq_of_pow_and_pow_div_prime positive
    ((root_pow_eq_one_iff poly wide small).mpr cycle) fun p prime divides => ?_
  rw [← whole, prime.prime.dvd_prod_iff] at divides
  obtain ⟨q, listed, divides⟩ := divides
  obtain rfl := (Nat.prime_dvd_prime_iff_eq prime (primes q listed)).mp divides
  rw [Ne, root_pow_eq_one_iff poly wide ((Nat.div_le_self n p).trans_lt small)]
  exact early p listed

end Powers

end LivoxMid360.Foundation.BitErrors
