/- digest: Rotations in a coordinate plane: they are orthogonal, act on two columns or two rows,
and move squares between the diagonal and two entries of a symmetric matrix. -/

import Mathlib.LinearAlgebra.Matrix.NonsingularInverse
import Mathlib.LinearAlgebra.Matrix.Symmetric
import Mathlib.LinearAlgebra.Matrix.Trace
import Mathlib.Tactic.LinearCombination

set_option autoImplicit false
set_option relaxedAutoImplicit false

namespace LivoxMid360.Foundation.PlaneRotations

open Matrix

universe u v

variable {n : Type u} [DecidableEq n] {R : Type v} [CommRing R]

def rotatedAxis (p q : n) (sin cos : R) (j : n) : n → R :=
  if j = q then sin • Pi.single p 1 + cos • Pi.single q 1
  else if j = p then cos • Pi.single p 1 - sin • Pi.single q 1
  else Pi.single j 1

/-- The rotation in the plane of `p` and `q`, its columns the images of the unit vectors. -/
def planeRotation (p q : n) (sin cos : R) : Matrix n n R :=
  of fun i j => rotatedAxis p q sin cos j i

theorem planeRotation_apply (p q : n) (sin cos : R) (i j : n) :
    planeRotation p q sin cos i j = rotatedAxis p q sin cos j i := rfl

theorem rotatedAxis_first {p q : n} (distinct : p ≠ q) (sin cos : R) (j : n) :
    rotatedAxis p q sin cos j p = if j = q then sin else if j = p then cos else 0 := by
  rw [rotatedAxis]
  split_ifs with hq hp
  · simp [distinct]
  · simp [distinct]
  · exact Pi.single_eq_of_ne (Ne.symm hp) 1

theorem rotatedAxis_second {p q : n} (distinct : p ≠ q) (sin cos : R) (j : n) :
    rotatedAxis p q sin cos j q = if j = q then cos else if j = p then -sin else 0 := by
  rw [rotatedAxis]
  split_ifs with hq hp
  · simp [distinct.symm]
  · simp [distinct.symm]
  · exact Pi.single_eq_of_ne (Ne.symm hq) 1

theorem rotatedAxis_other {p q i : n} (hp : i ≠ p) (hq : i ≠ q) (sin cos : R) (j : n) :
    rotatedAxis p q sin cos j i = if i = j then 1 else 0 := by
  rw [rotatedAxis]
  by_cases jq : j = q
  · simp [jq, hp, hq]
  by_cases jp : j = p
  · rw [if_neg jq, if_pos jp, jp]
    simp [hp, hq]
  · rw [if_neg jq, if_neg jp, Pi.single_apply]

variable [Fintype n]

def OrthonormalColumns (m : Matrix n n R) : Prop := mᵀ * m = 1

theorem dotProduct_rotatedAxis (x : n → R) (p q : n) (sin cos : R) (j : n) :
    x ⬝ᵥ rotatedAxis p q sin cos j =
      if j = q then sin * x p + cos * x q
      else if j = p then cos * x p - sin * x q
      else x j := by
  rw [rotatedAxis]
  split_ifs
  · simp only [dotProduct_add, dotProduct_smul, dotProduct_single_one, smul_eq_mul]
  · simp only [dotProduct_sub, dotProduct_smul, dotProduct_single_one, smul_eq_mul]
  · exact dotProduct_single_one x j

/-- Multiplying from the right mixes the columns `p` and `q`. -/
theorem mul_planeRotation (m : Matrix n n R) (p q : n) (sin cos : R) (k j : n) :
    (m * planeRotation p q sin cos) k j =
      if j = q then sin * m k p + cos * m k q
      else if j = p then cos * m k p - sin * m k q
      else m k j :=
  dotProduct_rotatedAxis (m k) p q sin cos j

theorem transpose_planeRotation_mul (m : Matrix n n R) (p q : n) (sin cos : R) (r k : n) :
    ((planeRotation p q sin cos)ᵀ * m) r k =
      if r = q then sin * m p k + cos * m q k
      else if r = p then cos * m p k - sin * m q k
      else m r k := by
  have swapped : (planeRotation p q sin cos)ᵀ * m = (mᵀ * planeRotation p q sin cos)ᵀ := by
    rw [transpose_mul, transpose_transpose]
  rw [swapped, transpose_apply, mul_planeRotation]
  rfl

theorem planeRotation_orthonormal {p q : n} (distinct : p ≠ q) {sin cos : R}
    (unit : sin ^ 2 + cos ^ 2 = 1) : OrthonormalColumns (planeRotation p q sin cos) := by
  ext r k
  rw [transpose_planeRotation_mul]
  simp only [planeRotation_apply]
  rw [rotatedAxis_first distinct, rotatedAxis_second distinct, one_apply]
  by_cases rq : r = q
  · rw [if_pos rq, rq]
    by_cases kq : k = q
    · rw [if_pos kq, if_pos kq, if_pos kq.symm]
      linear_combination unit
    · rw [if_neg kq, if_neg kq, if_neg (Ne.symm kq)]
      split_ifs <;> ring
  by_cases rp : r = p
  · rw [if_neg rq, if_pos rp, rp]
    by_cases kp : k = p
    · have kq : k ≠ q := kp ▸ distinct
      rw [if_neg kq, if_neg kq, if_pos kp, if_pos kp, if_pos kp.symm]
      linear_combination unit
    · rw [if_neg kp, if_neg kp, if_neg (Ne.symm kp)]
      split_ifs <;> ring
  · rw [if_neg rq, if_neg rp, rotatedAxis_other rp rq]

theorem orthonormalColumns_one : OrthonormalColumns (1 : Matrix n n R) := by
  rw [OrthonormalColumns, transpose_one, Matrix.one_mul]

theorem OrthonormalColumns.mul {m g : Matrix n n R} (hm : OrthonormalColumns m)
    (hg : OrthonormalColumns g) : OrthonormalColumns (m * g) := by
  have inner : mᵀ * m = 1 := hm
  have outer : gᵀ * g = 1 := hg
  calc (m * g)ᵀ * (m * g) = gᵀ * (mᵀ * m) * g := by
        rw [transpose_mul, Matrix.mul_assoc, Matrix.mul_assoc, Matrix.mul_assoc]
    _ = 1 := by rw [inner, Matrix.mul_one, outer]

theorem OrthonormalColumns.dotProduct_eq {m : Matrix n n R} (hm : OrthonormalColumns m)
    (i j : n) : (fun r => m r i) ⬝ᵥ (fun r => m r j) = if i = j then 1 else 0 := by
  have entry := congrFun (congrFun hm i) j
  rw [one_apply] at entry
  exact entry

theorem OrthonormalColumns.mul_transpose {m : Matrix n n R} (hm : OrthonormalColumns m) :
    m * mᵀ = 1 := mul_eq_one_comm.mp hm

/-- The matrix as the columns of `g` see it. -/
def inColumns (g m : Matrix n n R) : Matrix n n R := gᵀ * m * g

omit [DecidableEq n] in
theorem inColumns_isSymm (g : Matrix n n R) {m : Matrix n n R} (symmetric : m.IsSymm) :
    (inColumns g m).IsSymm := by
  rw [IsSymm, inColumns, transpose_mul, transpose_mul, transpose_transpose, symmetric.eq,
    Matrix.mul_assoc]

theorem mul_inColumns_mul (v m : Matrix n n R) {g : Matrix n n R} (hg : OrthonormalColumns g) :
    v * g * inColumns g m * (v * g)ᵀ = v * m * vᵀ := by
  calc
    _ = v * (g * gᵀ) * m * (g * gᵀ) * vᵀ := by
      simp only [inColumns, transpose_mul, Matrix.mul_assoc]
    _ = v * m * vᵀ := by rw [hg.mul_transpose, Matrix.mul_one, Matrix.mul_one]

theorem OrthonormalColumns.inColumns_eq {v : Matrix n n R} (hv : OrthonormalColumns v)
    (m : Matrix n n R) : inColumns v (v * m * vᵀ) = m := by
  have inner : vᵀ * v = 1 := hv
  calc
    _ = vᵀ * v * m * (vᵀ * v) := by simp only [inColumns, Matrix.mul_assoc]
    _ = m := by rw [inner, Matrix.one_mul, Matrix.mul_one]

theorem OrthonormalColumns.trace_eq {v : Matrix n n R} (hv : OrthonormalColumns v)
    (m : Matrix n n R) : trace (v * m * vᵀ) = trace m := by
  have inner : vᵀ * v = 1 := hv
  rw [trace_mul_comm, ← Matrix.mul_assoc, inner, Matrix.one_mul]

/-- The sum of the squares of all entries. -/
def squares (m : Matrix n n R) : R := ∑ i, ∑ j, m i j ^ 2

omit [DecidableEq n] in
theorem squares_eq_trace (m : Matrix n n R) : squares m = trace (m * mᵀ) := by
  refine Finset.sum_congr rfl fun i _ => Finset.sum_congr rfl fun j _ => ?_
  exact sq (m i j)

theorem squares_inColumns {g : Matrix n n R} (hg : OrthonormalColumns g) (m : Matrix n n R) :
    squares (inColumns g m) = squares m := by
  rw [squares_eq_trace, squares_eq_trace]
  calc
    _ = trace (gᵀ * (m * (g * gᵀ) * mᵀ * g)) := by
      simp only [inColumns, transpose_mul, transpose_transpose, Matrix.mul_assoc]
    _ = trace (m * (g * gᵀ) * mᵀ * (g * gᵀ)) := by rw [trace_mul_comm, Matrix.mul_assoc]
    _ = trace (m * mᵀ) := by rw [hg.mul_transpose, Matrix.mul_one, Matrix.mul_one]

theorem squares_mul (m : Matrix n n R) {g : Matrix n n R} (hg : OrthonormalColumns g) :
    squares (m * g) = squares m := by
  rw [squares_eq_trace, squares_eq_trace, transpose_mul, Matrix.mul_assoc, ← Matrix.mul_assoc g,
    hg.mul_transpose, Matrix.one_mul]

/-- The sum of the squares off the diagonal. -/
def offDiagonal (m : Matrix n n R) : R := ∑ i, ∑ j ∈ Finset.univ.erase i, m i j ^ 2

theorem squares_eq_add_offDiagonal (m : Matrix n n R) :
    squares m = ∑ i, m i i ^ 2 + offDiagonal m := by
  rw [squares, offDiagonal, ← Finset.sum_add_distrib]
  exact Finset.sum_congr rfl fun i _ => (Finset.add_sum_erase _ _ (Finset.mem_univ i)).symm

theorem squares_sub_diagonal (m : Matrix n n R) :
    squares (m - diagonal fun i => m i i) = offDiagonal m := by
  have kept : offDiagonal (m - diagonal fun i => m i i) = offDiagonal m := by
    refine Finset.sum_congr rfl fun i _ => Finset.sum_congr rfl fun j member => ?_
    rw [Matrix.sub_apply, diagonal_apply_ne _ (Finset.ne_of_mem_erase member).symm, sub_zero]
  have cleared : ∑ i, (m - diagonal fun i => m i i) i i ^ 2 = 0 := by
    refine Finset.sum_eq_zero fun i _ => ?_
    rw [Matrix.sub_apply, diagonal_apply_eq, sub_self, sq, zero_mul]
  rw [squares_eq_add_offDiagonal, kept, cleared, zero_add]

theorem offDiagonal_le [LinearOrder R] [IsStrictOrderedRing R] {m : Matrix n n R} {b : R}
    (bound : ∀ i j, i ≠ j → m i j ^ 2 ≤ b) :
    offDiagonal m ≤ Fintype.card n * ((Fintype.card n - 1 : Nat) * b) := by
  have row (i : n) : ∑ j ∈ Finset.univ.erase i, m i j ^ 2 ≤ (Fintype.card n - 1 : Nat) * b := by
    have terms := Finset.sum_le_card_nsmul (Finset.univ.erase i) (fun j => m i j ^ 2) b
      fun j member => bound i j (Finset.ne_of_mem_erase member).symm
    rwa [Finset.card_erase_of_mem (Finset.mem_univ i), Finset.card_univ, nsmul_eq_mul] at terms
  have rows := Finset.sum_le_card_nsmul Finset.univ _ _ fun i _ => row i
  rwa [Finset.card_univ, nsmul_eq_mul] at rows

theorem sum_eq_of_two {p q : n} (distinct : p ≠ q) {f g : n → R}
    (same : ∀ i, i ≠ p → i ≠ q → f i = g i) :
    ∑ i, f i - (f p + f q) = ∑ i, g i - (g p + g q) := by
  have split (h : n → R) :
      ∑ i, h i - (h p + h q) = ∑ i ∈ (Finset.univ.erase p).erase q, h i := by
    have member : q ∈ Finset.univ.erase p :=
      Finset.mem_erase.mpr ⟨distinct.symm, Finset.mem_univ q⟩
    rw [← Finset.add_sum_erase Finset.univ h (Finset.mem_univ p),
      ← Finset.add_sum_erase (Finset.univ.erase p) h member]
    ring
  rw [split, split]
  refine Finset.sum_congr rfl fun i member => ?_
  obtain ⟨hq, member⟩ := Finset.mem_erase.mp member
  exact same i (Finset.ne_of_mem_erase member) hq

section Plane

variable (p q : n) (sin cos : R) (m : Matrix n n R)

theorem inColumns_planeRotation (r k : n) :
    inColumns (planeRotation p q sin cos) m r k =
      if r = q then sin * (m * planeRotation p q sin cos) p k +
        cos * (m * planeRotation p q sin cos) q k
      else if r = p then cos * (m * planeRotation p q sin cos) p k -
        sin * (m * planeRotation p q sin cos) q k
      else (m * planeRotation p q sin cos) r k := by
  rw [inColumns, Matrix.mul_assoc, transpose_planeRotation_mul]

theorem inColumns_planeRotation_other {i : n} (hp : i ≠ p) (hq : i ≠ q) :
    inColumns (planeRotation p q sin cos) m i i = m i i := by
  rw [inColumns_planeRotation, if_neg hq, if_neg hp, mul_planeRotation, if_neg hq, if_neg hp]

theorem inColumns_planeRotation_second : inColumns (planeRotation p q sin cos) m q q =
    sin * (sin * m p p + cos * m p q) + cos * (sin * m q p + cos * m q q) := by
  rw [inColumns_planeRotation, if_pos rfl, mul_planeRotation, mul_planeRotation, if_pos rfl,
    if_pos rfl]

variable {p q m} (distinct : p ≠ q)

include distinct

theorem inColumns_planeRotation_first : inColumns (planeRotation p q sin cos) m p p =
    cos * (cos * m p p - sin * m p q) - sin * (cos * m q p - sin * m q q) := by
  rw [inColumns_planeRotation, if_neg distinct, if_pos rfl, mul_planeRotation, mul_planeRotation,
    if_neg distinct, if_pos rfl, if_neg distinct, if_pos rfl]

theorem inColumns_planeRotation_cross : inColumns (planeRotation p q sin cos) m p q =
    cos * (sin * m p p + cos * m p q) - sin * (sin * m q p + cos * m q q) := by
  rw [inColumns_planeRotation, if_neg distinct, if_pos rfl, mul_planeRotation, mul_planeRotation,
    if_pos rfl, if_pos rfl]

variable {sin cos} (symmetric : m.IsSymm)

include symmetric

/-- The angle whose double has the tangent `2 * m p q / (m q q - m p p)` clears the entry. -/
theorem inColumns_cross_eq_zero [NoZeroDivisors R] [NeZero (2 : R)]
    (double : 2 * sin * cos * (m q q - m p p) = (cos ^ 2 - sin ^ 2) * (2 * m p q)) :
    inColumns (planeRotation p q sin cos) m p q = 0 := by
  have twice : 2 * inColumns (planeRotation p q sin cos) m p q = 0 := by
    rw [inColumns_planeRotation_cross sin cos distinct, symmetric.apply p q]
    linear_combination -double
  exact (mul_eq_zero.mp twice).resolve_left two_ne_zero

/-- A rotation moves squares between the diagonal and the two entries of its plane. -/
theorem offDiagonal_inColumns (unit : sin ^ 2 + cos ^ 2 = 1) :
    offDiagonal (inColumns (planeRotation p q sin cos) m) =
      offDiagonal m - 2 * m p q ^ 2 + 2 * inColumns (planeRotation p q sin cos) m p q ^ 2 := by
  have total := squares_inColumns (planeRotation_orthonormal distinct unit) m
  rw [squares_eq_add_offDiagonal, squares_eq_add_offDiagonal] at total
  have diagonal := sum_eq_of_two distinct
    (f := fun i => inColumns (planeRotation p q sin cos) m i i ^ 2) (g := fun i => m i i ^ 2)
    fun i hp hq => congrArg (· ^ 2) (inColumns_planeRotation_other p q sin cos m hp hq)
  have plane : inColumns (planeRotation p q sin cos) m p p ^ 2 +
      inColumns (planeRotation p q sin cos) m q q ^ 2 +
      2 * inColumns (planeRotation p q sin cos) m p q ^ 2 =
      m p p ^ 2 + m q q ^ 2 + 2 * m p q ^ 2 := by
    rw [inColumns_planeRotation_first sin cos distinct,
      inColumns_planeRotation_second p q sin cos m,
      inColumns_planeRotation_cross sin cos distinct, symmetric.apply p q]
    linear_combination (sin ^ 2 + cos ^ 2 + 1) * (m p p ^ 2 + m q q ^ 2 + 2 * m p q ^ 2) * unit
  linear_combination total - diagonal - plane

end Plane

end LivoxMid360.Foundation.PlaneRotations
