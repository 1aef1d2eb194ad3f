/- digest: Every rotation keeps the decomposition and clears the largest entry off the diagonal. -/

import LivoxMid360.Encoder.AxisFrames
import Mathlib.Analysis.SpecialFunctions.Complex.Arg

set_option autoImplicit false
set_option relaxedAutoImplicit false

namespace LivoxMid360.Encoder.JacobiRotations

open Foundation.PlaneRotations
open Vectors PrincipalAxes AxisFrames
open Matrix (of)

section Pivot

variable {K : Type} [Field K] [LinearOrder K]

def better (a : Mat3 K) (best : Fin 3 × Fin 3 × K) (c : Fin 3 × Fin 3) : Fin 3 × Fin 3 × K :=
  if best.2.2 < |a c.1 c.2| then (c.1, c.2, |a c.1 c.2|) else best

theorem pivot_eq (a : Mat3 K) :
    pivot a = [((0 : Fin 3), (1 : Fin 3)), (0, 2), (1, 2)].foldl (better a) (0, 1, 0) := rfl

theorem foldl_better {a : Mat3 K} (cs : List (Fin 3 × Fin 3)) (best : Fin 3 × Fin 3 × K)
    (held : best.2.2 ≤ |a best.1 best.2.1|) :
    (cs.foldl (better a) best).2.2 ≤
        |a (cs.foldl (better a) best).1 (cs.foldl (better a) best).2.1| ∧
      best.2.2 ≤ (cs.foldl (better a) best).2.2 ∧
      ∀ c ∈ cs, |a c.1 c.2| ≤ (cs.foldl (better a) best).2.2 := by
  induction cs generalizing best with
  | nil => exact ⟨held, le_rfl, fun c member => absurd member List.not_mem_nil⟩
  | cons c cs ih =>
    have next : (better a best c).2.2 ≤ |a (better a best c).1 (better a best c).2.1| ∧
        best.2.2 ≤ (better a best c).2.2 ∧ |a c.1 c.2| ≤ (better a best c).2.2 := by
      rw [better]
      split_ifs with less
      · exact ⟨le_rfl, less.le, le_rfl⟩
      · exact ⟨held, le_rfl, not_lt.mp less⟩
    obtain ⟨kept, grows, covered⟩ := next
    obtain ⟨kept', grows', covered'⟩ := ih _ kept
    refine ⟨kept', grows.trans grows', ?_⟩
    intro d member
    rcases List.mem_cons.mp member with rfl | later
    · exact covered.trans grows'
    · exact covered' d later

theorem abs_le_pivot [IsStrictOrderedRing K] {a : Mat3 K} (symmetric : (of a).IsSymm)
    {p q : Fin 3} {off : K} (pivoted : pivot a = (p, q, off)) {i j : Fin 3} (distinct : i ≠ j) :
    |a i j| ≤ |a p q| := by
  obtain ⟨held, -, covered⟩ :=
    foldl_better [(0, 1), (0, 2), (1, 2)] (0, 1, 0) (abs_nonneg (a 0 1))
  rw [← pivot_eq, pivoted] at held covered
  have above (i j : Fin 3) (less : i < j) : |a i j| ≤ |a p q| := by
    refine (covered (i, j) ?_).trans held
    revert less i j
    decide
  rcases lt_or_gt_of_ne distinct with less | greater
  · exact above i j less
  · have mirrored : a i j = a j i := symmetric.apply j i
    rw [mirrored]
    exact above j i greater

end Pivot

section Rotation

variable {K : Type} [Field K]

/-- What is assumed of the angle: its sine and cosine lie on the unit circle, and its double has
the tangent that `atan2` was asked for. -/
structure Turns (trig : Trig K) : Prop where
  unit : ∀ angle, (trig.sinCos angle).1 ^ 2 + (trig.sinCos angle).2 ^ 2 = 1
  double : ∀ y x,
    2 * (trig.sinCos (1 / 2 * trig.atan2 y x)).1 * (trig.sinCos (1 / 2 * trig.atan2 y x)).2 * x =
      ((trig.sinCos (1 / 2 * trig.atan2 y x)).2 ^ 2 -
        (trig.sinCos (1 / 2 * trig.atan2 y x)).1 ^ 2) * y

def turn (trig : Trig K) (p q : Fin 3) (a : Mat3 K) : K × K :=
  trig.sinCos (1 / 2 * trig.atan2 (2 * a p q) (a q q - a p p))

def rotation (trig : Trig K) (p q : Fin 3) (a : Mat3 K) : Matrix (Fin 3) (Fin 3) K :=
  planeRotation p q (turn trig p q a).1 (turn trig p q a).2

theorem rotateRows_eq (p q : Fin 3) (sin cos : K) (m : Mat3 K) :
    of (rotateRows p q sin cos m) = (planeRotation p q sin cos).transpose * of m := by
  ext r k
  rw [transpose_planeRotation_mul]
  rfl

theorem jacobiStep_eq (trig : Trig K) (p q : Fin 3) (state : Mat3 K × Mat3 K) :
    of (jacobiStep trig p q state).1 = inColumns (rotation trig p q state.1) (of state.1) ∧
      of (jacobiStep trig p q state).2 = of state.2 * rotation trig p q state.1 := by
  rw [jacobiStep, rotateRows_eq, rotateColumns_eq, rotateColumns_eq, inColumns, Matrix.mul_assoc]
  exact ⟨rfl, rfl⟩

/-- What the working matrices keep: `v` is orthogonal, `a` symmetric, and `a` is the matrix in
the frame of `v`. -/
structure Inv (matrix : Mat3 K) (state : Mat3 K × Mat3 K) : Prop where
  orthogonal : OrthonormalColumns (of state.2)
  symmetric : (of state.1).IsSymm
  decomposed : of state.2 * of state.1 * (of state.2).transpose = of matrix

theorem inv_init {matrix : Mat3 K} (symmetric : (of matrix).IsSymm) :
    Inv matrix (matrix, fun i j => if i = j then 1 else 0) := by
  constructor
  · exact of_identity (K := K) ▸ orthonormalColumns_one
  · exact symmetric
  · simp only [of_identity, Matrix.transpose_one, Matrix.one_mul, Matrix.mul_one]

theorem inv_step {trig : Trig K} (turns : Turns trig) {matrix : Mat3 K}
    {state : Mat3 K × Mat3 K} (inv : Inv matrix state) {p q : Fin 3} (distinct : p ≠ q) :
    Inv matrix (jacobiStep trig p q state) := by
  have orthonormal : OrthonormalColumns (rotation trig p q state.1) :=
    planeRotation_orthonormal distinct (turns.unit _)
  obtain ⟨rotated, turned⟩ := jacobiStep_eq trig p q state
  constructor
  · rw [turned]
    exact inv.orthogonal.mul orthonormal
  · rw [rotated]
    exact inColumns_isSymm _ inv.symmetric
  · rw [rotated, turned, mul_inColumns_mul _ _ orthonormal]
    exact inv.decomposed

end Rotation

section Loop

variable {K : Type} [Field K] [LinearOrder K]

def tolerance (matrix : Mat3 K) : K :=
  1 / ((10 ^ 14 : Nat) : K) * (matrix 0 0 + matrix 1 1 + matrix 2 2)

/-- The working matrices after so many iterations of the loop. -/
def working (trig : Trig K) (matrix : Mat3 K) (n : Nat) : Mat3 K × Mat3 K :=
  jacobiLoop trig (tolerance matrix) n (matrix, fun i j => if i = j then 1 else 0)

theorem jacobiEigen_eq (trig : Trig K) (matrix : Mat3 K) :
    jacobiEigen trig matrix =
      (fun i => (working trig matrix 32).1 i i, (working trig matrix 32).2) := rfl

theorem jacobiLoop_of_pivot {trig : Trig K} {t : K} {state : Mat3 K × Mat3 K} {p q : Fin 3}
    {off : K} (pivoted : pivot state.1 = (p, q, off)) (n : Nat) :
    jacobiLoop trig t (n + 1) state =
      if off ≤ t then state else jacobiLoop trig t n (jacobiStep trig p q state) := by
  rw [jacobiLoop, pivoted]

theorem jacobiLoop_succ (trig : Trig K) (t : K) (n : Nat) {state : Mat3 K × Mat3 K}
    {p q : Fin 3} {off : K} (pivoted : pivot (jacobiLoop trig t n state).1 = (p, q, off)) :
    jacobiLoop trig t (n + 1) state =
      if off ≤ t then jacobiLoop trig t n state
      else jacobiStep trig p q (jacobiLoop trig t n state) := by
  induction n generalizing state with
  | zero => exact jacobiLoop_of_pivot pivoted 0
  | succ n ih =>
    obtain ⟨p', q', off', first⟩ : ∃ p' q' off', pivot state.1 = (p', q', off') := ⟨_, _, _, rfl⟩
    rw [jacobiLoop_of_pivot first n] at pivoted ⊢
    rw [jacobiLoop_of_pivot first (n + 1)]
    -- once the loop has stopped, more fuel changes nothing
    by_cases stops : off' ≤ t
    · rw [if_pos stops] at pivoted
      rw [if_pos stops, if_pos stops]
      have same : off' = off := congrArg (·.2.2) (first.symm.trans pivoted)
      rw [if_pos (same ▸ stops)]
    · rw [if_neg stops] at pivoted
      rw [if_neg stops, if_neg stops]
      exact ih pivoted

theorem inv_working {trig : Trig K} (turns : Turns trig) {matrix : Mat3 K}
    (symmetric : (of matrix).IsSymm) (n : Nat) : Inv matrix (working trig matrix n) := by
  induction n with
  | zero => exact inv_init symmetric
  | succ n ih =>
    rw [working, jacobiLoop_succ trig _ n rfl]
    -- an iteration that stops leaves the matrices as they are
    split_ifs with stops
    · exact ih
    · exact inv_step turns ih (pivot_ne _)

/-- What comes back are orthonormal columns, each with the value that the matrix has along it. -/
theorem jacobiEigen_inColumns {trig : Trig K} (turns : Turns trig) {matrix : Mat3 K}
    (symmetric : (of matrix).IsSymm) :
    OrthonormalColumns (of (jacobiEigen trig matrix).2) ∧
      ∀ i, (jacobiEigen trig matrix).1 i =
        inColumns (of (jacobiEigen trig matrix).2) (of matrix) i i := by
  have inv := inv_working turns symmetric 32
  rw [jacobiEigen_eq, ← inv.decomposed]
  exact ⟨inv.orthogonal, fun i => by rw [inv.orthogonal.inColumns_eq]; rfl⟩

theorem working_rotated {trig : Trig K} {matrix : Mat3 K} {n : Nat} {p q : Fin 3} {off : K}
    (pivoted : pivot (working trig matrix n).1 = (p, q, off)) (rotates : ¬ off ≤ tolerance matrix) :
    working trig matrix (n + 1) = jacobiStep trig p q (working trig matrix n) := by
  rw [working, jacobiLoop_succ trig _ n pivoted, if_neg rotates]
  rfl

variable [IsStrictOrderedRing K]

/-- Every rotating iteration keeps the decomposition, clears its pivot and takes a third off the
squares off the diagonal. -/
theorem rotating_iteration {trig : Trig K} (turns : Turns trig) {matrix : Mat3 K}
    (symmetric : (of matrix).IsSymm) {n : Nat} {p q : Fin 3} {off : K}
    (pivoted : pivot (working trig matrix n).1 = (p, q, off))
    (rotates : ¬ off ≤ tolerance matrix) :
    OrthonormalColumns (of (working trig matrix (n + 1)).2) ∧
      (of (working trig matrix (n + 1)).1).IsSymm ∧
      of (working trig matrix (n + 1)).2 * of (working trig matrix (n + 1)).1 *
        (of (working trig matrix (n + 1)).2).transpose = of matrix ∧
      (of (working trig matrix (n + 1)).1).trace = (of matrix).trace ∧
      (working trig matrix (n + 1)).1 p q = 0 ∧
      offDiagonal (of (working trig matrix (n + 1)).1) =
        offDiagonal (of (working trig matrix n).1) - 2 * (working trig matrix n).1 p q ^ 2 ∧
      offDiagonal (of (working trig matrix (n + 1)).1) ≤
        2 / 3 * offDiagonal (of (working trig matrix n).1) := by
  have before := inv_working turns symmetric n
  have after := inv_working turns symmetric (n + 1)
  have distinct : p ≠ q := by
    have apart := pivot_ne (working trig matrix n).1
    rwa [pivoted] at apart
  have rotated : of (working trig matrix (n + 1)).1 =
      inColumns (rotation trig p q (working trig matrix n).1) (of (working trig matrix n).1) := by
    rw [working_rotated pivoted rotates]
    exact (jacobiStep_eq trig p q _).1
  have cleared : of (working trig matrix (n + 1)).1 p q = 0 := by
    rw [rotated]
    exact inColumns_cross_eq_zero distinct before.symmetric (turns.double _ _)
  have dropped : offDiagonal (of (working trig matrix (n + 1)).1) =
      offDiagonal (of (working trig matrix n).1) - 2 * (working trig matrix n).1 p q ^ 2 := by
    have unit : (turn trig p q (working trig matrix n).1).1 ^ 2 +
        (turn trig p q (working trig matrix n).1).2 ^ 2 = 1 := turns.unit _
    have moved := offDiagonal_inColumns distinct before.symmetric unit
    rw [← rotation, ← rotated, cleared, Matrix.of_apply] at moved
    rw [moved]
    ring
  -- the pivot is the largest of six entries off the diagonal
  have most : offDiagonal (of (working trig matrix n).1) ≤
      6 * (working trig matrix n).1 p q ^ 2 := by
    have entries := offDiagonal_le (m := of (working trig matrix n).1)
      fun i j different => sq_le_sq.mpr (abs_le_pivot before.symmetric pivoted different)
    norm_num at entries
    linarith
  refine ⟨after.orthogonal, after.symmetric, after.decomposed, ?_, cleared, dropped, ?_⟩
  · rw [← after.decomposed, after.orthogonal.trace_eq]
  · rw [dropped]
    linarith

end Loop

noncomputable def realTrig : Trig ℝ where
  atan2 y x := Complex.arg ⟨x, y⟩
  sinCos angle := (Real.sin angle, Real.cos angle)

theorem realTrig_turns : Turns realTrig := by
  constructor
  · exact Real.sin_sq_add_cos_sq
  · intro y x
    have real := Complex.norm_mul_cos_arg ⟨x, y⟩
    have imaginary := Complex.norm_mul_sin_arg ⟨x, y⟩
    have sine := Real.sin_two_mul (1 / 2 * Complex.arg ⟨x, y⟩)
    have cosine := Real.cos_two_mul' (1 / 2 * Complex.arg ⟨x, y⟩)
    rw [← mul_assoc, mul_one_div_cancel two_ne_zero, one_mul] at sine cosine
    show 2 * Real.sin (1 / 2 * Complex.arg ⟨x, y⟩) * Real.cos (1 / 2 * Complex.arg ⟨x, y⟩) * x =
      (Real.cos (1 / 2 * Complex.arg ⟨x, y⟩) ^ 2 - Real.sin (1 / 2 * Complex.arg ⟨x, y⟩) ^ 2) * y
    rw [← sine, ← cosine]
    linear_combination Real.cos (Complex.arg ⟨x, y⟩) * imaginary -
      Real.sin (Complex.arg ⟨x, y⟩) * real

noncomputable def sample : Mat3 ℝ := ![![4, 1, 2], ![1, 3, 1 / 2], ![2, 1 / 2, 5]]

theorem rotating_iteration_sample :
    (working realTrig sample 1).1 0 2 = 0 ∧
      offDiagonal (of (working realTrig sample 1).1) = offDiagonal (of sample) - 2 * 2 ^ 2 := by
  have symmetric : (of sample).IsSymm := by
    ext i j
    fin_cases i <;> fin_cases j <;> rfl
  have pivoted : pivot (working realTrig sample 0).1 = (0, 2, 2) := by
    have first : |sample 0 1| = 1 := abs_one
    have second : |sample 0 2| = 2 := abs_two
    have third : |sample 1 2| = 1 / 2 := abs_of_pos one_half_pos
    show pivot sample = _
    rw [pivot_eq]
    norm_num [better, first, second, third]
  have rotates : ¬ (2 : ℝ) ≤ tolerance sample := by
    have trace : sample 0 0 + sample 1 1 + sample 2 2 = 4 + 3 + 5 := rfl
    rw [tolerance, trace]
    norm_num
  obtain ⟨-, -, -, -, cleared, dropped, -⟩ :=
    rotating_iteration realTrig_turns symmetric pivoted rotates
  exact ⟨cleared, dropped⟩

end LivoxMid360.Encoder.JacobiRotations
