/- digest: Principal axes of a cloud: covariance, Jacobi rotations, order and signs. -/

import LivoxMid360.Encoder.Vectors
import LivoxMid360.Foundation.RustOutcome
import Mathlib.Algebra.Order.Field.Basic
import Mathlib.Algebra.Order.Group.Unbundled.Abs
import Mathlib.Order.Compare

set_option autoImplicit false
set_option relaxedAutoImplicit false

namespace LivoxMid360.Encoder.PrincipalAxes

open Foundation.RustOutcome
open Vectors

universe u

/-- The `f64` methods that are used beside the operators and comparisons. -/
class FloatOps (F : Type u) where
  abs : F → F
  partialCmp : F → F → Option Ordering
  min : F → F → F
  max : F → F → F

structure Trig (F : Type u) where
  atan2 : F → F → F
  sinCos : F → F × F

instance {K : Type u} [Field K] [LinearOrder K] : FloatOps K where
  abs a := |a|
  partialCmp a b := some (cmp a b)
  min a b := Min.min a b
  max a b := Max.max a b

section Sorting

variable {ε : Type u} {α : Type}

def unwrap : Option α → Outcome ε α
  | some a => .ok a
  | none => .panic .unwrapOnErr

/-- One insertion of the stable insertion sort that `sort_by` runs on a short slice: the new
element moves left while it compares less. The sorted part stands last element first. -/
def insertBack (compare : α → α → Outcome ε Ordering) (x : α) : List α → Outcome ε (List α)
  | [] => return [x]
  | y :: ys => do
    if (← compare x y) = Ordering.lt then
      return y :: (← insertBack compare x ys)
    else
      return x :: y :: ys

def sortBy (compare : α → α → Outcome ε Ordering) (xs : List α) : Outcome ε (List α) := do
  let sorted ← xs.foldlM (fun sorted x => insertBack compare x sorted) []
  return sorted.reverse

theorem insertBack_total {compare : α → α → Outcome ε Ordering}
    (total : ∀ x y, ∃ o, compare x y = .ok o) (x : α) (sorted : List α) :
    ∃ out, insertBack compare x sorted = .ok out := by
  induction sorted with
  | nil => exact ⟨[x], rfl⟩
  | cons y ys ih =>
    obtain ⟨o, compared⟩ := total x y
    obtain ⟨out, inserted⟩ := ih
    rw [insertBack, compared, Outcome.ok_bind]
    by_cases less : o = .lt
    · rw [if_pos less, inserted]
      exact ⟨_, rfl⟩
    · rw [if_neg less]
      exact ⟨_, rfl⟩

theorem sortBy_total {compare : α → α → Outcome ε Ordering}
    (total : ∀ x y, ∃ o, compare x y = .ok o) (xs : List α) :
    ∃ out, sortBy compare xs = .ok out := by
  -- on the elements still to be inserted, whatever stands sorted already
  have loop : ∀ sorted, ∃ out,
      xs.foldlM (fun sorted x => insertBack compare x sorted) sorted = .ok out := by
    induction xs with
    | nil => exact fun sorted => ⟨sorted, rfl⟩
    | cons x xs ih =>
      intro sorted
      obtain ⟨next, inserted⟩ := insertBack_total total x sorted
      rw [List.foldlM_cons, inserted, Outcome.ok_bind]
      exact ih next
  obtain ⟨sorted, done⟩ := loop []
  rw [sortBy, done]
  exact ⟨_, rfl⟩

end Sorting

section Jacobi

variable {F : Type} [Zero F] [One F] [Add F] [Sub F] [Mul F] [Div F] [NatCast F] [LT F] [LE F]
  [DecidableLT F] [DecidableLE F] [FloatOps F]

/-- Row, column and absolute value of the largest off-diagonal element. -/
def pivot (a : Mat3 F) : Fin 3 × Fin 3 × F :=
  [((0 : Fin 3), (1 : Fin 3)), (0, 2), (1, 2)].foldl
    (fun (p, q, off) (i, j) =>
      if off < FloatOps.abs (a i j) then (i, j, FloatOps.abs (a i j)) else (p, q, off))
    (0, 1, 0)

def rotateColumns (p q : Fin 3) (sin cos : F) (m : Mat3 F) : Mat3 F := fun k c =>
  if c = q then sin * m k p + cos * m k q
  else if c = p then cos * m k p - sin * m k q
  else m k c

def rotateRows (p q : Fin 3) (sin cos : F) (m : Mat3 F) : Mat3 F := fun r k =>
  if r = q then sin * m p k + cos * m q k
  else if r = p then cos * m p k - sin * m q k
  else m r k

def jacobiStep (trig : Trig F) (p q : Fin 3) (state : Mat3 F × Mat3 F) : Mat3 F × Mat3 F :=
  let (a, v) := state
  let angle := 1 / 2 * trig.atan2 (2 * a p q) (a q q - a p p)
  let (sin, cos) := trig.sinCos angle
  (rotateRows p q sin cos (rotateColumns p q sin cos a), rotateColumns p q sin cos v)

def jacobiLoop (trig : Trig F) (tolerance : F) : Nat → Mat3 F × Mat3 F → Mat3 F × Mat3 F
  | 0, state => state
  | fuel + 1, state =>
    let (p, q, off) := pivot state.1
    -- the `break` of the loop: nothing is left to rotate away
    if off ≤ tolerance then state
    else jacobiLoop trig tolerance fuel (jacobiStep trig p q state)

/-- Eigenvalues, and a matrix whose columns are the eigenvectors. -/
def jacobiEigen (trig : Trig F) (matrix : Mat3 F) : Vec3 F × Mat3 F :=
  let identity : Mat3 F := fun i j => if i = j then 1 else 0
  let tolerance := 1 / ((10 ^ 14 : Nat) : F) * (matrix 0 0 + matrix 1 1 + matrix 2 2)
  let (a, v) := jacobiLoop trig tolerance 32 (matrix, identity)
  (fun i => a i i, v)

end Jacobi

section Axes

variable {F : Type} [Zero F] [One F] [Add F] [Sub F] [Mul F] [Div F] [Neg F] [NatCast F] [LT F]
  [LE F] [DecidableLT F] [DecidableLE F] [FloatOps F] {ε : Type u}

/-- `max_by` over the absolute components: the last of several equal ones. -/
def dominant (axis : Vec3 F) : Outcome ε (Fin 3) :=
  [(1 : Fin 3), 2].foldlM
    (fun i j => do
      let order ← unwrap (FloatOps.partialCmp (FloatOps.abs (axis i)) (FloatOps.abs (axis j)))
      return if order = Ordering.gt then i else j)
    0

def fixSign (axis : Vec3 F) : Outcome ε (Vec3 F) := do
  let k ← dominant axis
  return if axis k < 0 then scale axis (-1) else axis

def meanOf (points : List (Vec3 F)) : Vec3 F :=
  points.foldl (fun mean p axis => mean axis + p axis / (points.length : F)) fun _ => 0

def covarianceOf (points : List (Vec3 F)) (mean : Vec3 F) : Mat3 F :=
  points.foldl
    (fun covariance p i j =>
      let d := sub p mean
      covariance i j + d i * d j / (points.length : F))
    fun _ _ => 0

def sortedAxes (values : Vec3 F) (vectors : Mat3 F) : Outcome ε (Mat3 F) := do
  let order ← sortBy (fun a b => unwrap (FloatOps.partialCmp (values b) (values a)))
    [(0 : Fin 3), 1, 2]
  let column (i : Nat) : Vec3 F := fun row => vectors row (order.getD i 0)
  let x ← fixSign (column 0)
  let y ← fixSign (column 1)
  let z ← fixSign (column 2)
  return ![x, y, if dot (cross x y) z < 0 then scale z (-1) else z]

/-- Centroid and principal axes of the cloud, sorted by decreasing variance, over any
decomposition of the covariance. -/
def pcaWith (eigen : Mat3 F → Vec3 F × Mat3 F) (points : List (Vec3 F)) :
    Outcome ε (Vec3 F × Mat3 F) := do
  let mean := meanOf points
  let (values, vectors) := eigen (covarianceOf points mean)
  let axes ← sortedAxes values vectors
  return (mean, axes)

end Axes

section Components

variable {F : Type} [Zero F] [Add F] [Div F] [NatCast F]

theorem meanOf_apply (points : List (Vec3 F)) (k : Fin 3) :
    meanOf points k = points.foldl (fun sum p => sum + p k / (points.length : F)) 0 :=
  (List.foldl_hom (fun mean : Vec3 F => mean k) fun _ _ => rfl).symm

theorem covarianceOf_apply [Sub F] [Mul F] (points : List (Vec3 F)) (mean : Vec3 F)
    (i j : Fin 3) :
    covarianceOf points mean i j = points.foldl
      (fun sum p => sum + sub p mean i * sub p mean j / (points.length : F)) 0 :=
  (List.foldl_hom (fun covariance : Mat3 F => covariance i j) fun _ _ => rfl).symm

end Components

section Exact

variable {K : Type} [Field K] [LinearOrder K] {ε : Type u}

theorem unwrap_partialCmp (a b : K) :
    (unwrap (FloatOps.partialCmp a b) : Outcome ε Ordering) = .ok (cmp a b) := rfl

theorem sortedAxes_total (values : Vec3 K) (vectors : Mat3 K) :
    ∃ axes, (sortedAxes values vectors : Outcome ε (Mat3 K)) = .ok axes := by
  have compares : ∀ a b : Fin 3, ∃ order,
      (unwrap (FloatOps.partialCmp (values b) (values a)) : Outcome ε Ordering) = .ok order :=
    fun a b => ⟨_, unwrap_partialCmp (values b) (values a)⟩
  obtain ⟨order, sorted⟩ := sortBy_total compares [0, 1, 2]
  rw [sortedAxes, sorted]
  exact ⟨_, rfl⟩

theorem pcaWith_total (eigen : Mat3 K → Vec3 K × Mat3 K) (points : List (Vec3 K)) :
    ∃ axes, (pcaWith eigen points : Outcome ε (Vec3 K × Mat3 K)) =
      .ok (meanOf points, axes) := by
  rw [pcaWith]
  obtain ⟨values, vectors⟩ := eigen (covarianceOf points (meanOf points))
  obtain ⟨axes, sorted⟩ := sortedAxes_total (ε := ε) values vectors
  refine ⟨axes, ?_⟩
  simp only [sorted, Outcome.ok_bind, Outcome.pure_eq_ok]

end Exact

end LivoxMid360.Encoder.PrincipalAxes
