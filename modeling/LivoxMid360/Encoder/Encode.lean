/- digest: The encoder: an oriented box around the cloud, then the tokens of its octants. -/

import LivoxMid360.Encoder.PrincipalAxes
import LivoxMid360.Encoder.Segments

set_option autoImplicit false
set_option relaxedAutoImplicit false

namespace LivoxMid360.Encoder.Encode

open Foundation.RustOutcome
open Vectors PrincipalAxes Segments

universe u

def minRounds : UInt8 := 1

def maxRounds : UInt8 := 5

def floatsPerSegment : Nat := 4

inductive EncodeError
  | emptyCloud
  | invalidRounds (rounds : UInt8)
  deriving DecidableEq, Repr

/-- The oriented box of a cloud. Its axes are rows. -/
structure Obb (F : Type) where
  center : Vec3 F
  axes : Mat3 F
  halfExtents : Vec3 F

section Model

variable {F : Type} [Zero F] [One F] [Add F] [Sub F] [Mul F] [Div F] [Neg F] [NatCast F] [LT F]
  [LE F] [DecidableLT F] [DecidableLE F] [FloatOps F] {ε : Type u}

/-- `min[k].min(t)`; `none` is the infinity from which the accumulator starts. -/
def lower (min : Option F) (t : F) : Option F :=
  some (min.elim t fun m => FloatOps.min m t)

def upper (max : Option F) (t : F) : Option F :=
  some (max.elim t fun m => FloatOps.max m t)

def extents (mean : Vec3 F) (axes : Mat3 F) (points : List (Vec3 F)) :
    Fin 3 → Option F × Option F :=
  points.foldl
    (fun extents p k =>
      let t := dot (sub p mean) (axes k)
      (lower (extents k).1 t, upper (extents k).2 t))
    fun _ => (none, none)

/-- The box in a given frame. A cloud with points has set every extent, so that no default is
read. -/
def Obb.inFrame (mean : Vec3 F) (axes : Mat3 F) (points : List (Vec3 F)) : Obb F :=
  let min (k : Fin 3) := (extents mean axes points k).1.getD 0
  let max (k : Fin 3) := (extents mean axes points k).2.getD 0
  { center := (List.finRange 3).foldl
      (fun center k => add center (scale (axes k) ((min k + max k) / 2))) mean
    axes
    halfExtents := fun k => (max k - min k) / 2 }

def Obb.fitWith (eigen : Mat3 F → Vec3 F × Mat3 F) (points : List (Vec3 F)) :
    Outcome ε (Obb F) := do
  let (mean, axes) ← pcaWith eigen points
  return Obb.inFrame mean axes points

def Obb.toLocal (obb : Obb F) (p : Vec3 F) : Vec3 F :=
  let d := sub p obb.center
  ![dot d (obb.axes 0), dot d (obb.axes 1), dot d (obb.axes 2)]

/-- The encoder over any decomposition of the covariance. -/
def encodeWith (eigen : Mat3 F → Vec3 F × Mat3 F) (cloud : List (Vec3 F)) (rounds : UInt8) :
    Outcome EncodeError (List F) :=
  if cloud.isEmpty then .err .emptyCloud
  else if ¬ (minRounds ≤ rounds ∧ rounds ≤ maxRounds) then .err (.invalidRounds rounds)
  else do
    let obb ← Obb.fitWith eigen cloud
    let points := cloud.map obb.toLocal
    let min := scale obb.halfExtents (-1)
    return encodeBox points min obb.halfExtents rounds.toNat (points.length : F) []

def pca (trig : Trig F) (points : List (Vec3 F)) : Outcome ε (Vec3 F × Mat3 F) :=
  pcaWith (jacobiEigen trig) points

def Obb.fit (trig : Trig F) (points : List (Vec3 F)) : Outcome ε (Obb F) :=
  Obb.fitWith (jacobiEigen trig) points

def encode (trig : Trig F) (cloud : List (Vec3 F)) (rounds : UInt8) :
    Outcome EncodeError (List F) :=
  encodeWith (jacobiEigen trig) cloud rounds

def Obb.root (obb : Obb F) (cloud : List (Vec3 F)) : Segment F where
  points := cloud.map obb.toLocal
  min := scale obb.halfExtents (-1)
  max := obb.halfExtents

/-- Once the box is fitted, the tokens are those of the leaves of the whole box. -/
theorem encodeWith_eq {eigen : Mat3 F → Vec3 F × Mat3 F} {cloud : List (Vec3 F)} {rounds : UInt8}
    {obb : Obb F} (nonempty : cloud ≠ []) (low : minRounds ≤ rounds) (high : rounds ≤ maxRounds)
    (fitted : (Obb.fitWith eigen cloud : Outcome EncodeError (Obb F)) = .ok obb) :
    encodeWith eigen cloud rounds =
      .ok (((obb.root cloud).leaves rounds.toNat).flatMap
        (Segment.token (cloud.length : F))) := by
  have present : ¬ cloud.isEmpty = true := by rwa [List.isEmpty_iff]
  have valid : ¬ ¬ (minRounds ≤ rounds ∧ rounds ≤ maxRounds) := not_not.mpr ⟨low, high⟩
  have tokens := encodeBox_eq (obb.root cloud) rounds.toNat (cloud.length : F) []
  rw [encodeWith, if_neg present, if_neg valid, fitted, Outcome.ok_bind]
  simp only [List.length_map]
  exact congrArg Outcome.ok tokens

end Model

section Exact

variable {K : Type} [Field K] [LinearOrder K] {ε : Type u}

theorem fitWith_total (eigen : Mat3 K → Vec3 K × Mat3 K) (points : List (Vec3 K)) :
    ∃ axes, (Obb.fitWith eigen points : Outcome ε (Obb K)) =
      .ok (Obb.inFrame (meanOf points) axes points) := by
  obtain ⟨axes, oriented⟩ := pcaWith_total (ε := ε) eigen points
  refine ⟨axes, ?_⟩
  rw [Obb.fitWith, oriented]
  rfl

def middle (mean : Vec3 K) (axes : Mat3 K) (points : List (Vec3 K)) (k : Fin 3) : K :=
  ((extents mean axes points k).1.getD 0 + (extents mean axes points k).2.getD 0) / 2

theorem inFrame_center (mean : Vec3 K) (axes : Mat3 K) (points : List (Vec3 K)) (i : Fin 3) :
    (Obb.inFrame mean axes points).center i = mean i + axes 0 i * middle mean axes points 0 +
      axes 1 i * middle mean axes points 1 + axes 2 i * middle mean axes points 2 := by
  have indices : List.finRange 3 = [0, 1, 2] := rfl
  simp only [Obb.inFrame, indices, List.foldl_cons, List.foldl_nil, Vectors.add_apply,
    scale_apply, middle]

theorem extents_append_singleton (mean : Vec3 K) (axes : Mat3 K) (points : List (Vec3 K))
    (p : Vec3 K) (k : Fin 3) :
    extents mean axes (points ++ [p]) k =
      (lower (extents mean axes points k).1 (dot (sub p mean) (axes k)),
        upper (extents mean axes points k).2 (dot (sub p mean) (axes k))) := by
  rw [extents, List.foldl_append]
  rfl

theorem extents_span (mean : Vec3 K) (axes : Mat3 K) {points : List (Vec3 K)}
    (nonempty : points ≠ []) (k : Fin 3) :
    ∃ p ∈ points, ∃ q ∈ points,
      extents mean axes points k =
        (some (dot (sub p mean) (axes k)), some (dot (sub q mean) (axes k))) ∧
      ∀ r ∈ points, dot (sub p mean) (axes k) ≤ dot (sub r mean) (axes k) ∧
        dot (sub r mean) (axes k) ≤ dot (sub q mean) (axes k) := by
  induction points using List.reverseRecOn with
  | nil => exact absurd rfl nonempty
  | append_singleton points s ih =>
    have last : s ∈ points ++ [s] := List.mem_append_right points (List.mem_singleton_self s)
    rw [extents_append_singleton]
    -- the first point sets both ends, any later one moves an end or none
    by_cases first : points = []
    · refine ⟨s, last, s, last, by rw [first]; rfl, ?_⟩
      intro r hr
      rw [first, List.nil_append, List.mem_singleton] at hr
      rw [hr]
      exact ⟨le_rfl, le_rfl⟩
    obtain ⟨p, hp, q, hq, set, bounds⟩ := ih first
    have low : ∃ p' ∈ points ++ [s],
        lower (extents mean axes points k).1 (dot (sub s mean) (axes k)) =
          some (dot (sub p' mean) (axes k)) ∧
        dot (sub p' mean) (axes k) ≤ dot (sub p mean) (axes k) ∧
        dot (sub p' mean) (axes k) ≤ dot (sub s mean) (axes k) := by
      rw [set]
      rcases le_total (dot (sub p mean) (axes k)) (dot (sub s mean) (axes k)) with keep | new
      · exact ⟨p, List.mem_append_left _ hp, congrArg some (min_eq_left keep), le_rfl, keep⟩
      · exact ⟨s, last, congrArg some (min_eq_right new), new, le_rfl⟩
    have high : ∃ q' ∈ points ++ [s],
        upper (extents mean axes points k).2 (dot (sub s mean) (axes k)) =
          some (dot (sub q' mean) (axes k)) ∧
        dot (sub q mean) (axes k) ≤ dot (sub q' mean) (axes k) ∧
        dot (sub s mean) (axes k) ≤ dot (sub q' mean) (axes k) := by
      rw [set]
      rcases le_total (dot (sub s mean) (axes k)) (dot (sub q mean) (axes k)) with keep | new
      · exact ⟨q, List.mem_append_left _ hq, congrArg some (max_eq_left keep), le_rfl, keep⟩
      · exact ⟨s, last, congrArg some (max_eq_right new), new, le_rfl⟩
    obtain ⟨p', hp', lowest, below, belowNew⟩ := low
    obtain ⟨q', hq', highest, above, aboveNew⟩ := high
    refine ⟨p', hp', q', hq', Prod.ext lowest highest, ?_⟩
    intro r hr
    rcases List.mem_append.mp hr with earlier | new
    · exact ⟨below.trans (bounds r earlier).1, (bounds r earlier).2.trans above⟩
    · rw [List.mem_singleton.mp new]
      exact ⟨belowNew, aboveNew⟩

theorem extents_bound (mean : Vec3 K) (axes : Mat3 K) {points : List (Vec3 K)}
    (nonempty : points ≠ []) (k : Fin 3) :
    ∃ m M, extents mean axes points k = (some m, some M) ∧
      ∀ p ∈ points, m ≤ dot (sub p mean) (axes k) ∧ dot (sub p mean) (axes k) ≤ M := by
  obtain ⟨p, _, q, _, set, bounds⟩ := extents_span mean axes nonempty k
  exact ⟨_, _, set, bounds⟩

variable [IsStrictOrderedRing K]

theorem halfExtents_nonneg (mean : Vec3 K) (axes : Mat3 K) {points : List (Vec3 K)}
    (nonempty : points ≠ []) (k : Fin 3) :
    0 ≤ (Obb.inFrame mean axes points).halfExtents k := by
  obtain ⟨m, M, set, bounds⟩ := extents_bound mean axes nonempty k
  obtain ⟨p, member⟩ := List.exists_mem_of_ne_nil points nonempty
  have ordered : m ≤ M := (bounds p member).1.trans (bounds p member).2
  rw [Obb.inFrame]
  simp only [set, Option.getD_some]
  exact div_nonneg (sub_nonneg.mpr ordered) (Nat.cast_nonneg 2)

end Exact

end LivoxMid360.Encoder.Encode
