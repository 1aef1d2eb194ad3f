/- digest: The encoder sees the shape of a cloud only: not its origin, not the order of its
points. -/

import LivoxMid360.Encoder.TokenTree

set_option autoImplicit false
set_option relaxedAutoImplicit false

namespace LivoxMid360.Encoder.Shape

open Foundation.RustOutcome Foundation.ListBlocks
open Vectors PrincipalAxes Segments Encode TokenTree

universe u

section Order

variable {K : Type} [Field K] [LinearOrder K]

omit [LinearOrder K] in
theorem covarianceOf_perm {points points' : List (Vec3 K)} (same : points'.Perm points)
    (mean : Vec3 K) : covarianceOf points' mean = covarianceOf points mean := by
  rw [covarianceOf, covarianceOf, same.length_eq]
  apply same.foldl_eq'
  intro p _ q _ covariance
  ext i j
  exact add_right_comm _ _ _

theorem extents_perm {points points' : List (Vec3 K)} (same : points'.Perm points)
    (mean : Vec3 K) (axes : Mat3 K) : extents mean axes points' = extents mean axes points := by
  have lowers (m : Option K) (s t : K) : lower (lower m s) t = lower (lower m t) s := by
    cases m with
    | none => exact congrArg some (min_comm s t)
    | some m => exact congrArg some (min_right_comm m s t)
  have uppers (m : Option K) (s t : K) : upper (upper m s) t = upper (upper m t) s := by
    cases m with
    | none => exact congrArg some (max_comm s t)
    | some m => exact congrArg some (max_right_comm m s t)
  apply same.foldl_eq'
  intro p _ q _ extents
  funext k
  exact Prod.ext (lowers _ _ _) (uppers _ _ _)

omit [LinearOrder K] in
theorem meanOf_eq_sum_div (points : List (Vec3 K)) (k : Fin 3) :
    meanOf points k = (points.map (· k)).sum / points.length := by
  have folded := @List.sum_eq_foldl _ _ _ _ _ (points.map fun p => p k / (points.length : K))
  rw [List.foldl_map] at folded
  rw [meanOf_apply, ← folded]
  simp only [div_eq_mul_inv, List.sum_map_mul_right]

omit [LinearOrder K] in
theorem covarianceOf_eq_sum_div (points : List (Vec3 K)) (mean : Vec3 K) (i j : Fin 3) :
    covarianceOf points mean i j =
      (points.map fun p => sub p mean i * sub p mean j).sum / points.length := by
  have folded := @List.sum_eq_foldl _ _ _ _ _
    (points.map fun p => sub p mean i * sub p mean j / (points.length : K))
  rw [List.foldl_map] at folded
  rw [covarianceOf_apply, ← folded]
  simp only [div_eq_mul_inv, List.sum_map_mul_right]

end Order

section Offsets

variable {K : Type} [Field K] [LinearOrder K]

/-- The cloud as its own mean sees it. -/
def offsets (points : List (Vec3 K)) : List (Vec3 K) := points.map fun p => sub p (meanOf points)

def origin : Vec3 K := fun _ => 0

omit [LinearOrder K] in
theorem sub_origin (p : Vec3 K) : sub p origin = p := by
  ext k
  rw [Vectors.sub_apply, origin, sub_zero]

omit [LinearOrder K] in
theorem covarianceOf_offsets (points : List (Vec3 K)) :
    covarianceOf points (meanOf points) = covarianceOf (offsets points) origin := by
  simp only [covarianceOf, offsets, List.foldl_map, List.length_map, sub_origin]

theorem extents_offsets (axes : Mat3 K) (points : List (Vec3 K)) :
    extents (meanOf points) axes points = extents origin axes (offsets points) := by
  simp only [extents, offsets, List.foldl_map, sub_origin]

theorem toLocal_offsets (axes : Mat3 K) (points : List (Vec3 K)) (p : Vec3 K) :
    (Obb.inFrame (meanOf points) axes points).toLocal p =
      (Obb.inFrame origin axes (offsets points)).toLocal (sub p (meanOf points)) := by
  have moved : sub p (Obb.inFrame (meanOf points) axes points).center =
      sub (sub p (meanOf points)) (Obb.inFrame origin axes (offsets points)).center := by
    ext i
    simp only [Vectors.sub_apply, inFrame_center, middle, extents_offsets, origin]
    ring
  rw [Obb.toLocal, Obb.toLocal, moved]
  rfl

theorem root_offsets (axes : Mat3 K) (points : List (Vec3 K)) :
    (Obb.inFrame (meanOf points) axes points).root points =
      (Obb.inFrame origin axes (offsets points)).root (offsets points) := by
  have framed : points.map (Obb.inFrame (meanOf points) axes points).toLocal =
      (offsets points).map (Obb.inFrame origin axes (offsets points)).toLocal := by
    rw [offsets, List.map_map]
    exact List.map_congr_left fun p _ => toLocal_offsets axes points p
  have half : (Obb.inFrame (meanOf points) axes points).halfExtents =
      (Obb.inFrame origin axes (offsets points)).halfExtents := by
    simp only [Obb.inFrame, extents_offsets]
  rw [Obb.root, Obb.root, framed, half]

variable [IsStrictOrderedRing K]

/-- A translated cloud, in any order, has the offsets of the cloud, in some order. -/
theorem offsets_perm {cloud cloud' : List (Vec3 K)} {t : Vec3 K}
    (moved : cloud'.Perm (cloud.map fun p => add p t)) :
    (offsets cloud').Perm (offsets cloud) := by
  by_cases empty : cloud = []
  · rw [empty, List.map_nil] at moved
    rw [empty, moved.eq_nil]
  have count : (cloud.length : K) ≠ 0 :=
    Nat.cast_ne_zero.mpr (mt List.length_eq_zero_iff.mp empty)
  have mean : meanOf cloud' = add (meanOf cloud) t := by
    ext k
    have sums : ((cloud.map fun p => add p t).map (· k)).sum =
        (cloud.map (· k)).sum + cloud.length * t k := by
      simp only [List.map_map, Function.comp_def, Vectors.add_apply, List.sum_map_add,
        List.map_const', List.sum_replicate, nsmul_eq_mul]
    rw [Vectors.add_apply, meanOf_eq_sum_div, meanOf_eq_sum_div, (moved.map (· k)).sum_eq, sums,
      moved.length_eq, List.length_map, add_div, mul_div_cancel_left₀ _ count]
  have same : (cloud.map fun p => add p t).map (fun p => sub p (meanOf cloud')) =
      offsets cloud := by
    rw [List.map_map]
    apply List.map_congr_left
    intro p _
    ext k
    rw [Function.comp_apply, mean, Vectors.sub_apply, Vectors.sub_apply, Vectors.add_apply,
      Vectors.add_apply, add_sub_add_right_eq_sub]
  rw [← same]
  exact moved.map _

end Offsets

section Tokens

variable {K : Type} [Field K] [LinearOrder K]

/-- One box with the points of the other, in any order. -/
structure Rearranged (s' s : Segment K) : Prop where
  points : s'.points.Perm s.points
  min : s'.min = s.min
  max : s'.max = s.max

theorem Rearranged.child {s' s : Segment K} (same : Rearranged s' s) (index : Fin 8) :
    Rearranged (s'.child index) (s.child index) := by
  have mid : s'.mid = s.mid := by rw [Segment.mid, Segment.mid, same.min, same.max]
  constructor
  · rw [Segment.child, Segment.child, mid]
    exact same.points.filter _
  · rw [Segment.child, Segment.child, mid, same.min, same.max]
  · rw [Segment.child, Segment.child, mid, same.min, same.max]

theorem Rearranged.token {s' s : Segment K} (same : Rearranged s' s) (total : K) :
    s'.token total = s.token total := by
  have sums : s'.points.foldl (fun sum p axis => sum axis + p axis) (fun _ => (0 : K)) =
      s.points.foldl (fun sum p axis => sum axis + p axis) fun _ => 0 := by
    ext k
    rw [foldl_sum, foldl_sum, (same.points.map (· k)).sum_eq]
  rw [Segment.token, Segment.token, pushSegment, pushSegment, sums, same.min, same.max,
    same.points.length_eq, same.points.isEmpty_eq]

theorem Rearranged.tokens {s' s : Segment K} (same : Rearranged s' s) (total : K) (depth : Nat) :
    (s'.leaves depth).flatMap (Segment.token total) =
      (s.leaves depth).flatMap (Segment.token total) := by
  induction depth generalizing s' s with
  | zero =>
    rw [Segment.leaves, Segment.leaves, List.flatMap_singleton, List.flatMap_singleton,
      same.token]
  | succ depth ih =>
    rw [Segment.leaves, Segment.leaves, List.flatMap_assoc, List.flatMap_assoc, Segment.children,
      Segment.children, List.flatMap_map, List.flatMap_map]
    exact List.flatMap_congr fun index _ => ih (same.child index)

theorem root_rearranged {points points' : List (Vec3 K)} (same : points'.Perm points)
    (axes : Mat3 K) :
    Rearranged ((Obb.inFrame origin axes points').root points')
      ((Obb.inFrame origin axes points).root points) := by
  have box : Obb.inFrame origin axes points' = Obb.inFrame origin axes points := by
    rw [Obb.inFrame, Obb.inFrame, extents_perm same]
  rw [box]
  exact ⟨same.map _, rfl, rfl⟩

end Tokens

section Runs

variable {K : Type} [Field K] [LinearOrder K] {ε : Type u}

theorem fitWith_same (eigen : Mat3 K → Vec3 K × Mat3 K) {points points' : List (Vec3 K)}
    (same : covarianceOf points' (meanOf points') = covarianceOf points (meanOf points)) :
    ∃ axes,
      (Obb.fitWith eigen points' : Outcome ε (Obb K)) =
        .ok (Obb.inFrame (meanOf points') axes points') ∧
      (Obb.fitWith eigen points : Outcome ε (Obb K)) =
        .ok (Obb.inFrame (meanOf points) axes points) := by
  simp only [Obb.fitWith, pcaWith, same]
  obtain ⟨values, vectors⟩ := eigen (covarianceOf points (meanOf points))
  obtain ⟨axes, sorted⟩ := sortedAxes_total (ε := ε) values vectors
  refine ⟨axes, ?_, ?_⟩
  · simp only [sorted, Outcome.ok_bind, Outcome.pure_eq_ok]
  · simp only [sorted, Outcome.ok_bind, Outcome.pure_eq_ok]

variable [IsStrictOrderedRing K]

/-- A cloud and its translate, in any order of the points, have one encoding. -/
theorem encodeWith_shape (eigen : Mat3 K → Vec3 K × Mat3 K) {cloud cloud' : List (Vec3 K)}
    {t : Vec3 K} (moved : cloud'.Perm (cloud.map fun p => add p t)) (nonempty : cloud ≠ [])
    (r : UInt8) (low : 1 ≤ r) (high : r ≤ 5) :
    encodeWith eigen cloud' r = encodeWith eigen cloud r := by
  have offset := offsets_perm moved
  have size : cloud'.length = cloud.length := by rw [moved.length_eq, List.length_map]
  have nonempty' : cloud' ≠ [] := fun empty => by
    rw [empty, List.length_nil] at size
    exact nonempty (List.length_eq_zero_iff.mp size.symm)
  have covariance : covarianceOf cloud' (meanOf cloud') = covarianceOf cloud (meanOf cloud) := by
    rw [covarianceOf_offsets, covarianceOf_offsets, covarianceOf_perm offset]
  obtain ⟨axes, fitted', fitted⟩ := fitWith_same (ε := EncodeError) eigen covariance
  have rearranged := root_rearranged offset axes
  rw [← root_offsets, ← root_offsets] at rearranged
  rw [encodeWith_eq nonempty' low high fitted', encodeWith_eq nonempty low high fitted, size,
    rearranged.tokens]

end Runs

theorem encodeWith_shape_line :
    encode noAngles [![4, 1, 1], ![2, 1, 1], ![1, 1, 1]] 1 = encode noAngles line 1 := by
  have moved : [![4, 1, 1], ![2, 1, 1], ![1, 1, 1]].Perm
      (line.map fun p => add p ![1, 1, 1]) := by
    decide +kernel
  exact encodeWith_shape (jacobiEigen noAngles) moved (List.cons_ne_nil _ _) 1 (by decide)
    (by decide)

end LivoxMid360.Encoder.Shape
