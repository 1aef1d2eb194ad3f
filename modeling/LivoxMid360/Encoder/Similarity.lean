/- digest: The encoder sees neither the size of a cloud nor how often its points are repeated. -/

import LivoxMid360.Encoder.JacobiRotations
import LivoxMid360.Encoder.Shape
import LivoxMid360.Encoder.VectorAlgebra

set_option autoImplicit false
set_option relaxedAutoImplicit false

namespace LivoxMid360.Encoder.Similarity

open Foundation.RustOutcome Foundation.ListBlocks
open Vectors VectorAlgebra PrincipalAxes Segments Encode Shape JacobiRotations
open TokenTree (line noAngles)

universe u

section Rotations

variable {K : Type} [Field K]

def scaled (s : K) (a : Mat3 K) : Mat3 K := fun i j => s * a i j

theorem jacobiStep_scaled {trig : Trig K} {s : K} {p q : Fin 3} {a : Mat3 K}
    (angle : trig.atan2 (s * (2 * a p q)) (s * (a q q - a p p)) =
      trig.atan2 (2 * a p q) (a q q - a p p)) (v : Mat3 K) :
    jacobiStep trig p q (scaled s a, v) =
      (scaled s (jacobiStep trig p q (a, v)).1, (jacobiStep trig p q (a, v)).2) := by
  have same : trig.atan2 (2 * scaled s a p q) (scaled s a q q - scaled s a p p) =
      trig.atan2 (2 * a p q) (a q q - a p p) := by
    rw [scaled, scaled, scaled, ← mul_sub, mul_left_comm, angle]
  rw [jacobiStep, jacobiStep]
  simp only [same]
  refine Prod.ext ?_ rfl
  ext r k
  simp only [rotateRows, rotateColumns, scaled]
  split_ifs <;> ring

variable [LinearOrder K]

/-- What is assumed of `atan2`: it reads the direction of its two arguments only. -/
def Directional (trig : Trig K) : Prop :=
  ∀ s y x, 0 < s → trig.atan2 (s * y) (s * x) = trig.atan2 y x

variable [IsStrictOrderedRing K] {s : K} (positive : 0 < s)

include positive

theorem foldl_better_scaled (a : Mat3 K) (cs : List (Fin 3 × Fin 3)) (p q : Fin 3) (off : K) :
    cs.foldl (better (scaled s a)) (p, q, s * off) =
      ((cs.foldl (better a) (p, q, off)).1, (cs.foldl (better a) (p, q, off)).2.1,
        s * (cs.foldl (better a) (p, q, off)).2.2) := by
  induction cs generalizing p q off with
  | nil => rfl
  | cons c cs ih =>
    have entry : |scaled s a c.1 c.2| = s * |a c.1 c.2| := by
      rw [scaled, abs_mul, abs_of_pos positive]
    have step : better (scaled s a) (p, q, s * off) c =
        ((better a (p, q, off) c).1, (better a (p, q, off) c).2.1,
          s * (better a (p, q, off) c).2.2) := by
      simp only [better, entry, mul_lt_mul_iff_right₀ positive]
      split_ifs
      · rfl
      · rfl
    rw [List.foldl_cons, step, ih]
    rfl

theorem pivot_scaled {a : Mat3 K} {p q : Fin 3} {off : K} (pivoted : pivot a = (p, q, off)) :
    pivot (scaled s a) = (p, q, s * off) := by
  have scan := foldl_better_scaled positive a [(0, 1), (0, 2), (1, 2)] 0 1 0
  rw [mul_zero, ← pivot_eq, ← pivot_eq, pivoted] at scan
  exact scan

variable {trig : Trig K} (directional : Directional trig)

include directional

/-- The loop takes the same turns on a scaled matrix, and as many. -/
theorem jacobiLoop_scaled (t : K) (n : Nat) (a v : Mat3 K) :
    jacobiLoop trig (s * t) n (scaled s a, v) =
      (scaled s (jacobiLoop trig t n (a, v)).1, (jacobiLoop trig t n (a, v)).2) := by
  induction n generalizing a v with
  | zero => rfl
  | succ n ih =>
    obtain ⟨p, q, off, pivoted⟩ : ∃ p q off, pivot a = (p, q, off) := ⟨_, _, _, rfl⟩
    rw [jacobiLoop_of_pivot (pivot_scaled positive pivoted), jacobiLoop_of_pivot pivoted]
    -- the tolerance scales with the matrix: both loops stop together
    by_cases stops : off ≤ t
    · rw [if_pos stops, if_pos (mul_le_mul_of_nonneg_left stops positive.le)]
    · rw [if_neg stops, if_neg (mt (le_of_mul_le_mul_left · positive) stops),
        jacobiStep_scaled (directional s _ _ positive), ih]

theorem jacobiEigen_scaled (a : Mat3 K) :
    jacobiEigen trig (scaled s a) =
      (fun i => s * (jacobiEigen trig a).1 i, (jacobiEigen trig a).2) := by
  have bound : tolerance (scaled s a) = s * tolerance a := by
    simp only [tolerance, scaled]
    ring
  have runs : working trig (scaled s a) 32 =
      (scaled s (working trig a 32).1, (working trig a 32).2) := by
    rw [working, bound]
    exact jacobiLoop_scaled positive directional _ 32 a _
  rw [jacobiEigen_eq, jacobiEigen_eq, runs]
  rfl

omit directional in
theorem sortedAxes_scaled {ε : Type u} (values : Vec3 K) (vectors : Mat3 K) :
    (sortedAxes (fun i => s * values i) vectors : Outcome ε (Mat3 K)) =
      sortedAxes values vectors := by
  have compares (a b : Fin 3) : (unwrap (FloatOps.partialCmp (s * values b) (s * values a)) :
      Outcome ε Ordering) = unwrap (FloatOps.partialCmp (values b) (values a)) := by
    rw [unwrap_partialCmp, unwrap_partialCmp, cmp_mul_pos_left positive]
  rw [sortedAxes, sortedAxes]
  simp only [compares]

end Rotations

section Offsets

variable {K : Type} [Field K] [LinearOrder K] [IsStrictOrderedRing K]

/-- A cloud that is scaled, moved, and repeated, in any order, has the offsets of the cloud scaled
and repeated, in some order. -/
theorem offsets_similar {cloud cloud' : List (Vec3 K)} {c : K} {t : Vec3 K} {n : Nat}
    (some : n ≠ 0)
    (moved : cloud'.Perm ((copies n cloud).map fun p => add (scale p c) t)) :
    (offsets cloud').Perm ((copies n (offsets cloud)).map fun d => scale d c) := by
  by_cases empty : cloud = []
  · have none : copies n ([] : List (Vec3 K)) = [] := by
      rw [← List.length_eq_zero_iff, length_copies, List.length_nil, Nat.mul_zero]
    rw [empty, none, List.map_nil] at moved
    rw [moved.eq_nil, empty, offsets, List.map_nil, none]
    exact .refl []
  have count : (n : K) * cloud.length ≠ 0 := by
    rw [← Nat.cast_mul]
    exact Nat.cast_ne_zero.mpr (Nat.mul_ne_zero some (mt List.length_eq_zero_iff.mp empty))
  -- the mean moves with the points, so the offsets are only scaled
  have mean : meanOf cloud' = add (scale (meanOf cloud) c) t := by
    ext k
    have sums : (((copies n cloud).map fun p => add (scale p c) t).map (· k)).sum =
        n * cloud.length * ((cloud.map (· k)).sum / cloud.length * c + t k) := by
      have inner : (cloud.length : K) ≠ 0 := right_ne_zero_of_mul count
      simp only [List.map_map, Function.comp_def, Vectors.add_apply, scale_apply, List.sum_map_add,
        List.map_const', List.sum_replicate, nsmul_eq_mul, List.sum_map_mul_right,
        map_copies, sum_copies]
      field_simp
    rw [Vectors.add_apply, scale_apply, meanOf_eq_sum_div, meanOf_eq_sum_div,
      (moved.map (· k)).sum_eq, sums, moved.length_eq, List.length_map, length_copies, Nat.cast_mul,
      mul_div_cancel_left₀ _ count]
  have same : ((copies n cloud).map fun p => add (scale p c) t).map
      (fun p => sub p (meanOf cloud')) = (copies n (offsets cloud)).map fun d => scale d c := by
    rw [offsets, ← map_copies, List.map_map, List.map_map]
    apply List.map_congr_left
    intro p _
    ext k
    simp only [Function.comp_apply, mean, Vectors.sub_apply, Vectors.add_apply, scale_apply]
    ring
  rw [← same]
  exact moved.map _

theorem covarianceOf_similar {cloud cloud' : List (Vec3 K)} {c : K} {t : Vec3 K} {n : Nat}
    (some : n ≠ 0)
    (moved : cloud'.Perm ((copies n cloud).map fun p => add (scale p c) t)) :
    covarianceOf cloud' (meanOf cloud') =
      scaled (c * c) (covarianceOf cloud (meanOf cloud)) := by
  have count : (n : K) ≠ 0 := Nat.cast_ne_zero.mpr some
  rw [covarianceOf_offsets, covarianceOf_offsets, covarianceOf_perm (offsets_similar some moved)]
  ext i j
  have products : (((copies n (offsets cloud)).map fun d => scale d c).map fun d =>
      sub d origin i * sub d origin j).sum =
        n * (c * c * ((offsets cloud).map fun d => sub d origin i * sub d origin j).sum) := by
    have pair (d : Vec3 K) : sub (scale d c) origin i * sub (scale d c) origin j =
        c * c * (sub d origin i * sub d origin j) := by
      simp only [sub_origin, scale_apply]
      ring
    simp only [List.map_map, Function.comp_def, pair, map_copies, sum_copies, nsmul_eq_mul,
      List.sum_map_mul_left]
  rw [scaled, covarianceOf_eq_sum_div, covarianceOf_eq_sum_div, products, List.length_map,
    length_copies, Nat.cast_mul, mul_div_mul_left _ _ count, mul_div_assoc]

omit [IsStrictOrderedRing K] in
theorem extents_eq {mean : Vec3 K} {axes : Mat3 K} {points : List (Vec3 K)} {k : Fin 3}
    {p q : Vec3 K} (hp : p ∈ points) (hq : q ∈ points)
    (bounds : ∀ r ∈ points, dot (sub p mean) (axes k) ≤ dot (sub r mean) (axes k) ∧
      dot (sub r mean) (axes k) ≤ dot (sub q mean) (axes k)) :
    extents mean axes points k =
      (some (dot (sub p mean) (axes k)), some (dot (sub q mean) (axes k))) := by
  obtain ⟨p', hp', q', hq', set, least⟩ :=
    extents_span mean axes (List.ne_nil_of_mem hp) k
  rw [set, le_antisymm (bounds p' hp').1 (least p hp).1,
    le_antisymm (least q hq).2 (bounds q' hq').2]

variable {c : K} (positive : 0 < c)

include positive

theorem inFrame_similar (axes : Mat3 K) {points points' : List (Vec3 K)} (nonempty : points ≠ [])
    {n : Nat} (some : n ≠ 0)
    (moved : points'.Perm ((copies n points).map fun d => scale d c)) :
    (Obb.inFrame origin axes points').center = scale (Obb.inFrame origin axes points).center c ∧
      (Obb.inFrame origin axes points').halfExtents =
        scale (Obb.inFrame origin axes points).halfExtents c := by
  have set (k : Fin 3) : ∃ m M, extents origin axes points k = (Option.some m, Option.some M) ∧
      extents origin axes points' k = (Option.some (c * m), Option.some (c * M)) := by
    obtain ⟨p, hp, q, hq, span, bounds⟩ := extents_span origin axes nonempty k
    have member {d : Vec3 K} (inside : d ∈ points) : scale d c ∈ points' :=
      moved.mem_iff.mpr (List.mem_map_of_mem ((mem_copies some).mpr inside))
    have ends : ∀ r ∈ points',
        dot (sub (scale p c) origin) (axes k) ≤ dot (sub r origin) (axes k) ∧
          dot (sub r origin) (axes k) ≤ dot (sub (scale q c) origin) (axes k) := by
      intro r hr
      obtain ⟨d, inside, rfl⟩ := List.mem_map.mp (moved.mem_iff.mp hr)
      have around := bounds d ((mem_copies some).mp inside)
      simp only [sub_origin] at around
      simp only [sub_origin, dot_scale_left]
      exact ⟨mul_le_mul_of_nonneg_left around.1 positive.le,
        mul_le_mul_of_nonneg_left around.2 positive.le⟩
    refine ⟨_, _, span, ?_⟩
    rw [extents_eq (member hp) (member hq) ends]
    simp only [sub_origin, dot_scale_left]
  constructor
  · ext i
    obtain ⟨m₀, M₀, plain₀, wide₀⟩ := set 0
    obtain ⟨m₁, M₁, plain₁, wide₁⟩ := set 1
    obtain ⟨m₂, M₂, plain₂, wide₂⟩ := set 2
    rw [scale_apply, inFrame_center, inFrame_center]
    simp only [middle, plain₀, wide₀, plain₁, wide₁, plain₂, wide₂, Option.getD_some, origin]
    ring
  · ext k
    obtain ⟨m, M, plain, wide⟩ := set k
    rw [scale_apply]
    simp only [Obb.inFrame, plain, wide, Option.getD_some]
    ring

end Offsets

section Tokens

variable {K : Type} [Field K]

/-- One box scaled, with the points of the other scaled and repeated, in any order. -/
structure Similar (n : Nat) (c : K) (s' s : Segment K) : Prop where
  points : s'.points.Perm ((copies n s.points).map fun p => scale p c)
  min : s'.min = scale s.min c
  max : s'.max = scale s.max c

theorem Similar.mid {n : Nat} {c : K} {s' s : Segment K} (similar : Similar n c s' s) :
    s'.mid = scale s.mid c := by
  ext k
  rw [Segment.mid, Segment.mid, similar.min, similar.max, scale_apply, midpoint_apply,
    midpoint_apply, scale_apply, scale_apply]
  ring

variable [LinearOrder K] [IsStrictOrderedRing K] {c : K} (positive : 0 < c)

include positive

theorem octantIndex_scale (p mid : Vec3 K) :
    octantIndex (scale p c) (scale mid c) = octantIndex p mid := by
  simp only [octantIndex, scale_apply, mul_le_mul_iff_left₀ positive]

theorem normalizeToSegment_scale (p min max : Vec3 K) :
    normalizeToSegment (scale p c) (scale min c) (scale max c) = normalizeToSegment p min max := by
  ext k
  simp only [normalizeToSegment, scale_apply, ← sub_mul, mul_pos_iff_of_pos_right positive]
  rw [← mul_assoc, mul_div_mul_right _ _ positive.ne']

variable {n : Nat} {s' s : Segment K} (similar : Similar n c s' s)

include similar

theorem Similar.child (index : Fin 8) : Similar n c (s'.child index) (s.child index) := by
  constructor
  · have kept := similar.points.filter fun p => octantIndex p s'.mid = index
    rw [List.filter_map, filter_copies] at kept
    simp only [Segment.child]
    refine kept.trans (List.Perm.of_eq ?_)
    refine congrArg (fun l => (copies n l).map fun p => scale p c) (List.filter_congr fun p _ => ?_)
    rw [Function.comp_apply, similar.mid, octantIndex_scale positive]
  · ext k
    simp only [Segment.child, childBounds, similar.mid, similar.min, scale_apply]
    split_ifs
    · rfl
    · rfl
  · ext k
    simp only [Segment.child, childBounds, similar.mid, similar.max, scale_apply]
    split_ifs
    · rfl
    · rfl

theorem Similar.token (some : n ≠ 0) (total : K) :
    s'.token (n * total) = s.token total := by
  have count : (n : K) ≠ 0 := Nat.cast_ne_zero.mpr some
  have size : s'.points.length = n * s.points.length := by
    rw [similar.points.length_eq, List.length_map, length_copies]
  have empty : s'.points.isEmpty = s.points.isEmpty := by
    rw [Bool.eq_iff_iff, List.isEmpty_iff_length_eq_zero, List.isEmpty_iff_length_eq_zero, size,
      Nat.mul_eq_zero, or_iff_right some]
  have mean : scale (s'.points.foldl (fun sum p axis => sum axis + p axis) fun _ => 0)
      (1 / (s'.points.length : K)) =
        scale (scale (s.points.foldl (fun sum p axis => sum axis + p axis) fun _ => 0)
          (1 / (s.points.length : K))) c := by
    ext k
    rw [scale_apply, scale_apply, scale_apply, foldl_sum, foldl_sum,
      (similar.points.map (· k)).sum_eq, size, Nat.cast_mul]
    simp only [List.map_map, Function.comp_def, scale_apply, List.sum_map_mul_right, map_copies,
      sum_copies, nsmul_eq_mul, zero_add]
    rw [mul_one_div, mul_assoc, mul_div_mul_left _ _ count]
    ring
  rw [Segment.token, Segment.token, pushSegment, pushSegment]
  dsimp only
  rw [mean, empty, similar.min, similar.max, normalizeToSegment_scale positive, size, Nat.cast_mul,
    mul_div_mul_left _ _ count]

theorem Similar.tokens (some : n ≠ 0) (total : K) (depth : Nat) :
    (s'.leaves depth).flatMap (Segment.token (n * total)) =
      (s.leaves depth).flatMap (Segment.token total) := by
  induction depth generalizing s' s with
  | zero =>
    rw [Segment.leaves, Segment.leaves, List.flatMap_singleton, List.flatMap_singleton,
      similar.token positive some]
  | succ depth ih =>
    rw [Segment.leaves, Segment.leaves, List.flatMap_assoc, List.flatMap_assoc, Segment.children,
      Segment.children, List.flatMap_map, List.flatMap_map]
    exact List.flatMap_congr fun index _ => ih (similar.child positive index)

end Tokens

section Runs

variable {K : Type} [Field K] [LinearOrder K] [IsStrictOrderedRing K]

theorem root_similar {c : K} (positive : 0 < c) (axes : Mat3 K) {points points' : List (Vec3 K)}
    (nonempty : points ≠ []) {n : Nat} (some : n ≠ 0)
    (moved : points'.Perm ((copies n points).map fun d => scale d c)) :
    Similar n c ((Obb.inFrame origin axes points').root points')
      ((Obb.inFrame origin axes points).root points) := by
  obtain ⟨center, half⟩ := inFrame_similar positive axes nonempty some moved
  have coordinates (d : Vec3 K) : (Obb.inFrame origin axes points').toLocal (scale d c) =
      scale ((Obb.inFrame origin axes points).toLocal d) c := by
    have apart : sub (scale d c) (Obb.inFrame origin axes points').center =
        scale (sub d (Obb.inFrame origin axes points).center) c := by
      ext k
      rw [center]
      simp only [Vectors.sub_apply, scale_apply]
      ring
    rw [Obb.toLocal, apart]
    ext k
    rw [scale_apply, mul_comm]
    fin_cases k
    · exact dot_scale_left _ _ c
    · exact dot_scale_left _ _ c
    · exact dot_scale_left _ _ c
  constructor
  · have framed := moved.map (Obb.inFrame origin axes points').toLocal
    rw [List.map_map] at framed
    rw [Obb.root, Obb.root, ← map_copies, List.map_map]
    exact framed.trans (List.Perm.of_eq (List.map_congr_left fun d _ => coordinates d))
  · ext k
    rw [Obb.root, Obb.root, half]
    simp only [scale_apply]
    ring
  · exact half

variable {trig : Trig K} (directional : Directional trig) {cloud cloud' : List (Vec3 K)} {c : K}
  (positive : 0 < c) {t : Vec3 K} {n : Nat} (some : n ≠ 0)
  (moved : cloud'.Perm ((copies n cloud).map fun p => add (scale p c) t))

include directional positive some moved

theorem fit_similar {ε : Type u} : ∃ axes,
    (Obb.fit trig cloud' : Outcome ε (Obb K)) =
      .ok (Obb.inFrame (meanOf cloud') axes cloud') ∧
    (Obb.fit trig cloud : Outcome ε (Obb K)) = .ok (Obb.inFrame (meanOf cloud) axes cloud) := by
  obtain ⟨axes, sorted⟩ := sortedAxes_total (ε := ε)
    (jacobiEigen trig (covarianceOf cloud (meanOf cloud))).1
    (jacobiEigen trig (covarianceOf cloud (meanOf cloud))).2
  have sorted' := (sortedAxes_scaled (ε := ε) (mul_pos positive positive) _ _).trans sorted
  refine ⟨axes, ?_, ?_⟩
  · rw [Obb.fit, Obb.fitWith, pcaWith, covarianceOf_similar some moved,
      jacobiEigen_scaled (mul_pos positive positive) directional]
    simp only [sorted', Outcome.ok_bind, Outcome.pure_eq_ok]
  · rw [Obb.fit, Obb.fitWith, pcaWith]
    simp only [sorted, Outcome.ok_bind, Outcome.pure_eq_ok]

/-- A cloud that is scaled, moved and repeated, in any order of the points, has the encoding of
the cloud. -/
theorem encode_similar (r : UInt8) : encode trig cloud' r = encode trig cloud r := by
  have size : cloud'.length = n * cloud.length := by
    rw [moved.length_eq, List.length_map, length_copies]
  have present : cloud'.isEmpty = cloud.isEmpty := by
    rw [Bool.eq_iff_iff, List.isEmpty_iff_length_eq_zero, List.isEmpty_iff_length_eq_zero, size,
      Nat.mul_eq_zero, or_iff_right some]
  by_cases empty : cloud.isEmpty = true
  · rw [encode, encode, encodeWith, encodeWith, if_pos (present.trans empty), if_pos empty]
  by_cases valid : minRounds ≤ r ∧ r ≤ maxRounds
  · have nonempty : cloud ≠ [] := mt List.isEmpty_iff.mpr empty
    have nonempty' : cloud' ≠ [] := mt List.isEmpty_iff.mpr (present ▸ empty)
    obtain ⟨axes, fitted', fitted⟩ :=
      fit_similar (ε := EncodeError) directional positive some moved
    have offsetsNonempty : offsets cloud ≠ [] := mt List.map_eq_nil_iff.mp nonempty
    have similar := root_similar positive axes offsetsNonempty some (offsets_similar some moved)
    rw [← root_offsets, ← root_offsets] at similar
    rw [encode, encode, encodeWith_eq nonempty' valid.1 valid.2 fitted',
      encodeWith_eq nonempty valid.1 valid.2 fitted, size, Nat.cast_mul,
      similar.tokens positive some]
  · rw [encode, encode, encodeWith, encodeWith, present, if_neg empty, if_neg empty, if_pos valid,
      if_pos valid]

end Runs

theorem realTrig_directional : Directional realTrig := by
  intro s y x positive
  have stretched : (⟨s * x, s * y⟩ : ℂ) = s * ⟨x, y⟩ := by
    apply Complex.ext
    · simp
    · simp
  show Complex.arg ⟨s * x, s * y⟩ = Complex.arg ⟨x, y⟩
  rw [stretched, Complex.arg_real_mul _ positive]

theorem encode_similar_line :
    encode noAngles [![11, 1, 2], ![2, 1, 2], ![5, 1, 2], ![2, 1, 2], ![5, 1, 2], ![11, 1, 2]] 2 =
      encode noAngles line 2 := by
  have moved : [![11, 1, 2], ![2, 1, 2], ![5, 1, 2], ![2, 1, 2], ![5, 1, 2], ![11, 1, 2]].Perm
      ((copies 2 line).map fun p => add (scale p 3) ![2, 1, 2]) := by
    decide +kernel
  exact encode_similar (fun _ _ _ _ => rfl) (by norm_num) two_ne_zero moved 2

end LivoxMid360.Encoder.Similarity
