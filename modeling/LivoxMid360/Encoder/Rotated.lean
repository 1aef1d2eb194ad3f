/- digest: A rotated cloud gets the rotated box, up to half turns about its axes, and the tokens of
the cloud across the axes that were turned around. -/

import LivoxMid360.Encoder.Decoding
import LivoxMid360.Encoder.Mirror
import LivoxMid360.Encoder.PrincipalVariance
import LivoxMid360.Encoder.Similarity
import LivoxMid360.Foundation.Eigenframes

set_option autoImplicit false
set_option relaxedAutoImplicit false

namespace LivoxMid360.Encoder.Rotated

open Foundation.RustOutcome Foundation.PlaneRotations Foundation.Eigenframes
open Vectors VectorAlgebra PrincipalAxes Segments Encode AxisFrames TightFrames TokenTree TokenBounds
open Shape Similarity Decoding Mirror
open Matrix (of)

universe u

section Rotations

variable {K : Type} [Field K]

theorem dot_combine_right (a : Vec3 K) (rot : Mat3 K) (b : Vec3 K) :
    dot a (combine rot b) = dot (coordinates rot a) b := by
  simp only [dot, combine, coordinates]
  ring

theorem dot_combine {rot : Mat3 K} (frame : Orthonormal rot) (a b : Vec3 K) :
    dot (combine rot a) (combine rot b) = dot a b := by
  rw [dot_combine_right, coordinates_combine frame]

theorem combine_sub (rot : Mat3 K) (a b : Vec3 K) :
    combine rot (sub a b) = sub (combine rot a) (combine rot b) := by
  ext row
  simp only [combine, Vectors.sub_apply]
  ring

theorem volume_combine (rot : Mat3 K) (a b c : Vec3 K) :
    dot (cross (combine rot a) (combine rot b)) (combine rot c) =
      dot (cross (rot 0) (rot 1)) (rot 2) * dot (cross a b) c := by
  simp only [dot, cross, combine, Matrix.cons_val]
  ring

theorem eigenframe_of_along {matrix axes : Mat3 K} {spread : Vec3 K} (frame : Orthonormal axes)
    (along : ∀ k i, dot (matrix i) (axes k) = spread k * axes k i) :
    Eigenframe (of matrix) (of axes).transpose spread := by
  refine ⟨columns_of_rows frame, ?_⟩
  ext i k
  have entry := along k i
  rw [dot_eq_dotProduct, mul_comm] at entry
  rw [Matrix.mul_diagonal]
  exact entry

end Rotations

section Covariances

variable {K : Type} [Field K] [LinearOrder K] [IsStrictOrderedRing K] {rot : Mat3 K} {t : Vec3 K}
  {cloud cloud' : List (Vec3 K)}
  (moved : cloud'.Perm (cloud.map fun p => add (combine rot p) t))

include moved

theorem meanOf_rotated (nonempty : cloud ≠ []) :
    meanOf cloud' = add (combine rot (meanOf cloud)) t := by
  have count : (cloud.length : K) ≠ 0 :=
    Nat.cast_ne_zero.mpr (mt List.length_eq_zero_iff.mp nonempty)
  ext row
  have sums : ((cloud.map fun p => add (combine rot p) t).map (· row)).sum =
      rot 0 row * (cloud.map (· 0)).sum + rot 1 row * (cloud.map (· 1)).sum +
        rot 2 row * (cloud.map (· 2)).sum + cloud.length * t row := by
    simp only [List.map_map, Function.comp_def, Vectors.add_apply, combine, List.sum_map_add,
      List.sum_map_mul_left, List.map_const', List.sum_replicate, nsmul_eq_mul]
  rw [Vectors.add_apply, meanOf_eq_sum_div, (moved.map (· row)).sum_eq, sums, moved.length_eq,
    List.length_map, combine, meanOf_eq_sum_div, meanOf_eq_sum_div, meanOf_eq_sum_div]
  field_simp

theorem sub_meanOf_rotated (nonempty : cloud ≠ []) (p : Vec3 K) :
    sub (add (combine rot p) t) (meanOf cloud') = combine rot (sub p (meanOf cloud)) := by
  rw [meanOf_rotated moved nonempty, combine_sub]
  ext row
  simp only [Vectors.sub_apply, Vectors.add_apply]
  ring

theorem covarianceOf_rotated (nonempty : cloud ≠ []) :
    of (covarianceOf cloud' (meanOf cloud')) =
      (of rot).transpose * of (covarianceOf cloud (meanOf cloud)) * of rot := by
  have products (i j : Fin 3) :
      (cloud'.map fun p => sub p (meanOf cloud') i * sub p (meanOf cloud') j).sum =
        ∑ b, ∑ a, rot a i * rot b j *
          (cloud.map fun p => sub p (meanOf cloud) a * sub p (meanOf cloud) b).sum := by
    rw [(moved.map fun p => sub p (meanOf cloud') i * sub p (meanOf cloud') j).sum_eq,
      List.map_map]
    simp only [Function.comp_def, sub_meanOf_rotated moved nonempty]
    have square (d : Vec3 K) : combine rot d i * combine rot d j =
        ∑ b, ∑ a, rot a i * rot b j * (d a * d b) := by
      simp only [combine, Fin.sum_univ_three]
      ring
    simp only [square, Fin.sum_univ_three, List.sum_map_add, List.sum_map_mul_left]
  ext i j
  rw [Matrix.of_apply, covarianceOf_eq_sum_div, products, moved.length_eq, List.length_map,
    Matrix.mul_apply, Finset.sum_div]
  refine Finset.sum_congr rfl fun b _ => ?_
  rw [Matrix.mul_apply, Finset.sum_mul, Finset.sum_div]
  refine Finset.sum_congr rfl fun a _ => ?_
  rw [Matrix.transpose_apply, Matrix.of_apply, Matrix.of_apply, Matrix.of_apply,
    covarianceOf_eq_sum_div]
  ring

theorem eigenframe_rotated (frame : Orthonormal rot) (nonempty : cloud ≠ []) {axes : Mat3 K}
    {spread : Vec3 K} (eigen : Eigenframe (of (covarianceOf cloud (meanOf cloud)))
      (of axes).transpose spread) :
    Eigenframe (of (covarianceOf cloud' (meanOf cloud')))
      ((of rot).transpose * (of axes).transpose) spread := by
  have turn := columns_of_rows frame
  refine ⟨turn.mul eigen.columns, ?_⟩
  have inner : of rot * (of rot).transpose = 1 := turn
  calc
    _ = (of rot).transpose * of (covarianceOf cloud (meanOf cloud)) *
          (of rot * (of rot).transpose) * (of axes).transpose := by
      rw [covarianceOf_rotated moved nonempty]
      simp only [Matrix.mul_assoc]
    _ = (of rot).transpose * (of (covarianceOf cloud (meanOf cloud)) * (of axes).transpose) := by
      rw [inner, Matrix.mul_one, Matrix.mul_assoc]
    _ = _ := by rw [eigen.along, Matrix.mul_assoc]

end Covariances

section Axes

variable {K : Type} [Field K] [LinearOrder K] [IsStrictOrderedRing K] {ε : Type u}

theorem sortedAxes_strict {matrix : Mat3 K} {values : Vec3 K} {vectors axes : Mat3 K}
    (decomposes : Decomposes matrix values vectors) (distinct : Function.Injective values)
    (returned : (sortedAxes values vectors : Outcome ε (Mat3 K)) = .ok axes) :
    ∃ spread : Vec3 K, StrictAnti spread ∧
      ∀ k i, dot (matrix i) (axes k) = spread k * axes k i := by
  obtain ⟨-, order, sign, apart, -, signed, ordered⟩ :=
    PrincipalVariance.sortedAxes_order decomposes.columns returned
  refine ⟨_, ordered.strictAnti_of_injective (distinct.comp apart), ?_⟩
  intro k i
  have along := decomposes.along (order k) i
  rw [signed, scale_apply, ← mul_assoc, ← along, dot_scale_right]

variable {rot : Mat3 K} (frame : Orthonormal rot)
  (proper : dot (cross (rot 0) (rot 1)) (rot 2) = 1) {t : Vec3 K} {cloud cloud' : List (Vec3 K)}
  (moved : cloud'.Perm (cloud.map fun p => add (combine rot p) t)) (nonempty : cloud ≠ [])

include frame proper moved nonempty

/-- The axes of a rotated cloud are the rotated axes, an even number of them turned around. -/
theorem axes_rotated {values values' : Vec3 K} {vectors vectors' axes axes' : Mat3 K}
    (decomposes : Decomposes (covarianceOf cloud (meanOf cloud)) values vectors)
    (decomposes' : Decomposes (covarianceOf cloud' (meanOf cloud')) values' vectors')
    (distinct : Function.Injective values)
    (returned : (sortedAxes values vectors : Outcome ε (Mat3 K)) = .ok axes)
    (returned' : (sortedAxes values' vectors' : Outcome ε (Mat3 K)) = .ok axes') :
    ∃ sign : Vec3 K, (∀ k, sign k * sign k = 1) ∧ sign 0 * sign 1 * sign 2 = 1 ∧
      ∀ k, axes' k = scale (combine rot (axes k)) (sign k) := by
  obtain ⟨orthonormal, handed, -⟩ := sortedAxes_frame decomposes returned
  obtain ⟨orthonormal', handed', spread', ordered', along'⟩ :=
    sortedAxes_frame decomposes' returned'
  obtain ⟨spread, strict, along⟩ := sortedAxes_strict decomposes distinct returned
  have rotated := eigenframe_rotated moved frame nonempty
    (eigenframe_of_along orthonormal along)
  -- distinct values leave each axis no choice but its sign
  obtain ⟨-, sign, unit, signed⟩ := eigenframe_unique
    (PrincipalVariance.covarianceOf_isSymm cloud' (meanOf cloud')) rotated
    (eigenframe_of_along orthonormal' along') strict ordered'
  have axis (k : Fin 3) : axes' k = scale (combine rot (axes k)) (sign k) := by
    ext i
    have entry := signed i k
    rw [Matrix.mul_apply, Fin.sum_univ_three] at entry
    rw [scale_apply]
    exact entry
  refine ⟨sign, unit, ?_, axis⟩
  rw [axis, axis, axis, volume_scale, volume_combine, proper, handed, one_mul, mul_one] at handed'
  exact handed'

end Axes

section Boxes

variable {K : Type} [Field K] [LinearOrder K] [IsStrictOrderedRing K] {rot : Mat3 K}
  (frame : Orthonormal rot) {t : Vec3 K} {cloud cloud' : List (Vec3 K)}
  (moved : cloud'.Perm (cloud.map fun p => add (combine rot p) t)) (nonempty : cloud ≠ [])
  {axes axes' : Mat3 K} {sign : Vec3 K} (unit : ∀ k, sign k * sign k = 1)
  (turned : ∀ k, axes' k = scale (combine rot (axes k)) (sign k))

include frame moved nonempty turned

theorem projection_rotated (p : Vec3 K) (k : Fin 3) :
    dot (sub (add (combine rot p) t) (meanOf cloud')) (axes' k) =
      dot (sub p (meanOf cloud)) (axes k) * sign k := by
  rw [sub_meanOf_rotated moved nonempty, turned, dot_scale_right, dot_combine frame]

include unit

theorem extents_rotated (k : Fin 3) : ∃ m M,
    extents (meanOf cloud) axes cloud k = (some m, some M) ∧
    (sign k = 1 ∧ extents (meanOf cloud') axes' cloud' k = (some m, some M) ∨
      sign k = -1 ∧ extents (meanOf cloud') axes' cloud' k = (some (-M), some (-m))) := by
  obtain ⟨p, hp, q, hq, set, bounds⟩ := extents_span (meanOf cloud) axes nonempty k
  have seen (d : Vec3 K) := projection_rotated frame moved nonempty turned d k
  have ends {a b : Vec3 K} (ha : a ∈ cloud) (hb : b ∈ cloud)
      (around : ∀ d ∈ cloud,
        dot (sub a (meanOf cloud)) (axes k) * sign k ≤ dot (sub d (meanOf cloud)) (axes k) * sign k ∧
          dot (sub d (meanOf cloud)) (axes k) * sign k ≤
            dot (sub b (meanOf cloud)) (axes k) * sign k) :
      extents (meanOf cloud') axes' cloud' k =
        (some (dot (sub a (meanOf cloud)) (axes k) * sign k),
          some (dot (sub b (meanOf cloud)) (axes k) * sign k)) := by
    have member {d : Vec3 K} (inside : d ∈ cloud) : add (combine rot d) t ∈ cloud' :=
      moved.mem_iff.mpr (List.mem_map_of_mem inside)
    rw [extents_eq (member ha) (member hb), seen, seen]
    intro r hr
    obtain ⟨d, inside, rfl⟩ := List.mem_map.mp (moved.mem_iff.mp hr)
    rw [seen, seen, seen]
    exact around d inside
  refine ⟨_, _, set, ?_⟩
  rcases mul_self_eq_one_iff.mp (unit k) with kept | around
  · rw [kept] at ends
    simp only [mul_one] at ends
    exact .inl ⟨kept, ends hp hq bounds⟩
  · rw [around] at ends
    simp only [mul_neg_one, neg_le_neg_iff] at ends
    exact .inr ⟨around, ends hq hp fun d inside => (bounds d inside).symm⟩

variable (orthonormal : Orthonormal axes) (orthonormal' : Orthonormal axes')

include orthonormal orthonormal'

theorem inFrame_rotated (k : Fin 3) :
    (Obb.inFrame (meanOf cloud') axes' cloud').halfExtents k =
        (Obb.inFrame (meanOf cloud) axes cloud).halfExtents k ∧
      ∀ p, (Obb.inFrame (meanOf cloud') axes' cloud').toLocal (add (combine rot p) t) k =
        (Obb.inFrame (meanOf cloud) axes cloud).toLocal p k * sign k := by
  obtain ⟨m, M, set, sides⟩ := extents_rotated frame moved nonempty unit turned k
  obtain ⟨half, coordinate⟩ := toLocal_of_extents orthonormal set
  have seen (p : Vec3 K) := projection_rotated frame moved nonempty turned p k
  rcases sides with ⟨kept, set'⟩ | ⟨around, set'⟩
  · obtain ⟨half', coordinate'⟩ := toLocal_of_extents orthonormal' set'
    refine ⟨half'.trans half.symm, fun p => ?_⟩
    rw [coordinate', coordinate, seen, kept]
    ring
  · obtain ⟨half', coordinate'⟩ := toLocal_of_extents orthonormal' set'
    refine ⟨by rw [half', half]; ring, fun p => ?_⟩
    rw [coordinate', coordinate, seen, around]
    ring

omit orthonormal orthonormal' in
theorem center_rotated : (Obb.inFrame (meanOf cloud') axes' cloud').center =
    add (combine rot (Obb.inFrame (meanOf cloud) axes cloud).center) t := by
  have share (i k : Fin 3) : axes' k i * middle (meanOf cloud') axes' cloud' k =
      combine rot (axes k) i * middle (meanOf cloud) axes cloud k := by
    obtain ⟨m, M, set, ⟨kept, set'⟩ | ⟨around, set'⟩⟩ :=
      extents_rotated frame moved nonempty unit turned k
    · rw [turned, middle, middle, set, set', scale_apply, kept, mul_one]
    · rw [turned, middle, middle, set, set', scale_apply, around]
      simp only [Option.getD_some]
      ring
  ext i
  rw [inFrame_center, share, share, share, meanOf_rotated moved nonempty]
  simp only [Vectors.add_apply, combine, inFrame_center]
  ring

end Boxes

section Tokens

variable {K : Type} [Field K] [LinearOrder K]

/-- The axes of the box that were turned around, of those along which it has an extent. -/
def turnedAround (sign : Vec3 K) (obb : Obb K) (k : Fin 3) : Bool :=
  decide (sign k ≠ 1 ∧ obb.halfExtents k ≠ 0)

variable [IsStrictOrderedRing K] {rot : Mat3 K} {t : Vec3 K} {cloud cloud' : List (Vec3 K)}
  (moved : cloud'.Perm (cloud.map fun p => add (combine rot p) t)) {sign : Vec3 K}
  (unit : ∀ k, sign k * sign k = 1) {obb obb' : Obb K}
  (inside : ∀ p ∈ cloud, ∀ k,
    -obb.halfExtents k ≤ obb.toLocal p k ∧ obb.toLocal p k ≤ obb.halfExtents k)
  (half : ∀ k, obb'.halfExtents k = obb.halfExtents k)
  (seen : ∀ k p, obb'.toLocal (add (combine rot p) t) k = obb.toLocal p k * sign k)

include moved unit inside half seen

/-- The root of the rotated cloud is the root of the cloud, mirrored along the axes that were
turned around; an axis without extent is its own mirror image. -/
theorem root_mirrored :
    Mirrored (turnedAround sign obb) (obb'.root cloud') (obb.root cloud) := by
  have ends (k : Fin 3) : (obb'.root cloud').min k = -obb.halfExtents k ∧
      (obb'.root cloud').max k = obb.halfExtents k := by
    rw [root_min, half]
    exact ⟨rfl, half k⟩
  refine ⟨?_, ?_, ?_⟩
  · have image (p : Vec3 K) (member : p ∈ cloud) : obb'.toLocal (add (combine rot p) t) =
        mirror (turnedAround sign obb) (obb.toLocal p) := by
      ext k
      rw [seen, mirror, turnedAround]
      rcases mul_self_eq_one_iff.mp (unit k) with kept | around
      · rw [if_neg (by simp [kept]), kept, mul_one]
      rw [around, mul_neg_one]
      -- on a flat axis all points stand at zero, and turning it shows nothing
      by_cases flat : obb.halfExtents k = 0
      · have still := inside p member k
        rw [flat, neg_zero] at still
        rw [if_neg (by simp [flat]), le_antisymm still.2 still.1, neg_zero]
      · have opposite : (-1 : K) ≠ 1 := by norm_num
        rw [if_pos (decide_eq_true ⟨opposite, flat⟩)]
    have framed := moved.map obb'.toLocal
    rw [List.map_map] at framed
    rw [Obb.root, Obb.root, List.map_map]
    exact framed.trans (List.Perm.of_eq (List.map_congr_left image))
  · intro k
    rw [(ends k).1, root_min]
    exact (ite_self _).symm
  · intro k
    rw [(ends k).2, root_min, neg_neg]
    exact (ite_self _).symm

end Tokens

section Runs

variable {K : Type} [Field K] [LinearOrder K] [IsStrictOrderedRing K]

/-- A rotated and translated cloud, in any order of its points, has the rotated and translated
box, up to half turns about its axes. Unless a point lies on a plane that splits an axis that was
turned around, its tokens are those of the cloud across these axes. -/
theorem encodeWith_rotated (eigen : Mat3 K → Vec3 K × Mat3 K) {rot : Mat3 K}
    (frame : Orthonormal rot) (proper : dot (cross (rot 0) (rot 1)) (rot 2) = 1) {t : Vec3 K}
    {cloud cloud' : List (Vec3 K)}
    (moved : cloud'.Perm (cloud.map fun p => add (combine rot p) t)) (nonempty : cloud ≠ [])
    (decomposes : Decomposes (covarianceOf cloud (meanOf cloud))
      (eigen (covarianceOf cloud (meanOf cloud))).1 (eigen (covarianceOf cloud (meanOf cloud))).2)
    (decomposes' : Decomposes (covarianceOf cloud' (meanOf cloud'))
      (eigen (covarianceOf cloud' (meanOf cloud'))).1
      (eigen (covarianceOf cloud' (meanOf cloud'))).2)
    (distinct : Function.Injective (eigen (covarianceOf cloud (meanOf cloud))).1)
    (r : UInt8) (low : 1 ≤ r) (high : r ≤ 5) :
    ∃ (obb obb' : Obb K) (sign : Vec3 K) (tokens tokens' : List K),
      (Obb.fitWith eigen cloud : Outcome EncodeError (Obb K)) = .ok obb ∧
      (Obb.fitWith eigen cloud' : Outcome EncodeError (Obb K)) = .ok obb' ∧
      encodeWith eigen cloud r = .ok tokens ∧ encodeWith eigen cloud' r = .ok tokens' ∧
      (∀ k, sign k * sign k = 1) ∧ sign 0 * sign 1 * sign 2 = 1 ∧
      obb'.center = add (combine rot obb.center) t ∧
      (∀ k, obb'.axes k = scale (combine rot (obb.axes k)) (sign k) ∧
        obb'.halfExtents k = obb.halfExtents k) ∧
      (OffPlanes (turnedAround sign obb) r.toNat (obb.root cloud) → ∀ i < 8 ^ r.toNat,
        acrossPlace (turnedAround sign obb) r.toNat i < 8 ^ r.toNat ∧
        acrossPlace (turnedAround sign obb) r.toNat
          (acrossPlace (turnedAround sign obb) r.toNat i) = i ∧
        fraction tokens' (acrossPlace (turnedAround sign obb) r.toNat i) = fraction tokens i ∧
        ∀ k, centroid tokens' (acrossPlace (turnedAround sign obb) r.toNat i) k =
          if turnedAround sign obb k then -centroid tokens i k else centroid tokens i k) := by
  have size : cloud'.length = cloud.length := by rw [moved.length_eq, List.length_map]
  have nonempty' : cloud' ≠ [] := by
    rw [← List.length_pos_iff, size]
    exact List.length_pos_iff.mpr nonempty
  obtain ⟨axes, sorted⟩ := sortedAxes_total (ε := EncodeError)
    (eigen (covarianceOf cloud (meanOf cloud))).1 (eigen (covarianceOf cloud (meanOf cloud))).2
  obtain ⟨axes', sorted'⟩ := sortedAxes_total (ε := EncodeError)
    (eigen (covarianceOf cloud' (meanOf cloud'))).1
    (eigen (covarianceOf cloud' (meanOf cloud'))).2
  obtain ⟨sign, unit, even, turned⟩ :=
    axes_rotated frame proper moved nonempty decomposes decomposes' distinct sorted sorted'
  obtain ⟨orthonormal, -, -⟩ := sortedAxes_frame decomposes sorted
  obtain ⟨orthonormal', -, -⟩ := sortedAxes_frame decomposes' sorted'
  have boxes := inFrame_rotated frame moved nonempty unit turned orthonormal orthonormal'
  have fitted : (Obb.fitWith eigen cloud : Outcome EncodeError (Obb K)) =
      .ok (Obb.inFrame (meanOf cloud) axes cloud) := by
    rw [Obb.fitWith, pcaWith]
    simp only [sorted, Outcome.ok_bind, Outcome.pure_eq_ok]
  have fitted' : (Obb.fitWith eigen cloud' : Outcome EncodeError (Obb K)) =
      .ok (Obb.inFrame (meanOf cloud') axes' cloud') := by
    rw [Obb.fitWith, pcaWith]
    simp only [sorted', Outcome.ok_bind, Outcome.pure_eq_ok]
  refine ⟨_, _, sign, _, _, fitted, fitted', encodeWith_eq nonempty low high fitted,
    encodeWith_eq nonempty' low high fitted', unit, even,
    center_rotated frame moved nonempty unit turned, fun k => ⟨turned k, (boxes k).1⟩, ?_⟩
  intro off i inside
  have mirrored := root_mirrored moved unit
    (fun p member k => toLocal_mem orthonormal (meanOf cloud) member k)
    (fun k => (boxes k).1) fun k => (boxes k).2
  obtain ⟨within, back⟩ := acrossPlace_pairs
    (turnedAround sign (Obb.inFrame (meanOf cloud) axes cloud)) inside
  obtain ⟨shares, centroids⟩ := mirrored.tokens
    (root_box (halfExtents_nonneg (meanOf cloud) axes nonempty) cloud)
    (root_box (halfExtents_nonneg (meanOf cloud') axes' nonempty') cloud') off
    (cloud.length : K) inside
  rw [size]
  exact ⟨within, back, shares, centroids⟩

end Runs

def corners : List (Vec3 ℚ) := [![3, 2, 1], ![3, -2, -1], ![-3, 2, -1], ![-3, -2, 1]]

def quarterTurn : Mat3 ℚ := ![![0, 1, 0], ![-1, 0, 0], ![0, 0, 1]]

def turnedCorners : List (Vec3 ℚ) := [![-1, 3, 1], ![3, 3, -1], ![-1, -3, -1], ![3, -3, 1]]

theorem encodeWith_rotated_corners :
    ∃ (flip : Fin 3 → Bool) (tokens tokens' : List ℚ),
      encode noAngles corners 1 = .ok tokens ∧ encode noAngles turnedCorners 1 = .ok tokens' ∧
      ∀ i < 8, fraction tokens' (acrossPlace flip 1 i) = fraction tokens i ∧
        ∀ k, centroid tokens' (acrossPlace flip 1 i) k =
          if flip k then -centroid tokens i k else centroid tokens i k := by
  have identity (m : Mat3 ℚ)
      (still : (jacobiEigen noAngles m).2 = fun i j => if i = j then 1 else 0) :
      OrthonormalColumns (of (jacobiEigen noAngles m).2) := by
    rw [still, of_identity]
    exact orthonormalColumns_one
  have decomposes : Decomposes (covarianceOf corners (meanOf corners))
      (jacobiEigen noAngles (covarianceOf corners (meanOf corners))).1
      (jacobiEigen noAngles (covarianceOf corners (meanOf corners))).2 :=
    ⟨identity _ (by decide +kernel), by decide +kernel⟩
  have decomposes' : Decomposes (covarianceOf turnedCorners (meanOf turnedCorners))
      (jacobiEigen noAngles (covarianceOf turnedCorners (meanOf turnedCorners))).1
      (jacobiEigen noAngles (covarianceOf turnedCorners (meanOf turnedCorners))).2 :=
    ⟨identity _ (by decide +kernel), by decide +kernel⟩
  have moved : turnedCorners.Perm
      (corners.map fun p => add (combine quarterTurn p) ![1, 0, 0]) := by
    decide +kernel
  have frame : Orthonormal quarterTurn := by
    intro i j
    decide +revert +kernel
  obtain ⟨obb, -, sign, tokens, tokens', fitted, -, encoded, encoded', -, -, -, -, across⟩ :=
    encodeWith_rotated (jacobiEigen noAngles) frame (by decide +kernel) moved
      (List.cons_ne_nil _ _) decomposes decomposes' (by decide +kernel) 1 (by decide) (by decide)
  have clear : (Obb.fitWith (jacobiEigen noAngles) corners : Outcome EncodeError (Obb ℚ)).bind
      (fun obb => .ok (decide (∀ p ∈ (obb.root corners).points, ∀ k,
        p k ≠ (obb.root corners).mid k))) = .ok true := by
    decide +kernel
  rw [fitted] at clear
  have apart := of_decide_eq_true (Outcome.ok.inj clear)
  have off : OffPlanes (turnedAround sign obb) 1 (obb.root corners) := by
    intro d first leaf member p here k _
    rw [Nat.lt_one_iff.mp first] at member
    rw [List.mem_singleton.mp member] at here ⊢
    exact apart p here k
  refine ⟨turnedAround sign obb, tokens, tokens', encoded, encoded', fun i inside => ?_⟩
  obtain ⟨-, -, shares, centroids⟩ := across off i inside
  exact ⟨shares, centroids⟩

end LivoxMid360.Encoder.Rotated
