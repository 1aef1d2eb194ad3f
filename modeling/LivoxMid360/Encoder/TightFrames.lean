/- digest: The frame of a cloud: ordered, right-handed, the same for every sign of the
eigenvectors, and its box tight. -/

import LivoxMid360.Encoder.TokenBounds

set_option autoImplicit false
set_option relaxedAutoImplicit false

namespace LivoxMid360.Encoder.TightFrames

open Foundation.RustOutcome Foundation.PlaneRotations
open Vectors PrincipalAxes Encode AxisFrames TokenBounds
open Matrix (of)

universe u

section Sorting

variable {ε : Type u} {α K : Type} [LinearOrder K] {key : α → K}
  {compare : α → α → Outcome ε Ordering}

/-- The sorted part stands smallest key first while the elements move through it. -/
theorem insertBack_pairwise (compares : ∀ a b, compare a b = .ok (cmp (key b) (key a))) {x : α}
    {sorted out : List α} (ordered : sorted.Pairwise fun a b => key a ≤ key b)
    (inserted : insertBack compare x sorted = .ok out) :
    out.Pairwise fun a b => key a ≤ key b := by
  induction sorted generalizing out with
  | nil =>
    cases inserted
    exact List.pairwise_singleton _ x
  | cons y ys ih =>
    obtain ⟨least, tail⟩ := List.pairwise_cons.mp ordered
    rw [insertBack, compares, Outcome.ok_bind] at inserted
    -- a smaller key stays in front, and the element goes on behind it
    by_cases less : key y < key x
    · rw [if_pos ((cmp_eq_lt_iff _ _).mpr less)] at inserted
      obtain ⟨rest, moved, inserted⟩ := Outcome.bind_eq_ok.mp inserted
      cases inserted
      refine List.pairwise_cons.mpr ⟨?_, ih tail moved⟩
      intro z member
      rcases List.mem_cons.mp ((insertBack_perm moved).mem_iff.mp member) with rfl | earlier
      · exact less.le
      · exact least z earlier
    · rw [if_neg (mt (cmp_eq_lt_iff _ _).mp less)] at inserted
      cases inserted
      refine List.pairwise_cons.mpr ⟨?_, ordered⟩
      intro z member
      rcases List.mem_cons.mp member with rfl | later
      · exact not_lt.mp less
      · exact (not_lt.mp less).trans (least z later)

theorem insertAll_pairwise (compares : ∀ a b, compare a b = .ok (cmp (key b) (key a)))
    {xs start out : List α} (ordered : start.Pairwise fun a b => key a ≤ key b)
    (done : xs.foldlM (fun sorted x => insertBack compare x sorted) start = .ok out) :
    out.Pairwise fun a b => key a ≤ key b := by
  induction xs generalizing start with
  | nil =>
    cases done
    exact ordered
  | cons x xs ih =>
    rw [List.foldlM_cons] at done
    obtain ⟨next, inserted, done⟩ := Outcome.bind_eq_ok.mp done
    exact ih (insertBack_pairwise compares ordered inserted) done

theorem sortBy_pairwise (compares : ∀ a b, compare a b = .ok (cmp (key b) (key a)))
    {xs out : List α} (sorted : sortBy compare xs = .ok out) :
    out.Pairwise fun a b => key b ≤ key a := by
  obtain ⟨backwards, done, sorted⟩ := Outcome.bind_eq_ok.mp sorted
  cases sorted
  exact List.pairwise_reverse.mpr (insertAll_pairwise compares .nil done)

theorem order_antitone {values : Fin 3 → K} {order : List (Fin 3)}
    (sorted : order.Perm [0, 1, 2])
    (ordered : order.Pairwise fun a b => values b ≤ values a) :
    Antitone fun i : Fin 3 => values (order.getD i.val 0) := by
  have size : order.length = 3 := sorted.length_eq
  intro i j le
  have hi : i.val < order.length := i.isLt.trans_eq size.symm
  have hj : j.val < order.length := j.isLt.trans_eq size.symm
  simp only [List.getD_eq_getElem _ _ hi, List.getD_eq_getElem _ _ hj]
  rcases eq_or_lt_of_le le with rfl | before
  · exact le_rfl
  · exact List.pairwise_iff_getElem.mp ordered i.val j.val hi hj before

end Sorting

section Signs

variable {K : Type} [Field K] [LinearOrder K] {ε : Type u}

def larger (axis : Vec3 K) (i j : Fin 3) : Fin 3 := if |axis j| < |axis i| then i else j

def largest (axis : Vec3 K) : Fin 3 := larger axis (larger axis 0 1) 2

theorem dominant_eq (axis : Vec3 K) : (dominant axis : Outcome ε (Fin 3)) = .ok (largest axis) := by
  have chosen (i j : Fin 3) :
      (if cmp |axis i| |axis j| = .gt then i else j) = larger axis i j :=
    if_congr (cmp_eq_gt_iff _ _) rfl rfl
  rw [largest, ← chosen 0 1, ← chosen _ 2]
  rfl

theorem fixSign_eq (axis : Vec3 K) : (fixSign axis : Outcome ε (Vec3 K)) =
    .ok (if axis (largest axis) < 0 then scale axis (-1) else axis) := by
  rw [fixSign, dominant_eq]
  rfl

theorem larger_opposite (axis : Vec3 K) (i j : Fin 3) :
    larger (scale axis (-1)) i j = larger axis i j := by
  rw [larger, larger, scale_apply, scale_apply, mul_neg_one, mul_neg_one, abs_neg, abs_neg]

theorem largest_opposite (axis : Vec3 K) : largest (scale axis (-1)) = largest axis := by
  rw [largest, largest, larger_opposite, larger_opposite]

theorem abs_le_larger (axis : Vec3 K) (i j : Fin 3) :
    |axis i| ≤ |axis (larger axis i j)| ∧ |axis j| ≤ |axis (larger axis i j)| := by
  rw [larger]
  split_ifs with less
  · exact ⟨le_rfl, less.le⟩
  · exact ⟨not_lt.mp less, le_rfl⟩

theorem abs_le_largest (axis : Vec3 K) (i : Fin 3) : |axis i| ≤ |axis (largest axis)| := by
  obtain ⟨pair, third⟩ := abs_le_larger axis (larger axis 0 1) 2
  obtain ⟨first, second⟩ := abs_le_larger axis 0 1
  fin_cases i
  · exact first.trans pair
  · exact second.trans pair
  · exact third

variable [IsStrictOrderedRing K]

theorem largest_ne_zero {axis : Vec3 K} (unit : dot axis axis = 1) : axis (largest axis) ≠ 0 := by
  intro zero
  have vanishes (i : Fin 3) : axis i = 0 := by
    have bound := abs_le_largest axis i
    rw [zero, abs_zero] at bound
    exact abs_nonpos_iff.mp bound
  rw [dot, vanishes, vanishes, vanishes] at unit
  simp at unit

theorem fixSign_opposite {axis : Vec3 K} (unit : dot axis axis = 1) :
    (fixSign (scale axis (-1)) : Outcome ε (Vec3 K)) = fixSign axis := by
  rw [fixSign_eq, fixSign_eq, largest_opposite, scale_apply, mul_neg_one]
  -- the largest component is not zero, so exactly one of the two is turned
  rcases lt_or_gt_of_ne (largest_ne_zero unit) with negative | positive
  · rw [if_neg (not_lt.mpr (neg_nonneg.mpr negative.le)), if_pos negative]
  · rw [if_pos (neg_neg_of_pos positive), if_neg (not_lt.mpr positive.le), scale_scale,
      neg_one_mul, neg_neg, scale_one]

end Signs

section Handedness

variable {K : Type} [Field K]

theorem volume_sq (a b c : Vec3 K) : dot (cross a b) c ^ 2 =
    dot a a * (dot b b * dot c c - dot b c ^ 2) -
      dot a b * (dot a b * dot c c - dot b c * dot a c) +
      dot a c * (dot a b * dot b c - dot b b * dot a c) := by
  simp only [dot, cross, Matrix.cons_val]
  ring

variable [LinearOrder K] [IsStrictOrderedRing K]

/-- A frame that is not left-handed is right-handed. -/
theorem right_handed {axes : Mat3 K} (frame : Orthonormal axes)
    (turned : 0 ≤ dot (cross (axes 0) (axes 1)) (axes 2)) :
    dot (cross (axes 0) (axes 1)) (axes 2) = 1 := by
  have square : dot (cross (axes 0) (axes 1)) (axes 2) ^ 2 = 1 := by
    rw [volume_sq, frame 0 0, frame 1 1, frame 2 2, frame 0 1, frame 1 2, frame 0 2]
    simp
  exact (pow_eq_one_iff_of_nonneg turned two_ne_zero).mp square

omit [LinearOrder K] [IsStrictOrderedRing K] in
theorem dot_scale_right (a b : Vec3 K) (t : K) : dot a (scale b t) = dot a b * t := by
  simp only [dot, scale_apply]
  ring

theorem turned_handed (x y z : Vec3 K) :
    0 ≤ dot (cross x y) (if dot (cross x y) z < 0 then scale z (-1) else z) := by
  split_ifs with left
  · rw [dot_scale_right, mul_neg_one]
    exact neg_nonneg.mpr left.le
  · exact not_lt.mp left

end Handedness

section Frame

variable {K : Type} [Field K]

/-- The matrix has the values, each along its own column of an orthonormal matrix. -/
structure Decomposes (matrix : Mat3 K) (values : Vec3 K) (vectors : Mat3 K) : Prop where
  columns : OrthonormalColumns (of vectors)
  along : ∀ j i, dot (matrix i) (column vectors j) = values j * column vectors j i

def negated (flip : Fin 3 → Bool) (vectors : Mat3 K) : Mat3 K := fun row col =>
  if flip col then -vectors row col else vectors row col

theorem column_negated (flip : Fin 3 → Bool) (vectors : Mat3 K) (c : Fin 3) :
    column (negated flip vectors) c =
      if flip c then scale (column vectors c) (-1) else column vectors c := by
  ext row
  rw [column, negated]
  cases flip c with
  | false => rfl
  | true =>
    rw [if_pos rfl, if_pos rfl, scale_apply, mul_neg_one]
    rfl

variable [LinearOrder K] {ε : Type u}

theorem sortedAxes_congr (values : Vec3 K) {vectors vectors' : Mat3 K}
    (same : ∀ c, (fixSign (column vectors' c) : Outcome ε (Vec3 K)) =
      fixSign (column vectors c)) :
    (sortedAxes values vectors' : Outcome ε (Mat3 K)) = sortedAxes values vectors := by
  have named (vectors : Mat3 K) : (sortedAxes values vectors : Outcome ε (Mat3 K)) = do
      let order ← sortBy (fun a b => unwrap (FloatOps.partialCmp (values b) (values a)))
        [(0 : Fin 3), 1, 2]
      let x ← fixSign (column vectors (order.getD 0 0))
      let y ← fixSign (column vectors (order.getD 1 0))
      let z ← fixSign (column vectors (order.getD 2 0))
      return ![x, y, if dot (cross x y) z < 0 then scale z (-1) else z] := rfl
  simp only [named, same]

variable [IsStrictOrderedRing K]

/-- No sign of an eigenvector shows in the axes. -/
theorem sortedAxes_negated (flip : Fin 3 → Bool) (values : Vec3 K) {vectors : Mat3 K}
    (columns : OrthonormalColumns (of vectors)) :
    (sortedAxes values (negated flip vectors) : Outcome ε (Mat3 K)) =
      sortedAxes values vectors := by
  apply sortedAxes_congr
  intro c
  have unit : dot (column vectors c) (column vectors c) = 1 := by
    rw [dot_eq_dotProduct]
    exact (columns.dotProduct_eq c c).trans (if_pos rfl)
  rw [column_negated]
  cases flip c with
  | false => rfl
  | true => exact fixSign_opposite unit

/-- Along each axis the matrix has a value, and the values decrease. -/
theorem sortedAxes_frame {matrix : Mat3 K} {values : Vec3 K} {vectors axes : Mat3 K}
    (decomposes : Decomposes matrix values vectors)
    (returned : (sortedAxes values vectors : Outcome ε (Mat3 K)) = .ok axes) :
    Orthonormal axes ∧ dot (cross (axes 0) (axes 1)) (axes 2) = 1 ∧
      ∃ spread : Vec3 K, Antitone spread ∧
        ∀ k i, dot (matrix i) (axes k) = spread k * axes k i := by
  obtain ⟨order, x, y, z, sorted, hx, hy, hz, rfl⟩ := sortedAxes_cases returned
  obtain ⟨sign, unit, signed⟩ := handed_axes hx hy hz
  have distinct := order_injective (sortBy_perm sorted)
  have ordered := order_antitone (sortBy_perm sorted)
    (sortBy_pairwise (fun a b => unwrap_partialCmp (values b) (values a)) sorted)
  have frame := orthonormal_of_signed decomposes.columns distinct unit signed
  refine ⟨frame, right_handed frame (turned_handed x y z), _, ordered, ?_⟩
  intro k i
  have along := decomposes.along (order.getD k.val 0) i
  rw [signed, scale_apply, ← mul_assoc, ← along, dot_scale_right]

end Frame

section Box

variable {K : Type} [Field K] [LinearOrder K] [IsStrictOrderedRing K]

/-- Points of the cloud stand at both ends of the box. -/
theorem toLocal_attained {axes : Mat3 K} (frame : Orthonormal axes) (mean : Vec3 K)
    {points : List (Vec3 K)} (nonempty : points ≠ []) (k : Fin 3) :
    (∃ p ∈ points, (Obb.inFrame mean axes points).toLocal p k =
      -(Obb.inFrame mean axes points).halfExtents k) ∧
    ∃ p ∈ points, (Obb.inFrame mean axes points).toLocal p k =
      (Obb.inFrame mean axes points).halfExtents k := by
  obtain ⟨p, hp, q, hq, set, _⟩ := extents_span mean axes nonempty k
  obtain ⟨half, coordinate⟩ := toLocal_of_extents frame set
  refine ⟨⟨p, hp, ?_⟩, q, hq, ?_⟩
  · rw [coordinate, half]
    linarith
  · rw [coordinate, half]
    linarith

end Box

section Fit

variable {K : Type} [Field K] [LinearOrder K] [IsStrictOrderedRing K] {ε : Type u}

/-- The frame of a cloud is orthonormal, right-handed and ordered by variance; no sign of an
eigenvector shows in it; and its box touches the cloud on every side. -/
theorem frame_and_box (eigen : Mat3 K → Vec3 K × Mat3 K) {cloud : List (Vec3 K)}
    (nonempty : cloud ≠ [])
    (decomposes : Decomposes (covarianceOf cloud (meanOf cloud))
      (eigen (covarianceOf cloud (meanOf cloud))).1
      (eigen (covarianceOf cloud (meanOf cloud))).2) :
    ∃ axes obb,
      (pcaWith eigen cloud : Outcome ε (Vec3 K × Mat3 K)) = .ok (meanOf cloud, axes) ∧
      (Obb.fitWith eigen cloud : Outcome ε (Obb K)) = .ok obb ∧ obb.axes = axes ∧
      Orthonormal axes ∧ dot (cross (axes 0) (axes 1)) (axes 2) = 1 ∧
      (∃ spread : Vec3 K, Antitone spread ∧
        ∀ k i, dot (covarianceOf cloud (meanOf cloud) i) (axes k) = spread k * axes k i) ∧
      (∀ flip, (pcaWith (fun m => ((eigen m).1, negated flip (eigen m).2)) cloud :
        Outcome ε (Vec3 K × Mat3 K)) = .ok (meanOf cloud, axes)) ∧
      ∀ k,
        (∀ p ∈ cloud, -obb.halfExtents k ≤ obb.toLocal p k ∧
          obb.toLocal p k ≤ obb.halfExtents k) ∧
        (∃ p ∈ cloud, obb.toLocal p k = -obb.halfExtents k) ∧
        ∃ p ∈ cloud, obb.toLocal p k = obb.halfExtents k := by
  obtain ⟨axes, sorted⟩ := sortedAxes_total (ε := ε)
    (eigen (covarianceOf cloud (meanOf cloud))).1 (eigen (covarianceOf cloud (meanOf cloud))).2
  obtain ⟨frame, handed, spread⟩ := sortedAxes_frame decomposes sorted
  have oriented : (pcaWith eigen cloud : Outcome ε (Vec3 K × Mat3 K)) =
      .ok (meanOf cloud, axes) := by
    rw [pcaWith]
    exact congrArg (· >>= _) sorted
  refine ⟨axes, Obb.inFrame (meanOf cloud) axes cloud, oriented, ?_, rfl, frame, handed, spread,
    ?_, ?_⟩
  · rw [Obb.fitWith, oriented]
    rfl
  · intro flip
    have same := sortedAxes_negated (ε := ε) flip
      (eigen (covarianceOf cloud (meanOf cloud))).1 decomposes.columns
    rw [pcaWith]
    exact congrArg (· >>= _) (same.trans sorted)
  · intro k
    obtain ⟨low, high⟩ := toLocal_attained frame (meanOf cloud) nonempty k
    exact ⟨fun p member => toLocal_mem frame (meanOf cloud) member k, low, high⟩

end Fit

def jack : List (Vec3 ℚ) :=
  [![2, 0, 0], ![-2, 0, 0], ![0, 1, 0], ![0, -1, 0], ![0, 0, 3], ![0, 0, -3]]

def diagonalEigen (m : Mat3 ℚ) : Vec3 ℚ × Mat3 ℚ :=
  (fun i => m i i, fun i j => if i = j then 1 else 0)

theorem frame_and_box_jack :
    ∃ axes obb, (pcaWith diagonalEigen jack : Outcome Unit (Vec3 ℚ × Mat3 ℚ)) =
        .ok (meanOf jack, axes) ∧
      (Obb.fitWith diagonalEigen jack : Outcome Unit (Obb ℚ)) = .ok obb ∧ obb.axes = axes ∧
      dot (cross (axes 0) (axes 1)) (axes 2) = 1 ∧
      ∀ k, (∃ p ∈ jack, obb.toLocal p k = -obb.halfExtents k) ∧
        ∃ p ∈ jack, obb.toLocal p k = obb.halfExtents k := by
  have decomposes : Decomposes (covarianceOf jack (meanOf jack))
      (diagonalEigen (covarianceOf jack (meanOf jack))).1
      (diagonalEigen (covarianceOf jack (meanOf jack))).2 := by
    constructor
    · rw [diagonalEigen, of_identity]
      exact orthonormalColumns_one
    · decide +kernel
  obtain ⟨axes, obb, oriented, fitted, same, -, handed, -, -, tight⟩ :=
    frame_and_box (ε := Unit) diagonalEigen (List.cons_ne_nil _ _) decomposes
  exact ⟨axes, obb, oriented, fitted, same, handed, fun k => (tight k).2⟩

end LivoxMid360.Encoder.TightFrames
