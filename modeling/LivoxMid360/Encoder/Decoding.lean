/- digest: Reading a cloud back from its tokens: how far each point is from its token, and what
the tokens keep exactly. -/

import LivoxMid360.Encoder.Shape
import LivoxMid360.Encoder.TokenBounds

set_option autoImplicit false
set_option relaxedAutoImplicit false

namespace LivoxMid360.Encoder.Decoding

open Foundation.RustOutcome Foundation.DyadicCells Foundation.PlaneRotations
open Vectors PrincipalAxes Segments Encode AxisFrames TokenTree TokenBounds DyadicGrid
open Matrix (of)

universe u

section Frames

variable {K : Type} [Field K]

def combine (axes : Mat3 K) (x : Vec3 K) : Vec3 K := fun row =>
  axes 0 row * x 0 + axes 1 row * x 1 + axes 2 row * x 2

def coordinates (axes : Mat3 K) (d : Vec3 K) : Vec3 K := fun k => dot d (axes k)

variable {axes : Mat3 K} (frame : Orthonormal axes)

include frame

theorem columns_of_rows : OrthonormalColumns (of axes).transpose := by
  ext i j
  have inner := frame i j
  rw [dot_eq_dotProduct] at inner
  rw [Matrix.transpose_transpose, Matrix.one_apply]
  exact inner

theorem combine_coordinates (d : Vec3 K) : combine axes (coordinates axes d) = d := by
  have rows := columns_of_rows frame
  have whole (r row : Fin 3) : axes 0 r * axes 0 row + axes 1 r * axes 1 row +
      axes 2 r * axes 2 row = if r = row then 1 else 0 := by
    have entry := congrFun (congrFun rows.mul_transpose r) row
    rw [Matrix.transpose_transpose, Matrix.mul_apply, Fin.sum_univ_three, Matrix.one_apply] at entry
    exact entry
  ext row
  have sum : combine axes (coordinates axes d) row =
      d 0 * (if (0 : Fin 3) = row then 1 else 0) + d 1 * (if (1 : Fin 3) = row then 1 else 0) +
        d 2 * (if (2 : Fin 3) = row then 1 else 0) := by
    rw [← whole, ← whole, ← whole]
    simp only [combine, coordinates, dot]
    ring
  rw [sum]
  fin_cases row <;> simp

theorem coordinates_combine (x : Vec3 K) : coordinates axes (combine axes x) = x := by
  ext k
  have split : dot (combine axes x) (axes k) =
      x 0 * dot (axes 0) (axes k) + x 1 * dot (axes 1) (axes k) + x 2 * dot (axes 2) (axes k) := by
    simp only [combine, dot]
    ring
  rw [coordinates, split, frame, frame, frame]
  fin_cases k <;> simp

theorem dot_coordinates (d : Vec3 K) :
    dot d d = coordinates axes d 0 ^ 2 + coordinates axes d 1 ^ 2 + coordinates axes d 2 ^ 2 := by
  have split : dot d (combine axes (coordinates axes d)) =
      coordinates axes d 0 ^ 2 + coordinates axes d 1 ^ 2 + coordinates axes d 2 ^ 2 := by
    simp only [combine, coordinates, dot]
    ring
  rw [← split, combine_coordinates frame]

end Frames

section Decoder

variable {K : Type} [Field K]

/-- The point of the box that a token names: its centroid, out of the frame of its cell. -/
def localPoint (obb : Obb K) (r : Nat) (tokens : List K) (i : Nat) : Vec3 K := fun k =>
  cellLo r (-obb.halfExtents k) (obb.halfExtents k) (cellOf r i k) +
    (centroid tokens i k + 1) / 2 *
      (cellHi r (-obb.halfExtents k) (obb.halfExtents k) (cellOf r i k) -
        cellLo r (-obb.halfExtents k) (obb.halfExtents k) (cellOf r i k))

/-- The same point in the world. -/
def worldPoint (obb : Obb K) (r : Nat) (tokens : List K) (i : Nat) : Vec3 K :=
  add obb.center (combine obb.axes (localPoint obb r tokens i))

end Decoder

section Cells

variable {K : Type} [Field K] [LinearOrder K] [IsStrictOrderedRing K]

/-- The coordinate that the centroid of a box stands for. -/
def denormalized (s : Segment K) (k : Fin 3) : K :=
  s.min k + (leafCentroid s k + 1) / 2 * (s.max k - s.min k)

theorem denormalized_mem {s : Segment K} (encloses : Encloses s) (k : Fin 3) :
    s.min k ≤ denormalized s k ∧ denormalized s k ≤ s.max k := by
  have extent : 0 ≤ s.max k - s.min k := sub_nonneg.mpr (encloses.box k)
  obtain ⟨low, high⟩ := leafCentroid_mem encloses k
  have part : 0 ≤ (leafCentroid s k + 1) / 2 ∧ (leafCentroid s k + 1) / 2 ≤ 1 := by
    constructor <;> linarith
  have scaled := mul_le_mul_of_nonneg_right part.2 extent
  rw [one_mul] at scaled
  rw [denormalized]
  exact ⟨le_add_of_nonneg_right (mul_nonneg part.1 extent), by linarith⟩

theorem denormalized_eq_mean {s : Segment K} (encloses : Encloses s) (nonempty : s.points ≠ [])
    (k : Fin 3) : denormalized s k = (s.points.map (· k)).sum / s.points.length := by
  rw [denormalized, leafCentroid, if_neg nonempty, normalized]
  by_cases flat : s.min k = s.max k
  · have inside : ∀ x ∈ s.points.map (· k), s.min k ≤ x ∧ x ≤ s.max k := by
      intro x member
      obtain ⟨p, listed, rfl⟩ := List.mem_map.mp member
      exact encloses.inside p listed k
    have mean := mean_mem (mt List.map_eq_nil_iff.mp nonempty) inside
    rw [List.length_map, ← flat] at mean
    rw [if_pos flat, ← flat, sub_self, mul_zero, add_zero]
    exact le_antisymm mean.1 mean.2
  · have extent : s.max k - s.min k ≠ 0 := sub_ne_zero.mpr (Ne.symm flat)
    rw [if_neg flat]
    field_simp
    ring

theorem share_denormalized {s : Segment K} (encloses : Encloses s) (total : K) (k : Fin 3) :
    share total s * denormalized s k = (s.points.map (· k)).sum / total := by
  by_cases empty : s.points = []
  · rw [share_empty total empty, empty, List.map_nil, List.sum_nil, zero_mul, zero_div]
  · have count : (s.points.length : K) ≠ 0 :=
      Nat.cast_ne_zero.mpr (mt List.length_eq_zero_iff.mp empty)
    rw [denormalized_eq_mean encloses empty, share]
    field_simp

variable [FloorSemiring K]

theorem leaf_place {r : Nat} {s : Segment K} (encloses : Encloses s) {i : Nat}
    (inside : i < 8 ^ r) : (s.leaves r)[i]? = some (gridLeaf r s i) := by
  rw [leaves_eq_grid r encloses, List.getElem?_map, List.getElem?_range inside]
  rfl

variable {obb : Obb K} {cloud : List (Vec3 K)} (encloses : Encloses (obb.root cloud)) {r : Nat}
  {tokens : List K}
  (emitted : tokens = ((obb.root cloud).leaves r).flatMap (Segment.token (cloud.length : K)))
  {i : Nat} (inside : i < 8 ^ r)

include encloses emitted inside

theorem localPoint_eq (k : Fin 3) :
    localPoint obb r tokens i k = denormalized (gridLeaf r (obb.root cloud) i) k := by
  rw [localPoint, emitted, centroid_of_leaf encloses _ (leaf_place encloses inside),
    ← root_min obb cloud]
  rfl

theorem fraction_eq : fraction tokens i =
    share (cloud.length : K) (gridLeaf r (obb.root cloud) i) := by
  rw [emitted, fraction_of_leaf encloses _ (leaf_place encloses inside)]

theorem abs_sub_localPoint_le {q : Vec3 K} (member : q ∈ (gridLeaf r (obb.root cloud) i).points)
    (k : Fin 3) : |q k - localPoint obb r tokens i k| ≤ 2 * obb.halfExtents k / 2 ^ r := by
  have listed := List.mem_of_getElem? (leaf_place encloses inside)
  have around := encloses_leaves encloses listed
  have extent : (gridLeaf r (obb.root cloud) i).max k - (gridLeaf r (obb.root cloud) i).min k =
      2 * obb.halfExtents k / 2 ^ r := by
    rw [leaf_extent listed, root_min, sub_neg_eq_add, two_mul]
    rfl
  obtain ⟨low, high⟩ := around.inside q member k
  obtain ⟨low', high'⟩ := denormalized_mem around k
  rw [localPoint_eq encloses emitted inside, ← extent, abs_le]
  constructor <;> linarith

end Cells

section Clouds

variable {K : Type} [Field K]

theorem toLocal_eq (obb : Obb K) (p : Vec3 K) :
    obb.toLocal p = coordinates obb.axes (sub p obb.center) := by
  ext k
  fin_cases k <;> rfl

theorem sum_toLocal (obb : Obb K) {cloud : List (Vec3 K)} (count : (cloud.length : K) ≠ 0)
    (k : Fin 3) : ((cloud.map obb.toLocal).map (· k)).sum / cloud.length =
      coordinates obb.axes (sub (meanOf cloud) obb.center) k := by
  have one (j : Fin 3) : (cloud.map fun p => p j - obb.center j).sum =
      cloud.length * (meanOf cloud j - obb.center j) := by
    rw [Shape.meanOf_eq_sum_div, mul_sub, mul_div_cancel₀ _ count]
    simp only [sub_eq_add_neg, List.sum_map_add, List.map_const', List.sum_replicate, nsmul_eq_mul,
      mul_neg]
  simp only [List.map_map, Function.comp_def, toLocal_eq, coordinates, dot, Vectors.sub_apply,
    List.sum_map_add, List.sum_map_mul_right, one]
  field_simp

variable [LinearOrder K] [IsStrictOrderedRing K] [FloorSemiring K]

/-- The cell that a point of the world falls into. -/
def codeOf (obb : Obb K) (r : Nat) (p : Vec3 K) : Nat :=
  leafCode r (scale obb.halfExtents (-1)) obb.halfExtents (obb.toLocal p)

omit [IsStrictOrderedRing K] in
theorem gridLeaf_root (obb : Obb K) (cloud : List (Vec3 K)) (r i : Nat) :
    (gridLeaf r (obb.root cloud) i).points =
      (cloud.filter fun p => codeOf obb r p = i).map obb.toLocal := by
  rw [gridLeaf, Obb.root, List.filter_map]
  rfl

variable {obb : Obb K} {cloud : List (Vec3 K)} (encloses : Encloses (obb.root cloud)) {r : Nat}
  {tokens : List K}
  (emitted : tokens = ((obb.root cloud).leaves r).flatMap (Segment.token (cloud.length : K)))

include encloses emitted

theorem fraction_counts (count : (cloud.length : K) ≠ 0) {i : Nat} (inside : i < 8 ^ r) :
    fraction tokens i * cloud.length = (cloud.filter fun p => codeOf obb r p = i).length := by
  rw [fraction_eq encloses emitted inside, share, gridLeaf_root, List.length_map,
    div_mul_cancel₀ _ count]

theorem sum_localPoint (k : Fin 3) :
    ∑ i ∈ Finset.range (8 ^ r), fraction tokens i * localPoint obb r tokens i k =
      ((cloud.map obb.toLocal).map (· k)).sum / cloud.length := by
  have agree : ∀ i leaf, ((obb.root cloud).leaves r)[i]? = some leaf →
      fraction tokens i * localPoint obb r tokens i k =
        (leaf.points.map (· k)).sum / (cloud.length : K) := by
    intro i leaf place
    have inside : i < 8 ^ r := by
      rw [← length_leaves r (obb.root cloud)]
      exact (List.getElem?_eq_some_iff.mp place).1
    rw [leaf_place encloses inside] at place
    cases place
    have listed := List.mem_of_getElem? (leaf_place encloses inside)
    rw [fraction_eq encloses emitted inside, localPoint_eq encloses emitted inside,
      share_denormalized (encloses_leaves encloses listed)]
  have additive (s : Segment K) : (s.points.map (· k)).sum / (cloud.length : K) =
      ∑ j, ((s.child j).points.map (· k)).sum / (cloud.length : K) := by
    rw [← Finset.sum_div, sum_children]
  rw [← length_leaves r (obb.root cloud),
    sum_getElem? (fun leaf => (leaf.points.map (· k)).sum / (cloud.length : K)) agree,
    sum_leaves additive]
  rfl

variable (frame : Orthonormal obb.axes)

include frame

theorem sum_worldPoint (nonempty : cloud ≠ []) (row : Fin 3) :
    ∑ i ∈ Finset.range (8 ^ r), fraction tokens i * worldPoint obb r tokens i row =
      meanOf cloud row := by
  have count : (cloud.length : K) ≠ 0 :=
    Nat.cast_ne_zero.mpr (mt List.length_eq_zero_iff.mp nonempty)
  have one : ∑ i ∈ Finset.range (8 ^ r), fraction tokens i = 1 := by
    rw [emitted, fractions_sum encloses, share_root obb nonempty]
  have moments (k : Fin 3) :
      ∑ i ∈ Finset.range (8 ^ r), fraction tokens i * localPoint obb r tokens i k =
        coordinates obb.axes (sub (meanOf cloud) obb.center) k := by
    rw [sum_localPoint encloses emitted, sum_toLocal obb count]
  have spread (i : Nat) : fraction tokens i * worldPoint obb r tokens i row =
      obb.center row * fraction tokens i +
        (obb.axes 0 row * (fraction tokens i * localPoint obb r tokens i 0) +
          obb.axes 1 row * (fraction tokens i * localPoint obb r tokens i 1) +
          obb.axes 2 row * (fraction tokens i * localPoint obb r tokens i 2)) := by
    rw [worldPoint, Vectors.add_apply, combine]
    ring
  have back := congrFun (combine_coordinates frame (sub (meanOf cloud) obb.center)) row
  rw [Finset.sum_congr rfl fun i _ => spread i, Finset.sum_add_distrib, Finset.sum_add_distrib,
    Finset.sum_add_distrib, ← Finset.mul_sum, ← Finset.mul_sum, ← Finset.mul_sum, ← Finset.mul_sum,
    one, moments, moments, moments, mul_one]
  rw [combine, Vectors.sub_apply] at back
  rw [back, add_sub_cancel]

/-- No point is further from the point of its token than the diagonal of a cell. -/
theorem distance_worldPoint_le {p : Vec3 K} (member : p ∈ cloud) :
    dot (sub p (worldPoint obb r tokens (codeOf obb r p)))
        (sub p (worldPoint obb r tokens (codeOf obb r p))) ≤
      (2 * obb.halfExtents 0 / 2 ^ r) ^ 2 + (2 * obb.halfExtents 1 / 2 ^ r) ^ 2 +
        (2 * obb.halfExtents 2 / 2 ^ r) ^ 2 := by
  have inside : codeOf obb r p < 8 ^ r := leafCode_lt r _ _ _
  have held : obb.toLocal p ∈ (gridLeaf r (obb.root cloud) (codeOf obb r p)).points := by
    rw [gridLeaf_root]
    exact List.mem_map_of_mem (List.mem_filter.mpr ⟨member, decide_eq_true rfl⟩)
  have offset (k : Fin 3) :
      coordinates obb.axes (sub p (worldPoint obb r tokens (codeOf obb r p))) k =
        obb.toLocal p k - localPoint obb r tokens (codeOf obb r p) k := by
    have split : coordinates obb.axes (sub p (worldPoint obb r tokens (codeOf obb r p))) k =
        coordinates obb.axes (sub p obb.center) k - coordinates obb.axes
          (combine obb.axes (localPoint obb r tokens (codeOf obb r p))) k := by
      simp only [coordinates, dot, worldPoint, Vectors.sub_apply, Vectors.add_apply]
      ring
    rw [split, coordinates_combine frame, toLocal_eq]
  have near (k : Fin 3) :
      coordinates obb.axes (sub p (worldPoint obb r tokens (codeOf obb r p))) k ^ 2 ≤
        (2 * obb.halfExtents k / 2 ^ r) ^ 2 := by
    rw [offset]
    exact sq_le_sq' (neg_le_of_abs_le (abs_sub_localPoint_le encloses emitted inside held k))
      (le_of_abs_le (abs_sub_localPoint_le encloses emitted inside held k))
  rw [dot_coordinates frame]
  exact add_le_add (add_le_add (near 0) (near 1)) (near 2)

end Clouds

/-- Read back, the tokens are a quantization of the cloud: each share counts the points of its
cell, no point is further from its token's point than the diagonal of a cell, and the centroid
of the cloud is kept. -/
theorem encode_quantizes {K : Type} [Field K] [LinearOrder K] [IsStrictOrderedRing K]
    [FloorSemiring K] (trig : Trig K)
    (unit : ∀ angle, (trig.sinCos angle).1 ^ 2 + (trig.sinCos angle).2 ^ 2 = 1)
    (cloud : List (Vec3 K)) (r : UInt8) (nonempty : cloud ≠ []) (low : 1 ≤ r) (high : r ≤ 5) :
    ∃ obb tokens,
      (Obb.fit trig cloud : Outcome EncodeError (Obb K)) = .ok obb ∧
      encode trig cloud r = .ok tokens ∧
      (∀ i < 8 ^ r.toNat, fraction tokens i * cloud.length =
        (cloud.filter fun p => codeOf obb r.toNat p = i).length) ∧
      (∀ p ∈ cloud, codeOf obb r.toNat p < 8 ^ r.toNat ∧
        dot (sub p (worldPoint obb r.toNat tokens (codeOf obb r.toNat p)))
            (sub p (worldPoint obb r.toNat tokens (codeOf obb r.toNat p))) ≤
          (2 * obb.halfExtents 0 / 2 ^ r.toNat) ^ 2 + (2 * obb.halfExtents 1 / 2 ^ r.toNat) ^ 2 +
            (2 * obb.halfExtents 2 / 2 ^ r.toNat) ^ 2) ∧
      ∀ row, ∑ i ∈ Finset.range (8 ^ r.toNat),
        fraction tokens i * worldPoint obb r.toNat tokens i row = meanOf cloud row := by
  obtain ⟨axes, oriented⟩ := pcaWith_total (ε := EncodeError) (jacobiEigen trig) cloud
  have frame : Orthonormal axes := pcaWith_orthonormal (jacobiEigen_orthonormal unit _) oriented
  have encloses := root_encloses frame (meanOf cloud) nonempty
  have fitted : (Obb.fit trig cloud : Outcome EncodeError (Obb K)) =
      .ok (Obb.inFrame (meanOf cloud) axes cloud) := by
    rw [Obb.fit, Obb.fitWith, oriented]
    rfl
  have count : (cloud.length : K) ≠ 0 :=
    Nat.cast_ne_zero.mpr (mt List.length_eq_zero_iff.mp nonempty)
  refine ⟨Obb.inFrame (meanOf cloud) axes cloud, _, fitted,
    encode_leaves trig nonempty low high fitted, ?_, ?_, ?_⟩
  · intro i inside
    exact fraction_counts encloses rfl count inside
  · intro p member
    exact ⟨leafCode_lt _ _ _ _, distance_worldPoint_le encloses rfl frame member⟩
  · exact sum_worldPoint encloses rfl frame nonempty

theorem encode_quantizes_line :
    ∃ obb tokens, encode noAngles line 2 = .ok tokens ∧
      ∀ row, ∑ i ∈ Finset.range (8 ^ 2), fraction tokens i * worldPoint obb 2 tokens i row =
        meanOf line row := by
  have unit : ∀ angle, (noAngles.sinCos angle).1 ^ 2 + (noAngles.sinCos angle).2 ^ 2 = 1 :=
    fun _ => by norm_num [noAngles]
  obtain ⟨obb, tokens, -, emitted, -, -, kept⟩ := encode_quantizes noAngles unit line 2
    (List.cons_ne_nil _ _) (by decide) (by decide)
  exact ⟨obb, tokens, emitted, kept⟩

end LivoxMid360.Encoder.Decoding
