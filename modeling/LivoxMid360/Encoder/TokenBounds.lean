/- digest: The numbers of a token vector: fractions that sum to one, centroids inside their
cells. -/

import LivoxMid360.Encoder.AxisFrames
import LivoxMid360.Encoder.DyadicGrid
import LivoxMid360.Encoder.TokenTree
import Mathlib.Algebra.Order.BigOperators.Group.List

set_option autoImplicit false
set_option relaxedAutoImplicit false

namespace LivoxMid360.Encoder.TokenBounds

open Foundation.RustOutcome Foundation.ListBlocks
open Vectors PrincipalAxes Segments Encode AxisFrames TokenTree
open DyadicGrid (Encloses encloses_child)

universe u

section Local

variable {K : Type} [Field K] [LinearOrder K]

/-- In an orthonormal frame the box's center takes its own offset off every projection. -/
theorem toLocal_inFrame {axes : Mat3 K} (frame : Orthonormal axes) (mean : Vec3 K)
    (points : List (Vec3 K)) (p : Vec3 K) (k : Fin 3) :
    (Obb.inFrame mean axes points).toLocal p k =
      dot (sub p mean) (axes k) - middle mean axes points k := by
  have projected : (Obb.inFrame mean axes points).toLocal p k =
      dot (sub p (Obb.inFrame mean axes points).center) (axes k) := by
    fin_cases k <;> rfl
  have split : dot (sub p (Obb.inFrame mean axes points).center) (axes k) =
      dot (sub p mean) (axes k) - (middle mean axes points 0 * dot (axes 0) (axes k) +
        middle mean axes points 1 * dot (axes 1) (axes k) +
        middle mean axes points 2 * dot (axes 2) (axes k)) := by
    simp only [dot, Vectors.sub_apply, inFrame_center]
    ring
  rw [projected, split, frame, frame, frame]
  fin_cases k <;> simp

variable [IsStrictOrderedRing K]

omit [IsStrictOrderedRing K] in
theorem toLocal_of_extents {axes : Mat3 K} (frame : Orthonormal axes) {mean : Vec3 K}
    {points : List (Vec3 K)} {k : Fin 3} {m M : K}
    (set : extents mean axes points k = (some m, some M)) :
    (Obb.inFrame mean axes points).halfExtents k = (M - m) / 2 ∧
      ∀ p, (Obb.inFrame mean axes points).toLocal p k =
        dot (sub p mean) (axes k) - (m + M) / 2 := by
  constructor
  · simp only [Obb.inFrame, set, Option.getD_some]
  · intro p
    rw [toLocal_inFrame frame, middle, set]
    rfl

theorem toLocal_mem {axes : Mat3 K} (frame : Orthonormal axes) (mean : Vec3 K)
    {points : List (Vec3 K)} {p : Vec3 K} (member : p ∈ points) (k : Fin 3) :
    -(Obb.inFrame mean axes points).halfExtents k ≤ (Obb.inFrame mean axes points).toLocal p k ∧
      (Obb.inFrame mean axes points).toLocal p k ≤
        (Obb.inFrame mean axes points).halfExtents k := by
  obtain ⟨m, M, set, bounds⟩ := extents_bound mean axes (List.ne_nil_of_mem member) k
  obtain ⟨half, coordinate⟩ := toLocal_of_extents frame set
  obtain ⟨low, high⟩ := bounds p member
  rw [coordinate, half]
  constructor <;> linarith

theorem root_encloses {axes : Mat3 K} (frame : Orthonormal axes) (mean : Vec3 K)
    {points : List (Vec3 K)} (nonempty : points ≠ []) :
    Encloses ((Obb.inFrame mean axes points).root points) := by
  constructor
  · exact root_box (halfExtents_nonneg mean axes nonempty) points
  · intro q member k
    obtain ⟨p, inCloud, rfl⟩ := List.mem_map.mp member
    rw [root_min]
    exact toLocal_mem frame mean inCloud k

end Local

section Leaves

variable {K : Type} [Field K] [LinearOrder K] [IsStrictOrderedRing K]

/-- Every bucket stays inside its own box, at every depth. -/
theorem encloses_leaves {depth : Nat} {s leaf : Segment K} (encloses : Encloses s)
    (member : leaf ∈ s.leaves depth) : Encloses leaf := by
  induction depth generalizing s with
  | zero => rwa [List.mem_singleton.mp member]
  | succ depth ih =>
    obtain ⟨c, child, below⟩ := List.mem_flatMap.mp member
    obtain ⟨index, _, rfl⟩ := List.mem_map.mp child
    exact ih (encloses_child encloses index) below

theorem mean_mem {xs : List K} (nonempty : xs ≠ []) {lo hi : K}
    (bounds : ∀ x ∈ xs, lo ≤ x ∧ x ≤ hi) :
    lo ≤ xs.sum / xs.length ∧ xs.sum / xs.length ≤ hi := by
  have count : (0 : K) < xs.length := Nat.cast_pos.mpr (List.length_pos_iff.mpr nonempty)
  have above := xs.card_nsmul_le_sum lo fun x member => (bounds x member).1
  have below := xs.sum_le_card_nsmul hi fun x member => (bounds x member).2
  rw [nsmul_eq_mul] at above below
  constructor
  · rw [le_div_iff₀ count, mul_comm]
    exact above
  · rw [div_le_iff₀ count, mul_comm]
    exact below

theorem normalized_mem {x lo hi : K} (above : lo ≤ x) (below : x ≤ hi) :
    -1 ≤ normalized x lo hi ∧ normalized x lo hi ≤ 1 := by
  rw [normalized]
  by_cases flat : lo = hi
  · rw [if_pos flat]
    exact ⟨neg_nonpos.mpr zero_le_one, zero_le_one⟩
  · have extent : 0 < hi - lo := sub_pos.mpr (lt_of_le_of_ne (above.trans below) flat)
    have ratio : 0 ≤ 2 * (x - lo) / (hi - lo) ∧ 2 * (x - lo) / (hi - lo) ≤ 2 := by
      constructor
      · exact div_nonneg (by linarith) extent.le
      · rw [div_le_iff₀ extent]
        linarith
    rw [if_neg flat]
    constructor <;> linarith [ratio.1, ratio.2]

theorem leafCentroid_mem {s : Segment K} (encloses : Encloses s) (k : Fin 3) :
    -1 ≤ leafCentroid s k ∧ leafCentroid s k ≤ 1 := by
  rw [leafCentroid]
  by_cases empty : s.points = []
  · rw [if_pos empty]
    exact ⟨neg_nonpos.mpr zero_le_one, zero_le_one⟩
  · rw [if_neg empty]
    have nonempty : s.points.map (· k) ≠ [] := mt List.map_eq_nil_iff.mp empty
    have bounds : ∀ x ∈ s.points.map (· k), s.min k ≤ x ∧ x ≤ s.max k := by
      intro x member
      obtain ⟨p, inside, rfl⟩ := List.mem_map.mp member
      exact encloses.inside p inside k
    have mean := mean_mem nonempty bounds
    rw [List.length_map] at mean
    exact normalized_mem mean.1 mean.2

omit [IsStrictOrderedRing K] in
/-- The leaves share out whatever a box shares out to its children. -/
theorem sum_leaves {f : Segment K → K} (additive : ∀ s, f s = ∑ j, f (s.child j)) (depth : Nat)
    (s : Segment K) : ((s.leaves depth).map f).sum = f s := by
  induction depth generalizing s with
  | zero => exact List.sum_singleton
  | succ depth ih =>
    rw [Segment.leaves, List.map_flatMap, List.flatMap_def, List.sum_flatten, Segment.children,
      List.map_map, List.map_map, ← Fin.sum_univ_def, additive s]
    exact Finset.sum_congr rfl fun j _ => ih (s.child j)

omit [LinearOrder K] [IsStrictOrderedRing K] in
theorem sum_getElem? {leaves : List (Segment K)} (f : Segment K → K) {g : Nat → K}
    (agree : ∀ i leaf, leaves[i]? = some leaf → g i = f leaf) :
    ∑ i ∈ Finset.range leaves.length, g i = (leaves.map f).sum := by
  rw [Finset.sum_range, ← Fin.sum_univ_fun_getElem]
  exact Finset.sum_congr rfl fun i _ => agree i _ (List.getElem?_eq_getElem i.isLt)

end Leaves

section Tokens

variable {K : Type} [Field K] [LinearOrder K] [IsStrictOrderedRing K]

theorem share_nonneg {total : K} (nonneg : 0 ≤ total) (s : Segment K) : 0 ≤ share total s :=
  div_nonneg (Nat.cast_nonneg _) nonneg

omit [LinearOrder K] [IsStrictOrderedRing K] in
theorem share_empty (total : K) {s : Segment K} (empty : s.points = []) : share total s = 0 := by
  rw [share, empty, List.length_nil, Nat.cast_zero, zero_div]

theorem share_root (obb : Obb K) {cloud : List (Vec3 K)} (nonempty : cloud ≠ []) :
    share (cloud.length : K) (obb.root cloud) = 1 := by
  have count : (cloud.length : K) ≠ 0 :=
    Nat.cast_ne_zero.mpr (mt List.length_eq_zero_iff.mp nonempty)
  rw [share, Obb.root, List.length_map, div_self count]

theorem fraction_of_leaf {s leaf : Segment K} (encloses : Encloses s) (total : K) {depth i : Nat}
    (place : (s.leaves depth)[i]? = some leaf) :
    fraction ((s.leaves depth).flatMap (Segment.token total)) i = share total leaf :=
  fraction_leaf total place (encloses_leaves encloses (List.mem_of_getElem? place)).box

theorem centroid_of_leaf {s leaf : Segment K} (encloses : Encloses s) (total : K) {depth i : Nat}
    (place : (s.leaves depth)[i]? = some leaf) (k : Fin 3) :
    centroid ((s.leaves depth).flatMap (Segment.token total)) i k = leafCentroid leaf k :=
  centroid_leaf total place (encloses_leaves encloses (List.mem_of_getElem? place)).box k

theorem fractions_sum {s : Segment K} (encloses : Encloses s) (total : K) (depth : Nat) :
    ∑ i ∈ Finset.range (8 ^ depth),
      fraction ((s.leaves depth).flatMap (Segment.token total)) i = share total s := by
  rw [← length_leaves depth s,
    sum_getElem? (share total) fun i leaf place => fraction_of_leaf encloses total place,
    sum_leaves (share_children total)]

theorem fraction_nonneg {s : Segment K} (encloses : Encloses s) {total : K} (nonneg : 0 ≤ total)
    {depth i : Nat} (inside : i < 8 ^ depth) :
    0 ≤ fraction ((s.leaves depth).flatMap (Segment.token total)) i := by
  rw [← length_leaves depth s] at inside
  rw [fraction_of_leaf encloses total (List.getElem?_eq_getElem inside)]
  exact share_nonneg nonneg _

theorem fraction_le {s : Segment K} (encloses : Encloses s) {total : K} (nonneg : 0 ≤ total)
    {depth i : Nat} (inside : i < 8 ^ depth) :
    fraction ((s.leaves depth).flatMap (Segment.token total)) i ≤ share total s := by
  rw [← fractions_sum encloses total depth]
  apply Finset.single_le_sum (f := fraction ((s.leaves depth).flatMap (Segment.token total)))
  · intro j member
    exact fraction_nonneg encloses nonneg (Finset.mem_range.mp member)
  · exact Finset.mem_range.mpr inside

theorem centroid_mem {s : Segment K} (encloses : Encloses s) (total : K) {depth i : Nat}
    (inside : i < 8 ^ depth) (k : Fin 3) :
    -1 ≤ centroid ((s.leaves depth).flatMap (Segment.token total)) i k ∧
      centroid ((s.leaves depth).flatMap (Segment.token total)) i k ≤ 1 := by
  rw [← length_leaves depth s] at inside
  rw [centroid_of_leaf encloses total (List.getElem?_eq_getElem inside)]
  exact leafCentroid_mem (encloses_leaves encloses (List.getElem_mem inside)) k

/-- Of a cloud with points, the fractions lie between zero and one and sum to one, the
centroids lie in the cells, and a leaf without points emits zeros. -/
theorem encode_token_bounds (trig : Trig K)
    (unit : ∀ angle, (trig.sinCos angle).1 ^ 2 + (trig.sinCos angle).2 ^ 2 = 1)
    (cloud : List (Vec3 K)) (r : UInt8) (nonempty : cloud ≠ []) (low : 1 ≤ r) (high : r ≤ 5) :
    ∃ obb tokens,
      (Obb.fit trig cloud : Outcome EncodeError (Obb K)) = .ok obb ∧
      encode trig cloud r = .ok tokens ∧ tokens.length = 4 * 8 ^ r.toNat ∧
      (∀ i < 8 ^ r.toNat, 0 ≤ fraction tokens i ∧ fraction tokens i ≤ 1 ∧
        ∀ k, -1 ≤ centroid tokens i k ∧ centroid tokens i k ≤ 1) ∧
      ∑ i ∈ Finset.range (8 ^ r.toNat), fraction tokens i = 1 ∧
      ∀ i leaf, ((obb.root cloud).leaves r.toNat)[i]? = some leaf → leaf.points = [] →
        fraction tokens i = 0 ∧ ∀ k, centroid tokens i k = 0 := by
  obtain ⟨axes, oriented⟩ := pcaWith_total (ε := EncodeError) (jacobiEigen trig) cloud
  have frame : Orthonormal axes := pcaWith_orthonormal (jacobiEigen_orthonormal unit _) oriented
  have encloses := root_encloses frame (meanOf cloud) nonempty
  have fitted : (Obb.fit trig cloud : Outcome EncodeError (Obb K)) =
      .ok (Obb.inFrame (meanOf cloud) axes cloud) := by
    rw [Obb.fit, Obb.fitWith, oriented]
    rfl
  generalize Obb.inFrame (meanOf cloud) axes cloud = obb at fitted encloses
  have emitted := encode_leaves trig nonempty low high fitted
  have points : (0 : K) ≤ cloud.length := Nat.cast_nonneg _
  refine ⟨obb, _, fitted, emitted, ?_, ?_, ?_, ?_⟩
  · rw [length_tokens, length_leaves]
  · intro i inside
    have atMost := fraction_le encloses points inside
    rw [share_root obb nonempty] at atMost
    exact ⟨fraction_nonneg encloses points inside, atMost, centroid_mem encloses _ inside⟩
  · rw [fractions_sum encloses, share_root obb nonempty]
  · intro i leaf place empty
    refine ⟨?_, ?_⟩
    · rw [fraction_of_leaf encloses _ place, share_empty _ empty]
    · intro k
      rw [centroid_of_leaf encloses _ place, leafCentroid, if_pos empty]

end Tokens

theorem encode_token_bounds_line :
    ∃ tokens, encode noAngles line 1 = .ok tokens ∧
      ∑ i ∈ Finset.range 8, fraction tokens i = 1 := by
  have unit : ∀ angle, (noAngles.sinCos angle).1 ^ 2 + (noAngles.sinCos angle).2 ^ 2 = 1 :=
    fun _ => by norm_num [noAngles]
  obtain ⟨_, tokens, -, emitted, -, -, total, -⟩ := encode_token_bounds noAngles unit line 1
    (List.cons_ne_nil _ _) (by decide) (by decide)
  exact ⟨tokens, emitted, total⟩

end LivoxMid360.Encoder.TokenBounds
