/- digest: Token vectors of successive resolutions agree: every token summarizes its children. -/

import LivoxMid360.Encoder.Encode
import LivoxMid360.Foundation.ListBlocks
import Mathlib.Algebra.BigOperators.Field
import Mathlib.Tactic.FieldSimp
import Mathlib.Tactic.Linarith
import Mathlib.Tactic.Ring

set_option autoImplicit false
set_option relaxedAutoImplicit false

namespace LivoxMid360.Encoder.TokenTree

open Foundation.RustOutcome Foundation.ListBlocks
open Vectors PrincipalAxes Segments Encode

section Reading

variable {F : Type} [Zero F]

def fraction (tokens : List F) (i : Nat) : F := tokens.getD (floatsPerSegment * i) 0

def centroid (tokens : List F) (i : Nat) (k : Fin 3) : F :=
  tokens.getD (floatsPerSegment * i + (1 + k.val)) 0

def side [One F] [Neg F] (index : Fin 8) (k : Fin 3) : F :=
  if index &&& axisBits k ≠ 0 then 1 else -1

end Reading

section Sums

variable {K : Type} [Field K]

def inFrame (s : Segment K) (k : Fin 3) (p : Vec3 K) : K :=
  2 * (p k - s.min k) / (s.max k - s.min k) - 1

def share (total : K) (s : Segment K) : K := s.points.length / total

theorem sum_one (points : List (Vec3 K)) :
    (points.map fun _ => (1 : K)).sum = points.length := by
  rw [List.map_const', List.sum_replicate, nsmul_eq_mul, mul_one]

theorem sum_inFrame (s : Segment K) (k : Fin 3) :
    (s.points.map (inFrame s k)).sum =
      2 * ((s.points.map (· k)).sum - s.points.length * s.min k) / (s.max k - s.min k) -
        s.points.length := by
  induction s.points with
  | nil => simp
  | cons p points ih =>
    rw [List.map_cons, List.sum_cons, ih, List.map_cons, List.sum_cons, List.length_cons, inFrame,
      Nat.cast_succ]
    ring

theorem sum_moved (s : Segment K) (k : Fin 3) (points : List (Vec3 K)) (c : K) :
    (points.map fun p => (inFrame s k p + c) / 2).sum =
      ((points.map (inFrame s k)).sum + points.length * c) / 2 := by
  induction points with
  | nil => simp
  | cons p points ih =>
    rw [List.map_cons, List.sum_cons, ih, List.map_cons, List.sum_cons, List.length_cons,
      Nat.cast_succ]
    ring

end Sums

section Boxes

variable {K : Type} [Field K] [LinearOrder K]

/-- The centroid of a box in its own frame, zero without points. -/
def leafCentroid (s : Segment K) (k : Fin 3) : K :=
  if s.points = [] then 0
  else normalized ((s.points.map (· k)).sum / s.points.length) (s.min k) (s.max k)

theorem leafCentroid_flat {s : Segment K} {k : Fin 3} (flat : s.min k = s.max k) :
    leafCentroid s k = 0 := by
  rw [leafCentroid, normalized, if_pos flat, ite_self]

theorem sum_children (s : Segment K) (f : Vec3 K → K) :
    ∑ j, ((s.child j).points.map f).sum = (s.points.map f).sum :=
  sum_fibers (fun p => octantIndex p s.mid) f s.points

theorem share_children (total : K) (s : Segment K) :
    share total s = ∑ j, share total (s.child j) := by
  have count := sum_children s fun _ => 1
  simp only [sum_one] at count
  simp only [share]
  rw [← Finset.sum_div, count]

theorem child_leaf {depth i : Nat} {s leaf : Segment K}
    (place : (s.leaves depth)[i]? = some leaf) (j : Fin 8) :
    (s.leaves (depth + 1))[8 * i + j.val]? = some (leaf.child j) := by
  rw [leaves_succ, getElem?_flatMap_blocks length_children _ i j.isLt, place, Option.bind_some,
    Segment.children, List.getElem?_map, List.getElem?_eq_getElem (by simp),
    List.getElem_finRange]
  rfl

variable [IsStrictOrderedRing K]

/-- Share times centroid is the sum of the points in the frame of the box. -/
theorem moment (total : K) {s : Segment K} {k : Fin 3} (thick : s.min k ≠ s.max k) :
    share total s * leafCentroid s k = (s.points.map (inFrame s k)).sum / total := by
  by_cases empty : s.points = []
  · rw [share, empty]
    simp
  · have count : (s.points.length : K) ≠ 0 :=
      Nat.cast_ne_zero.mpr (mt List.length_eq_zero_iff.mp empty)
    have extent : s.max k - s.min k ≠ 0 := sub_ne_zero.mpr thick.symm
    rw [leafCentroid, if_neg empty, normalized, if_neg thick, share, sum_inFrame]
    field_simp

theorem child_extent (s : Segment K) (index : Fin 8) (k : Fin 3) :
    (s.child index).max k - (s.child index).min k = (s.max k - s.min k) / 2 := by
  have mid : s.mid k = (s.min k + s.max k) / 2 := midpoint_apply s.min s.max k
  simp only [Segment.child, childBounds]
  split
  · rw [mid]
    ring
  · rw [mid]
    ring

theorem inFrame_child {s : Segment K} {k : Fin 3} (thick : s.min k ≠ s.max k) (index : Fin 8)
    (p : Vec3 K) : (inFrame (s.child index) k p + side index k) / 2 = inFrame s k p := by
  have extent : s.max k - s.min k ≠ 0 := sub_ne_zero.mpr thick.symm
  have mid : s.mid k = (s.min k + s.max k) / 2 := midpoint_apply s.min s.max k
  rw [inFrame, child_extent, inFrame, side]
  simp only [Segment.child, childBounds]
  by_cases positive : index &&& axisBits k ≠ 0
  · rw [if_pos positive, if_pos positive, mid]
    field_simp
    ring
  · rw [if_neg positive, if_neg positive]
    field_simp
    ring

theorem centroid_children (total : K) {s : Segment K} {k : Fin 3} (thick : s.min k ≠ s.max k) :
    share total s * leafCentroid s k =
      ∑ j, share total (s.child j) * ((leafCentroid (s.child j) k + side j k) / 2) := by
  have child (j : Fin 8) : share total (s.child j) *
      ((leafCentroid (s.child j) k + side j k) / 2) =
        ((s.child j).points.map (inFrame s k)).sum / total := by
    have extent : (s.child j).max k - (s.child j).min k ≠ 0 := by
      rw [child_extent]
      exact div_ne_zero (sub_ne_zero.mpr thick.symm) two_ne_zero
    have own := moment total (sub_ne_zero.mp extent).symm
    calc share total (s.child j) * ((leafCentroid (s.child j) k + side j k) / 2)
        = (share total (s.child j) * leafCentroid (s.child j) k +
            share total (s.child j) * side j k) / 2 := by ring
      _ = (((s.child j).points.map (inFrame (s.child j) k)).sum +
            (s.child j).points.length * side j k) / 2 / total := by
          rw [own, share]
          ring
      _ = ((s.child j).points.map (inFrame s k)).sum / total := by
          rw [← sum_moved]
          simp only [inFrame_child thick]
  rw [moment total thick, ← sum_children s, Finset.sum_div]
  exact Finset.sum_congr rfl fun j _ => (child j).symm

theorem leaf_extent {depth : Nat} {s leaf : Segment K} (member : leaf ∈ s.leaves depth)
    (k : Fin 3) : leaf.max k - leaf.min k = (s.max k - s.min k) / 2 ^ depth := by
  induction depth generalizing s with
  | zero =>
    rw [List.mem_singleton.mp member, pow_zero, div_one]
  | succ depth ih =>
    obtain ⟨c, child, below⟩ := List.mem_flatMap.mp member
    obtain ⟨index, _, rfl⟩ := List.mem_map.mp child
    rw [ih below, child_extent, pow_succ', div_div]

theorem leaf_box {depth : Nat} {s leaf : Segment K} (box : ∀ k, s.min k ≤ s.max k)
    (member : leaf ∈ s.leaves depth) (k : Fin 3) : leaf.min k ≤ leaf.max k := by
  rw [← sub_nonneg, leaf_extent member]
  exact div_nonneg (sub_nonneg.mpr (box k)) (pow_nonneg (Nat.cast_nonneg 2) depth)

theorem leaf_flat {depth : Nat} {s leaf : Segment K} (member : leaf ∈ s.leaves depth)
    (k : Fin 3) : leaf.min k = leaf.max k ↔ s.min k = s.max k := by
  have power : (2 : K) ^ depth ≠ 0 := pow_ne_zero depth two_ne_zero
  rw [eq_comm, ← sub_eq_zero, leaf_extent member, div_eq_zero_iff, or_iff_left power, sub_eq_zero,
    eq_comm]

theorem fraction_leaf {segments : List (Segment K)} {i : Nat} {leaf : Segment K} (total : K)
    (place : segments[i]? = some leaf) (box : ∀ k, leaf.min k ≤ leaf.max k) :
    fraction (segments.flatMap (Segment.token total)) i = share total leaf := by
  have inside : 0 < 4 := by omega
  have read := getElem?_flatMap_blocks (length_token total) segments i inside
  rw [place, Option.bind_some, token_eq_leafToken box] at read
  rw [fraction, List.getD_eq_getElem?_getD]
  exact congrArg (Option.getD · 0) read

theorem centroid_leaf {segments : List (Segment K)} {i : Nat} {leaf : Segment K} (total : K)
    (place : segments[i]? = some leaf) (box : ∀ k, leaf.min k ≤ leaf.max k) (k : Fin 3) :
    centroid (segments.flatMap (Segment.token total)) i k = leafCentroid leaf k := by
  have inside : 1 + k.val < 4 := by omega
  have read := getElem?_flatMap_blocks (length_token total) segments i inside
  rw [place, Option.bind_some, token_eq_leafToken box, leafToken] at read
  rw [centroid, List.getD_eq_getElem?_getD, floatsPerSegment, read, leafCentroid]
  by_cases empty : leaf.points = []
  · rw [if_pos empty, if_pos empty]
    fin_cases k <;> rfl
  · rw [if_neg empty, if_neg empty]
    fin_cases k <;> rfl

/-- The tokens of the leaves of one box, one level apart. -/
theorem leaves_tree (total : K) {s : Segment K} (box : ∀ k, s.min k ≤ s.max k) {depth i : Nat}
    (inside : i < 8 ^ depth) {coarse fine : List K}
    (upper : coarse = (s.leaves depth).flatMap (Segment.token total))
    (lower : fine = (s.leaves (depth + 1)).flatMap (Segment.token total)) :
    fraction coarse i = ∑ j : Fin 8, fraction fine (8 * i + j) ∧
    ∀ k,
      (s.min k ≠ s.max k → fraction coarse i * centroid coarse i k =
        ∑ j : Fin 8, fraction fine (8 * i + j) *
          ((centroid fine (8 * i + j) k + side j k) / 2)) ∧
      (s.min k = s.max k → centroid coarse i k = 0 ∧
        ∀ j : Fin 8, centroid fine (8 * i + j) k = 0) := by
  rw [← length_leaves depth s] at inside
  have place := List.getElem?_eq_getElem inside
  have member := List.getElem_mem inside
  generalize (s.leaves depth)[i] = leaf at place member
  have below (j : Fin 8) : leaf.child j ∈ s.leaves (depth + 1) :=
    List.mem_of_getElem? (child_leaf place j)
  have leafBox := leaf_box box member
  have childBox (j : Fin 8) := leaf_box box (below j)
  simp only [upper, lower, fraction_leaf _ place leafBox, centroid_leaf _ place leafBox,
    fraction_leaf _ (child_leaf place _) (childBox _),
    centroid_leaf _ (child_leaf place _) (childBox _)]
  refine ⟨share_children _ leaf, ?_⟩
  intro k
  constructor
  · intro thick
    apply centroid_children
    rwa [Ne, leaf_flat member]
  · intro flat
    exact ⟨leafCentroid_flat ((leaf_flat member k).mpr flat),
      fun j => leafCentroid_flat ((leaf_flat (below j) k).mpr flat)⟩

end Boxes

section Resolutions

variable {K : Type} [Field K] [LinearOrder K] [IsStrictOrderedRing K]

omit [IsStrictOrderedRing K] in
/-- The frame does not depend on the resolution: both runs list leaves of one box. -/
theorem encode_leaves (trig : Trig K) {cloud : List (Vec3 K)} {r : UInt8} (nonempty : cloud ≠ [])
    (low : 1 ≤ r) (high : r ≤ 5) {obb : Obb K}
    (fitted : (Obb.fit trig cloud : Outcome EncodeError (Obb K)) = .ok obb) :
    encode trig cloud r = .ok (((obb.root cloud).leaves r.toNat).flatMap
      (Segment.token (cloud.length : K))) :=
  encodeWith_eq nonempty low high fitted

omit [LinearOrder K] [IsStrictOrderedRing K] in
theorem root_min (obb : Obb K) (cloud : List (Vec3 K)) (k : Fin 3) :
    (obb.root cloud).min k = -obb.halfExtents k :=
  (scale_apply obb.halfExtents (-1) k).trans (mul_neg_one _)

theorem root_box {obb : Obb K} (nonneg : ∀ k, 0 ≤ obb.halfExtents k) (cloud : List (Vec3 K))
    (k : Fin 3) : (obb.root cloud).min k ≤ (obb.root cloud).max k := by
  rw [root_min]
  exact neg_le_self (nonneg k)

theorem root_flat (obb : Obb K) (cloud : List (Vec3 K)) (k : Fin 3) :
    (obb.root cloud).min k = (obb.root cloud).max k ↔ obb.halfExtents k = 0 := by
  rw [root_min]
  exact neg_eq_self

theorem toNat_next {r : UInt8} (high : r ≤ 4) : (r + 1).toNat = r.toNat + 1 := by
  have small : r.toNat ≤ 4 := UInt8.le_iff_toNat_le.mp high
  rw [UInt8.toNat_add]
  apply Nat.mod_eq_of_lt
  show r.toNat + 1 < 256
  omega

theorem next_valid {r : UInt8} (high : r ≤ 4) : 1 ≤ r + 1 ∧ r + 1 ≤ 5 := by
  rw [UInt8.le_iff_toNat_le, UInt8.le_iff_toNat_le, toNat_next high]
  exact ⟨Nat.le_add_left 1 r.toNat, Nat.succ_le_succ (UInt8.le_iff_toNat_le.mp high)⟩

/-- A token vector and the one of the next resolution form a tree. The share of a box is the sum
of the shares of its children, and share times centroid is the sum of the children's, brought
back from their frames. An axis without thickness has zero centroids on both levels. -/
theorem encode_token_tree (trig : Trig K) (cloud : List (Vec3 K)) (r : UInt8)
    (nonempty : cloud ≠ []) (low : 1 ≤ r) (high : r ≤ 4) :
    ∃ obb coarse fine,
      (Obb.fit trig cloud : Outcome EncodeError (Obb K)) = .ok obb ∧
      encode trig cloud r = .ok coarse ∧ encode trig cloud (r + 1) = .ok fine ∧
      coarse.length = 4 * 8 ^ r.toNat ∧ fine.length = 4 * 8 ^ (r.toNat + 1) ∧
      ∀ i < 8 ^ r.toNat,
        fraction coarse i = ∑ j : Fin 8, fraction fine (8 * i + j) ∧
        ∀ k,
          (obb.halfExtents k ≠ 0 → fraction coarse i * centroid coarse i k =
            ∑ j : Fin 8, fraction fine (8 * i + j) *
              ((centroid fine (8 * i + j) k + side j k) / 2)) ∧
          (obb.halfExtents k = 0 → centroid coarse i k = 0 ∧
            ∀ j : Fin 8, centroid fine (8 * i + j) k = 0) := by
  obtain ⟨axes, fitted⟩ := fitWith_total (ε := EncodeError) (jacobiEigen trig) cloud
  have box := root_box (halfExtents_nonneg (meanOf cloud) axes nonempty) cloud
  generalize Obb.inFrame (meanOf cloud) axes cloud = obb at fitted box
  have coarse := encode_leaves trig nonempty low (UInt8.le_trans high (by decide)) fitted
  have fine := encode_leaves trig nonempty (next_valid high).1 (next_valid high).2 fitted
  rw [toNat_next high] at fine
  refine ⟨obb, _, _, fitted, coarse, fine, ?_, ?_, ?_⟩
  · rw [length_tokens, length_leaves]
  · rw [length_tokens, length_leaves]
  · intro i inside
    obtain ⟨shares, centroids⟩ := leaves_tree (cloud.length : K) box inside rfl rfl
    refine ⟨shares, ?_⟩
    intro k
    have axis := centroids k
    rwa [Ne, root_flat] at axis

end Resolutions

def line : List (Vec3 ℚ) := [![0, 0, 0], ![1, 0, 0], ![3, 0, 0]]

def noAngles : Trig ℚ where
  atan2 _ _ := 0
  sinCos _ := (0, 1)

theorem encode_token_tree_line :
    ∃ coarse fine, encode noAngles line 1 = .ok coarse ∧ encode noAngles line 2 = .ok fine ∧
      ∀ i < 8, fraction coarse i = ∑ j : Fin 8, fraction fine (8 * i + j) := by
  have nonempty : line ≠ [] := List.cons_ne_nil _ _
  have low : (1 : UInt8) ≤ 1 := by decide
  have high : (1 : UInt8) ≤ 4 := by decide
  obtain ⟨_, coarse, fine, -, first, second, -, -, law⟩ :=
    encode_token_tree noAngles line 1 nonempty low high
  exact ⟨coarse, fine, first, second, fun i inside => (law i inside).1⟩

example : (encode noAngles line 1).bind (fun tokens => .ok (tokens.drop 24)) =
    .ok [2 / 3, -1 / 3, 0, 0, 1 / 3, 1, 0, 0] := by
  decide +kernel

end LivoxMid360.Encoder.TokenTree
