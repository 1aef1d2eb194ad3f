/- digest: A box mirrored along some of its axes has the leaves of the box, each across those axes
and with its centroid mirrored. -/

import LivoxMid360.Encoder.TokenTree

set_option autoImplicit false
set_option relaxedAutoImplicit false

namespace LivoxMid360.Encoder.Mirror

open Vectors Segments TokenTree

def acrossIndex (flip : Fin 3 → Bool) (index : Fin 8) : Fin 8 :=
  index ^^^ (List.finRange 3).foldl (fun mask k => if flip k then mask ||| axisBits k else mask) 0

theorem acrossIndex_bit (flip : Fin 3 → Bool) (index : Fin 8) (k : Fin 3) :
    acrossIndex flip index &&& axisBits k ≠ 0 ↔
      (index &&& axisBits k ≠ 0 ↔ flip k = false) := by
  decide +revert +kernel

theorem acrossIndex_acrossIndex (flip : Fin 3 → Bool) (index : Fin 8) :
    acrossIndex flip (acrossIndex flip index) = index := by
  decide +revert +kernel

theorem octant_ext {i j : Fin 8} (same : ∀ k, i &&& axisBits k ≠ 0 ↔ j &&& axisBits k ≠ 0) :
    i = j := by
  decide +revert +kernel

section Points

variable {K : Type} [Field K]

def mirror (flip : Fin 3 → Bool) (p : Vec3 K) : Vec3 K := fun k => if flip k then -p k else p k

theorem sum_mirror (flip : Fin 3 → Bool) (points : List (Vec3 K)) (k : Fin 3) :
    ((points.map (mirror flip)).map (· k)).sum =
      if flip k then -(points.map (· k)).sum else (points.map (· k)).sum := by
  rw [List.map_map]
  cases turned : flip k with
  | false => simp [Function.comp_def, mirror, turned]
  | true => simp [Function.comp_def, mirror, turned, List.sum_neg]

variable [LinearOrder K] [IsStrictOrderedRing K]

/-- Off the planes that split the flipped axes, a mirrored point is in the octant across. -/
theorem octantIndex_mirror {flip : Fin 3 → Bool} {p mid : Vec3 K}
    (off : ∀ k, flip k = true → p k ≠ mid k) :
    octantIndex (mirror flip p) (mirror flip mid) = acrossIndex flip (octantIndex p mid) := by
  apply octant_ext
  intro k
  rw [acrossIndex_bit, octantIndex_bit, octantIndex_bit, mirror, mirror]
  cases turned : flip k with
  | false => simp
  | true =>
    have apart := off k turned
    simp only [if_true, neg_le_neg_iff, reduceCtorEq, iff_false, not_le]
    exact ⟨fun below => lt_of_le_of_ne below apart, le_of_lt⟩

end Points

section Boxes

variable {K : Type} [Field K] [LinearOrder K]

theorem normalized_opposite (mean lo hi : K) :
    normalized (-mean) (-hi) (-lo) = -normalized mean lo hi := by
  rw [normalized, normalized]
  by_cases flat : lo = hi
  · rw [if_pos flat, if_pos (by rw [flat]), neg_zero]
  · have extent : hi - lo ≠ 0 := sub_ne_zero.mpr (Ne.symm flat)
    have opposite : -lo - -hi = hi - lo := by ring
    rw [if_neg flat, if_neg (fun same => flat (neg_injective same).symm), opposite]
    field_simp
    ring

/-- The box on the other side of the flipped axes, with the points mirrored, in any order. -/
structure Mirrored (flip : Fin 3 → Bool) (s' s : Segment K) : Prop where
  points : s'.points.Perm (s.points.map (mirror flip))
  min : ∀ k, s'.min k = if flip k then -s.max k else s.min k
  max : ∀ k, s'.max k = if flip k then -s.min k else s.max k

variable {flip : Fin 3 → Bool} {s' s : Segment K} (mirrored : Mirrored flip s' s)

include mirrored

omit [LinearOrder K] in
theorem Mirrored.mid : s'.mid = mirror flip s.mid := by
  ext k
  rw [mirror, Segment.mid, Segment.mid, midpoint_apply, midpoint_apply, mirrored.min, mirrored.max]
  cases flip k with
  | false => rfl
  | true =>
    simp only [if_true]
    ring

omit [LinearOrder K] in
theorem Mirrored.share (total : K) : share total s' = share total s := by
  rw [TokenTree.share, TokenTree.share, mirrored.points.length_eq, List.length_map]

theorem Mirrored.leafCentroid (k : Fin 3) :
    leafCentroid s' k = if flip k then -leafCentroid s k else leafCentroid s k := by
  have none : s'.points = [] ↔ s.points = [] := by
    rw [← List.length_eq_zero_iff, mirrored.points.length_eq, List.length_map,
      List.length_eq_zero_iff]
  have sum := (mirrored.points.map (· k)).sum_eq
  rw [sum_mirror] at sum
  rw [TokenTree.leafCentroid, TokenTree.leafCentroid, mirrored.points.length_eq, List.length_map,
    sum, mirrored.min, mirrored.max]
  by_cases empty : s.points = []
  · rw [if_pos empty, if_pos (none.mpr empty), neg_zero, ite_self]
  rw [if_neg empty, if_neg (mt none.mp empty)]
  cases flip k with
  | false => rfl
  | true =>
    simp only [if_true]
    rw [neg_div, normalized_opposite]

variable [IsStrictOrderedRing K]

theorem Mirrored.child (off : ∀ p ∈ s.points, ∀ k, flip k = true → p k ≠ s.mid k)
    (index : Fin 8) : Mirrored flip (s'.child (acrossIndex flip index)) (s.child index) := by
  have mid := mirrored.mid
  refine ⟨?_, ?_, ?_⟩
  -- off the splitting planes, a mirrored point falls into the octant across
  · have inside (p : Vec3 K) (member : p ∈ s.points) :
        decide (octantIndex (mirror flip p) (mirror flip s.mid) = acrossIndex flip index) =
          decide (octantIndex p s.mid = index) := by
      rw [octantIndex_mirror (off p member)]
      refine decide_eq_decide.mpr ⟨fun across => ?_, congrArg _⟩
      rw [← acrossIndex_acrossIndex flip (octantIndex p s.mid), across, acrossIndex_acrossIndex]
    have framed := mirrored.points.filter fun p =>
      decide (octantIndex p s'.mid = acrossIndex flip index)
    rw [List.filter_map, mid] at framed
    rw [Segment.child, Segment.child, mid]
    refine framed.trans (List.Perm.of_eq (congrArg _ ?_))
    exact List.filter_congr fun p member => inside p member
  · intro k
    simp only [Segment.child, childBounds, acrossIndex_bit, mid, mirror, mirrored.min]
    cases flip k with
    | false => simp
    | true =>
      by_cases positive : index &&& axisBits k = 0 <;> simp [positive]
  · intro k
    simp only [Segment.child, childBounds, acrossIndex_bit, mid, mirror, mirrored.max]
    cases flip k with
    | false => simp
    | true =>
      by_cases positive : index &&& axisBits k = 0 <;> simp [positive]

end Boxes

section Leaves

variable {K : Type} [Field K] [LinearOrder K]

/-- The place, among the leaves of a depth, of the leaf across the flipped axes. -/
def acrossPlace (flip : Fin 3 → Bool) : Nat → Nat → Nat
  | 0, i => i
  | depth + 1, i =>
    8 * acrossPlace flip depth (i / 8) + (acrossIndex flip (Fin.ofNat 8 i)).val

theorem acrossPlace_pairs (flip : Fin 3 → Bool) {depth i : Nat} (inside : i < 8 ^ depth) :
    acrossPlace flip depth i < 8 ^ depth ∧
      acrossPlace flip depth (acrossPlace flip depth i) = i := by
  induction depth generalizing i with
  | zero => exact ⟨inside, rfl⟩
  | succ depth ih =>
    rw [Nat.pow_succ] at inside ⊢
    obtain ⟨within, back⟩ := ih (Nat.div_lt_of_lt_mul (by omega) : i / 8 < 8 ^ depth)
    have last := (acrossIndex flip (Fin.ofNat 8 i)).isLt
    have parent : acrossPlace flip (depth + 1) i / 8 = acrossPlace flip depth (i / 8) := by
      rw [acrossPlace]
      omega
    have child : Fin.ofNat 8 (acrossPlace flip (depth + 1) i) =
        acrossIndex flip (Fin.ofNat 8 i) := by
      apply Fin.ext
      show acrossPlace flip (depth + 1) i % 8 = _
      rw [acrossPlace]
      omega
    refine ⟨by rw [acrossPlace]; omega, ?_⟩
    rw [acrossPlace, parent, child, back, acrossIndex_acrossIndex]
    exact Nat.div_add_mod i 8

/-- No point of the box lies on a plane that splits a cell down to a depth across a flipped
axis. -/
def OffPlanes (flip : Fin 3 → Bool) (depth : Nat) (s : Segment K) : Prop :=
  ∀ d < depth, ∀ leaf ∈ s.leaves d, ∀ p ∈ leaf.points, ∀ k, flip k = true → p k ≠ leaf.mid k

theorem OffPlanes.mono {flip : Fin 3 → Bool} {depth : Nat} {s : Segment K}
    (off : OffPlanes flip (depth + 1) s) : OffPlanes flip depth s :=
  fun d shallow => off d (Nat.lt_succ_of_lt shallow)

theorem parent_leaf {depth i : Nat} {s leaf : Segment K}
    (place : (s.leaves (depth + 1))[i]? = some leaf) :
    ∃ parent, (s.leaves depth)[i / 8]? = some parent ∧ leaf = parent.child (Fin.ofNat 8 i) := by
  have inside : i / 8 < (s.leaves depth).length := by
    have within := (List.getElem?_eq_some_iff.mp place).1
    rw [length_leaves, Nat.pow_succ] at within
    rw [length_leaves]
    omega
  have above := List.getElem?_eq_getElem inside
  refine ⟨_, above, ?_⟩
  have below := child_leaf above (Fin.ofNat 8 i)
  have here : 8 * (i / 8) + (Fin.ofNat 8 i).val = i := Nat.div_add_mod i 8
  rw [here, place] at below
  exact Option.some.inj below

variable [IsStrictOrderedRing K] {flip : Fin 3 → Bool} {s' s : Segment K}
  (mirrored : Mirrored flip s' s)

include mirrored

theorem Mirrored.leaf {depth : Nat} (off : OffPlanes flip depth s) {i : Nat} {leaf : Segment K}
    (place : (s.leaves depth)[i]? = some leaf) :
    ∃ leaf', (s'.leaves depth)[acrossPlace flip depth i]? = some leaf' ∧
      Mirrored flip leaf' leaf := by
  induction depth generalizing i leaf with
  | zero =>
    have first := (List.getElem?_eq_some_iff.mp place).1
    rw [length_leaves, pow_zero, Nat.lt_one_iff] at first
    rw [first] at place ⊢
    cases place
    exact ⟨s', rfl, mirrored⟩
  | succ depth ih =>
    obtain ⟨parent, above, rfl⟩ := parent_leaf place
    obtain ⟨parent', above', image⟩ := ih off.mono above
    have clear := off depth (Nat.lt_succ_self depth) parent (List.mem_of_getElem? above)
    exact ⟨_, child_leaf above' _, image.child clear _⟩

/-- The tokens of a mirrored box stand at the places across, with mirrored centroids. -/
theorem Mirrored.tokens (box : ∀ k, s.min k ≤ s.max k) (box' : ∀ k, s'.min k ≤ s'.max k)
    {depth : Nat} (off : OffPlanes flip depth s) (total : K) {i : Nat} (inside : i < 8 ^ depth) :
    fraction ((s'.leaves depth).flatMap (Segment.token total)) (acrossPlace flip depth i) =
        fraction ((s.leaves depth).flatMap (Segment.token total)) i ∧
      ∀ k, centroid ((s'.leaves depth).flatMap (Segment.token total)) (acrossPlace flip depth i) k =
        if flip k then -centroid ((s.leaves depth).flatMap (Segment.token total)) i k
        else centroid ((s.leaves depth).flatMap (Segment.token total)) i k := by
  rw [← length_leaves depth s] at inside
  have place := List.getElem?_eq_getElem inside
  obtain ⟨leaf', place', image⟩ := mirrored.leaf off place
  have leafBox := leaf_box box (List.mem_of_getElem? place)
  have leafBox' := leaf_box box' (List.mem_of_getElem? place')
  rw [fraction_leaf total place leafBox, fraction_leaf total place' leafBox', image.share]
  refine ⟨rfl, fun k => ?_⟩
  rw [centroid_leaf total place leafBox, centroid_leaf total place' leafBox', image.leafCentroid]

end Leaves

end LivoxMid360.Encoder.Mirror
