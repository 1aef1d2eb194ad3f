/- digest: The octant recursion lists a flat dyadic grid in the order of its leaf codes. -/

import LivoxMid360.Encoder.Segments
import LivoxMid360.Foundation.DyadicCells
import Mathlib.Algebra.BigOperators.Intervals
import Mathlib.Data.Rat.Floor

set_option autoImplicit false
set_option relaxedAutoImplicit false

namespace LivoxMid360.Encoder.DyadicGrid

open Foundation.DyadicCells
open Vectors Segments

universe u

/-- The octal digit of one bit an axis: x, then z, then y. -/
def digit (bit : Fin 3 → Nat) : Nat := bit 0 + 2 * bit 2 + 4 * bit 1

/-- The cell numbers of the three axes, their bits read as octal digits from the most to the
least significant. -/
def interleave (r : Nat) (cell : Fin 3 → Nat) : Nat :=
  ∑ b ∈ Finset.range r, 8 ^ b * digit fun k => cell k / 2 ^ b % 2

def cellOf (r code : Nat) (k : Fin 3) : Nat :=
  ∑ b ∈ Finset.range r, 2 ^ b * (code / 8 ^ b % 8 / (axisBits k).val % 2)

theorem digit_lt {bit : Fin 3 → Nat} (bits : ∀ k, bit k < 2) : digit bit < 8 := by
  have x := bits 0
  have y := bits 1
  have z := bits 2
  rw [digit]
  omega

theorem digit_axis {bit : Fin 3 → Nat} (bits : ∀ k, bit k < 2) (k : Fin 3) :
    digit bit / (axisBits k).val % 2 = bit k := by
  have x := bits 0
  have y := bits 1
  have z := bits 2
  rw [digit]
  fin_cases k
  · show (bit 0 + 2 * bit 2 + 4 * bit 1) / 1 % 2 = bit 0
    omega
  · show (bit 0 + 2 * bit 2 + 4 * bit 1) / 4 % 2 = bit 1
    omega
  · show (bit 0 + 2 * bit 2 + 4 * bit 1) / 2 % 2 = bit 2
    omega

theorem interleave_lt (r : Nat) (cell : Fin 3 → Nat) : interleave r cell < 8 ^ r := by
  induction r with
  | zero => exact Nat.one_pos
  | succ r ih =>
    have top : digit (fun k => cell k / 2 ^ r % 2) < 8 :=
      digit_lt fun k => Nat.mod_lt _ Nat.two_pos
    rw [interleave, Finset.sum_range_succ, ← interleave, pow_succ]
    have product : 8 ^ r * digit (fun k => cell k / 2 ^ r % 2) ≤ 8 ^ r * 7 :=
      Nat.mul_le_mul_left _ (Nat.le_of_lt_succ top)
    omega

theorem low_bit {b r t m : Nat} (below : b < r) : (2 ^ r * t + m) / 2 ^ b % 2 = m / 2 ^ b % 2 := by
  obtain ⟨d, rfl⟩ := Nat.exists_eq_add_of_lt below
  have split : 2 ^ (b + d + 1) * t + m = m + 2 ^ b * (2 * (2 ^ d * t)) := by
    rw [pow_succ, pow_add]
    ring
  rw [split, Nat.add_mul_div_left _ _ (Nat.two_pow_pos b), Nat.add_mul_mod_self_left]

theorem interleave_succ (r : Nat) {top low : Fin 3 → Nat} (bits : ∀ k, top k < 2)
    (small : ∀ k, low k < 2 ^ r) :
    interleave (r + 1) (fun k => 2 ^ r * top k + low k) =
      8 ^ r * digit top + interleave r low := by
  have highest : (fun k => (2 ^ r * top k + low k) / 2 ^ r % 2) = top := by
    ext k
    rw [Nat.add_comm, Nat.add_mul_div_left _ _ (Nat.two_pow_pos r),
      Nat.div_eq_of_lt (small k), Nat.zero_add, Nat.mod_eq_of_lt (bits k)]
  rw [interleave, Finset.sum_range_succ, highest, Nat.add_comm]
  congr 1
  apply Finset.sum_congr rfl
  intro b hb
  have below : b < r := Finset.mem_range.mp hb
  simp only [low_bit below]

theorem low_digit {b r d i : Nat} (below : b < r) :
    (8 ^ r * d + i) / 8 ^ b % 8 = i / 8 ^ b % 8 := by
  obtain ⟨e, rfl⟩ := Nat.exists_eq_add_of_lt below
  have split : 8 ^ (b + e + 1) * d + i = i + 8 ^ b * (8 * (8 ^ e * d)) := by
    rw [pow_succ, pow_add]
    ring
  rw [split, Nat.add_mul_div_left _ _ (by positivity), Nat.add_mul_mod_self_left]

theorem cellOf_succ (r : Nat) {d i : Nat} (digit : d < 8) (small : i < 8 ^ r) (k : Fin 3) :
    cellOf (r + 1) (8 ^ r * d + i) k = 2 ^ r * (d / (axisBits k).val % 2) + cellOf r i k := by
  have highest : (8 ^ r * d + i) / 8 ^ r % 8 = d := by
    rw [Nat.add_comm, Nat.add_mul_div_left _ _ (by positivity), Nat.div_eq_of_lt small,
      Nat.zero_add, Nat.mod_eq_of_lt digit]
  rw [cellOf, Finset.sum_range_succ, highest, Nat.add_comm]
  congr 1
  apply Finset.sum_congr rfl
  intro b hb
  rw [low_digit (Finset.mem_range.mp hb)]

theorem cellOf_interleave {r : Nat} {cell : Fin 3 → Nat} (small : ∀ k, cell k < 2 ^ r)
    (k : Fin 3) : cellOf r (interleave r cell) k = cell k := by
  induction r generalizing cell with
  | zero =>
    have zero := small k
    rw [pow_zero] at zero
    rw [cellOf, Finset.range_zero, Finset.sum_empty]
    omega
  | succ r ih =>
    have bits : ∀ k, cell k / 2 ^ r < 2 := by
      intro k
      rw [Nat.div_lt_iff_lt_mul (Nat.two_pow_pos r), ← pow_succ']
      exact small k
    have lower : ∀ k, cell k % 2 ^ r < 2 ^ r := fun k => Nat.mod_lt _ (Nat.two_pow_pos r)
    have split : cell = fun k => 2 ^ r * (cell k / 2 ^ r) + cell k % 2 ^ r := by
      ext k
      exact (Nat.div_add_mod _ _).symm
    rw [split, interleave_succ r bits lower,
      cellOf_succ r (digit_lt bits) (interleave_lt r _), digit_axis bits, ih lower]

theorem octantIndex_val {F : Type u} [LE F] [DecidableLE F] (p mid : Vec3 F) :
    (octantIndex p mid).val = digit fun k => if mid k ≤ p k then 1 else 0 := by
  rw [octantIndex, List.finRange_succ, digit]
  by_cases x : mid 0 ≤ p 0 <;> by_cases y : mid 1 ≤ p 1 <;> by_cases z : mid 2 ≤ p 2
  all_goals simp [axisBits, x, y, z, List.finRange]

section Grid

variable {K : Type u} [Field K] [LinearOrder K] [FloorSemiring K]

def leafCode (r : Nat) (min max p : Vec3 K) : Nat :=
  interleave r fun k => cellNumber r (min k) (max k) (p k)

/-- The leaf with a given code: the points of that code, and its own dyadic cell. -/
def gridLeaf (r : Nat) (s : Segment K) (code : Nat) : Segment K where
  points := s.points.filter fun p => leafCode r s.min s.max p = code
  min := fun k => cellLo r (s.min k) (s.max k) (cellOf r code k)
  max := fun k => cellHi r (s.min k) (s.max k) (cellOf r code k)

theorem leafCode_lt (r : Nat) (min max p : Vec3 K) : leafCode r min max p < 8 ^ r :=
  interleave_lt r _

theorem gridLeaf_zero (s : Segment K) : gridLeaf 0 s 0 = s := by
  have code (p : Vec3 K) : leafCode 0 s.min s.max p = 0 := rfl
  have cell (k : Fin 3) : cellOf 0 0 k = 0 := rfl
  simp [gridLeaf, code, cell]

end Grid

section Order

variable {K : Type u} [Field K] [LinearOrder K] [IsStrictOrderedRing K]

/-- A box that is not inside out, around all its points. -/
structure Encloses (s : Segment K) : Prop where
  box : ∀ k, s.min k ≤ s.max k
  inside : ∀ p ∈ s.points, ∀ k, s.min k ≤ p k ∧ p k ≤ s.max k

theorem mid_mem {s : Segment K} (encloses : Encloses s) (k : Fin 3) :
    s.min k ≤ s.mid k ∧ s.mid k ≤ s.max k := by
  have box := encloses.box k
  rw [Segment.mid, midpoint_apply]
  constructor <;> linarith

theorem encloses_child {s : Segment K} (encloses : Encloses s) (index : Fin 8) :
    Encloses (s.child index) := by
  constructor
  · intro k
    have mid := mid_mem encloses k
    simp only [Segment.child, childBounds]
    split
    · exact mid.2
    · exact mid.1
  · intro p hp k
    obtain ⟨member, octant⟩ := List.mem_filter.mp hp
    have inside := encloses.inside p member k
    have side := octantIndex_bit p s.mid k
    rw [of_decide_eq_true octant] at side
    simp only [Segment.child, childBounds]
    by_cases positive : index &&& axisBits k ≠ 0
    · rw [if_pos positive, if_pos positive]
      exact ⟨side.mp positive, inside.2⟩
    · rw [if_neg positive, if_neg positive]
      exact ⟨inside.1, (not_le.mp fun above => positive (side.mpr above)).le⟩

variable [FloorSemiring K]

/-- One level deeper, the octant of a point is the leading digit of its code, and the rest is
its code in the child box. -/
theorem leafCode_succ (r : Nat) {s : Segment K} (encloses : Encloses s) {p : Vec3 K}
    (member : p ∈ s.points) :
    leafCode (r + 1) s.min s.max p = 8 ^ r * (octantIndex p s.mid).val +
      leafCode r (s.child (octantIndex p s.mid)).min (s.child (octantIndex p s.mid)).max p := by
  have cells : (fun k => cellNumber (r + 1) (s.min k) (s.max k) (p k)) = fun k =>
      2 ^ r * (if s.mid k ≤ p k then 1 else 0) +
        cellNumber r ((s.child (octantIndex p s.mid)).min k)
          ((s.child (octantIndex p s.mid)).max k) (p k) := by
    ext k
    rw [cellNumber_succ r (encloses.box k) (encloses.inside p member k).1]
    have mid : s.mid k = (s.min k + s.max k) / 2 := midpoint_apply s.min s.max k
    have side := octantIndex_bit p s.mid k
    simp only [Segment.child, childBounds]
    -- a point on the splitting plane belongs to the upper half
    by_cases positive : s.mid k ≤ p k
    · rw [if_pos (side.mpr positive), if_pos (side.mpr positive), if_pos positive, mid,
        if_pos (mid ▸ positive), Nat.mul_one]
    · have negative : ¬ octantIndex p s.mid &&& axisBits k ≠ 0 := mt side.mp positive
      rw [if_neg negative, if_neg negative, if_neg positive, mid, if_neg (mid ▸ positive),
        Nat.mul_zero, Nat.zero_add]
  rw [leafCode, cells, interleave_succ r (fun k => by split <;> omega)
    (fun k => cellNumber_lt r _ _ _), octantIndex_val, leafCode]

theorem split_inj {n a b c d : Nat} (hc : c < n) (hd : d < n) :
    n * a + c = n * b + d ↔ a = b ∧ c = d := by
  constructor
  · intro same
    have quotients := congrArg (· / n) same
    have remainders := congrArg (· % n) same
    simp only [Nat.mul_add_div (Nat.zero_lt_of_lt hc), Nat.div_eq_of_lt hc, Nat.div_eq_of_lt hd,
      Nat.add_zero] at quotients
    simp only [Nat.mul_add_mod, Nat.mod_eq_of_lt hc, Nat.mod_eq_of_lt hd] at remainders
    exact ⟨quotients, remainders⟩
  · rintro ⟨rfl, rfl⟩
    rfl

theorem gridLeaf_succ_points (r : Nat) {s : Segment K} (encloses : Encloses s) (index : Fin 8)
    {i : Nat} (small : i < 8 ^ r) :
    (gridLeaf (r + 1) s (8 ^ r * index.val + i)).points =
      (gridLeaf r (s.child index) i).points := by
  simp only [gridLeaf]
  conv_rhs => rw [Segment.child, List.filter_filter]
  apply List.filter_congr
  intro p hp
  rw [leafCode_succ r encloses hp, ← Bool.decide_and]
  apply decide_eq_decide.mpr
  rw [split_inj (leafCode_lt r _ _ p) small, Fin.val_inj]
  constructor
  · rintro ⟨rfl, here⟩
    exact ⟨here, rfl⟩
  · rintro ⟨here, rfl⟩
    exact ⟨rfl, here⟩

theorem axis_bit (index : Fin 8) (k : Fin 3) :
    index.val / (axisBits k).val % 2 = if index &&& axisBits k ≠ 0 then 1 else 0 := by
  revert index k
  decide

omit [IsStrictOrderedRing K] in
theorem ends_succ [NeZero (2 : K)] (r : Nat) (s : Segment K) (index : Fin 8) {i : Nat}
    (small : i < 8 ^ r) (k : Fin 3) :
    (gridLeaf (r + 1) s (8 ^ r * index.val + i)).min k = (gridLeaf r (s.child index) i).min k ∧
      (gridLeaf (r + 1) s (8 ^ r * index.val + i)).max k =
        (gridLeaf r (s.child index) i).max k := by
  have mid : s.mid k = (s.min k + s.max k) / 2 := midpoint_apply s.min s.max k
  simp only [gridLeaf]
  rw [cellOf_succ r index.isLt small, axis_bit]
  simp only [Segment.child, childBounds]
  by_cases positive : index &&& axisBits k ≠ 0
  · rw [if_pos positive, if_pos positive, if_pos positive, mid, Nat.mul_one]
    exact ⟨cellLo_right r _ _ _, cellHi_right r _ _ _⟩
  · rw [if_neg positive, if_neg positive, if_neg positive, mid, Nat.mul_zero, Nat.zero_add]
    exact ⟨cellLo_left r _ _ _, cellHi_left r _ _ _⟩

theorem gridLeaf_succ (r : Nat) {s : Segment K} (encloses : Encloses s) (index : Fin 8) {i : Nat}
    (small : i < 8 ^ r) :
    gridLeaf (r + 1) s (8 ^ r * index.val + i) = gridLeaf r (s.child index) i := by
  ext1
  · exact gridLeaf_succ_points r encloses index small
  · ext k
    exact (ends_succ r s index small k).1
  · ext k
    exact (ends_succ r s index small k).2

theorem range_mul (a n : Nat) :
    List.range (a * n) = (List.range a).flatMap fun j => (List.range n).map (n * j + ·) := by
  induction a with
  | zero => simp
  | succ a ih =>
    rw [Nat.succ_mul, List.range_add, ih, List.range_succ, List.flatMap_append,
      List.flatMap_singleton, Nat.mul_comm a n]

theorem gridLeaf_box (r : Nat) {s : Segment K} (encloses : Encloses s) (code : Nat) (k : Fin 3) :
    (gridLeaf r s code).min k ≤ (gridLeaf r s code).max k :=
  cellLo_le_cellHi r (encloses.box k) _

/-- The leaves that the recursion visits are the grid, in the order of the codes. -/
theorem leaves_eq_grid (r : Nat) {s : Segment K} (encloses : Encloses s) :
    s.leaves r = (List.range (8 ^ r)).map (gridLeaf r s) := by
  induction r generalizing s with
  | zero => simp [Segment.leaves, gridLeaf_zero]
  | succ r ih =>
    have child (index : Fin 8) : (s.child index).leaves r =
        (List.range (8 ^ r)).map fun i => gridLeaf (r + 1) s (8 ^ r * index.val + i) := by
      rw [ih (encloses_child encloses index)]
      apply List.map_congr_left
      intro i hi
      exact (gridLeaf_succ r encloses index (List.mem_range.mp hi)).symm
    have octants : List.range 8 = (List.finRange 8).map Fin.val := rfl
    rw [Segment.leaves, Segment.children, List.flatMap_map, pow_succ', range_mul,
      List.map_flatMap, octants, List.flatMap_map]
    simp only [child, List.map_map, Function.comp_def]

/-- The recursion appends one token for each code, in order: the token of the points with that
code, normalized against the cell of that code. Every point has one code, whose cell on each
axis is the point's own. -/
theorem encodeBox_dyadic_grid (points : List (Vec3 K)) (min max : Vec3 K) (r : Nat) (total : K)
    (out : List K) (box : ∀ k, min k ≤ max k)
    (inside : ∀ p ∈ points, ∀ k, min k ≤ p k ∧ p k ≤ max k) :
    encodeBox points min max r total out =
      out ++ (List.range (8 ^ r)).flatMap (fun i =>
        leafToken total (points.filter fun p => leafCode r min max p = i)
          (fun k => cellLo r (min k) (max k) (cellOf r i k))
          (fun k => cellHi r (min k) (max k) (cellOf r i k))) ∧
    (encodeBox points min max r total out).length = out.length + 4 * 8 ^ r ∧
    ∀ p ∈ points, leafCode r min max p < 8 ^ r ∧
      ∀ k, cellOf r (leafCode r min max p) k = cellNumber r (min k) (max k) (p k) := by
  have encloses : Encloses (⟨points, min, max⟩ : Segment K) := ⟨box, inside⟩
  have emitted := encodeBox_eq (⟨points, min, max⟩ : Segment K) r total out
  refine ⟨?_, ?_, ?_⟩
  · rw [emitted, leaves_eq_grid r encloses, List.flatMap_map]
    congr 1
    apply List.flatMap_congr
    intro i hi
    exact token_eq_leafToken (gridLeaf_box r encloses i) total
  · rw [emitted, List.length_append, length_tokens, length_leaves]
  · intro p _
    refine ⟨leafCode_lt r min max p, ?_⟩
    exact cellOf_interleave fun k => cellNumber_lt r _ _ _

end Order

def lineMin : Vec3 ℚ := ![-1, 0, 0]

def lineMax : Vec3 ℚ := ![1, 0, 0]

theorem encodeBox_dyadic_grid_line :
    (encodeBox [lineMin, lineMax] lineMin lineMax 1 2 []).length = 32 ∧
      ∀ k, cellOf 1 (leafCode 1 lineMin lineMax lineMax) k =
        cellNumber 1 (lineMin k) (lineMax k) (lineMax k) := by
  have box : ∀ k, lineMin k ≤ lineMax k := by decide +kernel
  have inside : ∀ p ∈ [lineMin, lineMax], ∀ k, lineMin k ≤ p k ∧ p k ≤ lineMax k := by
    decide +kernel
  obtain ⟨-, length, cells⟩ :=
    encodeBox_dyadic_grid [lineMin, lineMax] lineMin lineMax 1 2 [] box inside
  exact ⟨length, (cells lineMax (List.mem_cons_of_mem _ List.mem_cons_self)).2⟩

example : (encodeBox [lineMin, lineMax] lineMin lineMax 1 2 []).drop 24 =
    [1 / 2, -1, 0, 0, 1 / 2, 1, 0, 0] := by
  decide +kernel

end LivoxMid360.Encoder.DyadicGrid
