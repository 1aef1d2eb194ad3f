/- digest: The octant recursion: a box, its eight children, and one token for each leaf. -/

import LivoxMid360.Encoder.Vectors
import LivoxMid360.Foundation.ListBlocks
import Mathlib.Algebra.Order.Field.Basic
import Mathlib.Data.List.FinRange
import Mathlib.Logic.Function.Basic

set_option autoImplicit false
set_option relaxedAutoImplicit false

namespace LivoxMid360.Encoder.Segments

open Foundation.ListBlocks
open Vectors

universe u

variable {F : Type u}

scoped instance neZeroEight : NeZero 8 := ⟨by decide⟩

/-- Bit each axis contributes to the octant index: x to bit 0, y to bit 2, z to bit 1. -/
def axisBits : Fin 3 → Fin 8 := ![1, 4, 2]

def childBounds (min mid max : Vec3 F) (index : Fin 8) : Vec3 F × Vec3 F :=
  (fun axis => if index &&& axisBits axis ≠ 0 then mid axis else min axis,
    fun axis => if index &&& axisBits axis ≠ 0 then max axis else mid axis)

section Octants

variable [LE F] [DecidableLE F]

/-- Octant of a point relative to the midpoint; points on the split plane fall on the positive
side. -/
def octantIndex (p mid : Vec3 F) : Fin 8 :=
  (List.finRange 3).foldl
    (fun index axis => if mid axis ≤ p axis then index ||| axisBits axis else index) 0

def buckets (points : List (Vec3 F)) (mid : Vec3 F) : Fin 8 → List (Vec3 F) :=
  points.foldl
    (fun buckets p =>
      Function.update buckets (octantIndex p mid) (buckets (octantIndex p mid) ++ [p]))
    fun _ => []

theorem buckets_eq (points : List (Vec3 F)) (mid : Vec3 F) (index : Fin 8) :
    buckets points mid index = points.filter fun p => octantIndex p mid = index := by
  induction points using List.reverseRecOn with
  | nil => rfl
  | append_singleton points p ih =>
    rw [buckets, List.foldl_append, List.foldl_cons, List.foldl_nil, ← buckets,
      List.filter_append]
    by_cases here : octantIndex p mid = index
    · rw [here, Function.update_self, ih]
      simp [here]
    · rw [Function.update_of_ne (Ne.symm here), ih]
      simp [here]

theorem octantIndex_bit (p mid : Vec3 F) (axis : Fin 3) :
    octantIndex p mid &&& axisBits axis ≠ 0 ↔ mid axis ≤ p axis := by
  rw [octantIndex, List.finRange_succ]
  by_cases x : mid 0 ≤ p 0 <;> by_cases y : mid 1 ≤ p 1 <;> by_cases z : mid 2 ≤ p 2
  all_goals
    fin_cases axis
    all_goals simp [axisBits, x, y, z, List.finRange]

end Octants

/-- A box with the points that the recursion passed down to it. -/
@[ext] structure Segment (F : Type u) where
  points : List (Vec3 F)
  min : Vec3 F
  max : Vec3 F

section Tokens

variable [Zero F] [One F] [Add F] [Sub F] [Mul F] [Div F] [NatCast F] [LT F] [DecidableLT F]

/-- Degenerate axes map to 0. -/
def normalizeToSegment (p min max : Vec3 F) : Vec3 F := fun axis =>
  let extent := max axis - min axis
  if 0 < extent then 2 * (p axis - min axis) / extent - 1 else 0

def pushSegment (points : List (Vec3 F)) (min max : Vec3 F) (total : F) (out : List F) :
    List F :=
  let fraction := (points.length : F) / total
  let centroid : Vec3 F :=
    if points.isEmpty then fun _ => 0
    else
      let sum := points.foldl (fun sum p axis => sum axis + p axis) fun _ => 0
      let mean := scale sum (1 / (points.length : F))
      normalizeToSegment mean min max
  out ++ [fraction] ++ [centroid 0, centroid 1, centroid 2]

def Segment.token (total : F) (s : Segment F) : List F := pushSegment s.points s.min s.max total []

theorem pushSegment_eq (s : Segment F) (total : F) (out : List F) :
    pushSegment s.points s.min s.max total out = out ++ s.token total := by
  simp [pushSegment, Segment.token]

theorem length_token (total : F) (s : Segment F) : (s.token total).length = 4 := by
  simp [Segment.token, pushSegment]

theorem length_tokens (total : F) (segments : List (Segment F)) :
    (segments.flatMap (Segment.token total)).length = 4 * segments.length :=
  length_flatMap_blocks (length_token total) segments

end Tokens

section Exact

variable {K : Type u} [Field K]

theorem foldl_sum (points : List (Vec3 K)) (start : Vec3 K) (k : Fin 3) :
    points.foldl (fun sum p axis => sum axis + p axis) start k =
      start k + (points.map (· k)).sum := by
  induction points generalizing start with
  | nil => simp
  | cons p points ih => rw [List.foldl_cons, ih, List.map_cons, List.sum_cons, add_assoc]

variable [LinearOrder K]

def normalized (mean lo hi : K) : K := if lo = hi then 0 else 2 * (mean - lo) / (hi - lo) - 1

/-- The share of the points, then their normalized mean, or zeros without points. -/
def leafToken (total : K) (points : List (Vec3 K)) (lo hi : Vec3 K) : List K :=
  (points.length / total) ::
    if points = [] then [0, 0, 0]
    else (List.finRange 3).map fun k =>
      normalized ((points.map (· k)).sum / points.length) (lo k) (hi k)

variable [IsStrictOrderedRing K]

theorem normalizeToSegment_eq {min max : Vec3 K} (box : ∀ k, min k ≤ max k) (p : Vec3 K)
    (k : Fin 3) : normalizeToSegment p min max k = normalized (p k) (min k) (max k) := by
  rw [normalizeToSegment, normalized]
  rcases (box k).lt_or_eq with thick | thin
  · rw [if_pos (sub_pos.mpr thick), if_neg thick.ne]
  · have zero : ¬ 0 < max k - min k := by
      rw [thin, sub_self]
      exact lt_irrefl 0
    rw [if_neg zero, if_pos thin]

theorem token_eq_leafToken {s : Segment K} (box : ∀ k, s.min k ≤ s.max k) (total : K) :
    s.token total = leafToken total s.points s.min s.max := by
  rw [Segment.token, pushSegment, leafToken]
  cases empty : s.points with
  | nil => simp
  | cons p points =>
    have mean (k : Fin 3) : scale ((p :: points).foldl (fun sum p axis => sum axis + p axis)
          fun _ => 0) (1 / ((p :: points).length : K)) k =
        ((p :: points).map (· k)).sum / (p :: points).length := by
      rw [scale_apply, foldl_sum, zero_add, mul_one_div]
    have axes : List.finRange 3 = [0, 1, 2] := rfl
    simp only [List.isEmpty_cons, Bool.false_eq_true, if_false, reduceCtorEq, axes,
      List.map_cons, List.map_nil, normalizeToSegment_eq box, mean, List.nil_append,
      List.cons_append]

end Exact

section Tree

variable [Add F] [Div F] [NatCast F] [LE F] [DecidableLE F]

def Segment.mid (s : Segment F) : Vec3 F := midpoint s.min s.max

def Segment.child (s : Segment F) (index : Fin 8) : Segment F where
  points := s.points.filter fun p => octantIndex p s.mid = index
  min := (childBounds s.min s.mid s.max index).1
  max := (childBounds s.min s.mid s.max index).2

def Segment.children (s : Segment F) : List (Segment F) := (List.finRange 8).map s.child

/-- The leaves under a segment, in the order in which they are emitted. -/
def Segment.leaves : Nat → Segment F → List (Segment F)
  | 0, s => [s]
  | depth + 1, s => s.children.flatMap (leaves depth)

theorem length_children (s : Segment F) : s.children.length = 8 := by
  rw [Segment.children, List.length_map, List.length_finRange]

/-- One level deeper, every leaf is replaced in place by its children. -/
theorem leaves_succ (depth : Nat) (s : Segment F) :
    s.leaves (depth + 1) = (s.leaves depth).flatMap Segment.children := by
  induction depth generalizing s with
  | zero => simp [Segment.leaves]
  | succ depth ih =>
    rw [Segment.leaves, Segment.leaves, List.flatMap_assoc]
    exact List.flatMap_congr fun c _ => ih c

theorem length_leaves (depth : Nat) (s : Segment F) : (s.leaves depth).length = 8 ^ depth := by
  induction depth with
  | zero => rfl
  | succ depth ih =>
    rw [leaves_succ, length_flatMap_blocks length_children, ih, Nat.pow_succ']

end Tree

section Recursion

variable [Zero F] [One F] [Add F] [Sub F] [Mul F] [Div F] [NatCast F] [LT F] [LE F]
  [DecidableLT F] [DecidableLE F]

def encodeBox (points : List (Vec3 F)) (min max : Vec3 F) : Nat → F → List F → List F
  | 0, total, out => pushSegment points min max total out
  | depth + 1, total, out =>
    let mid := midpoint min max
    (List.finRange 8).foldl
      (fun out index =>
        let (childMin, childMax) := childBounds min mid max index
        encodeBox (buckets points mid index) childMin childMax depth total out)
      out

theorem encodeBox_eq (s : Segment F) (depth : Nat) (total : F) (out : List F) :
    encodeBox s.points s.min s.max depth total out =
      out ++ (s.leaves depth).flatMap (Segment.token total) := by
  induction depth generalizing s out with
  | zero => rw [encodeBox, pushSegment_eq, Segment.leaves, List.flatMap_singleton]
  | succ depth ih =>
    rw [encodeBox, Segment.leaves, List.flatMap_assoc, Segment.children, List.flatMap_map]
    have step (index : Fin 8) (out : List F) :
        encodeBox (buckets s.points (midpoint s.min s.max) index)
            (childBounds s.min (midpoint s.min s.max) s.max index).1
            (childBounds s.min (midpoint s.min s.max) s.max index).2 depth total out =
          out ++ ((s.child index).leaves depth).flatMap (Segment.token total) := by
      rw [buckets_eq]
      exact ih (s.child index) out
    simp only [step]
    generalize List.finRange 8 = indices
    induction indices generalizing out with
    | nil => exact (List.append_nil out).symm
    | cons index indices rest =>
      rw [List.foldl_cons, rest, List.flatMap_cons, List.append_assoc]

end Recursion

end LivoxMid360.Encoder.Segments
