/- digest: Frames of eigenvectors by decreasing value: with distinct values they agree up to
signs. -/

import LivoxMid360.Foundation.PlaneRotations
import Mathlib.Data.Matrix.Diagonal
import Mathlib.Order.WellFounded

set_option autoImplicit false
set_option relaxedAutoImplicit false

namespace LivoxMid360.Foundation.Eigenframes

open Matrix
open PlaneRotations

universe u v

/-- Orthonormal columns, along each of which the matrix has its value. -/
structure Eigenframe {n : Type u} [Fintype n] [DecidableEq n] {R : Type v} [CommRing R]
    (m frame : Matrix n n R) (values : n → R) : Prop where
  columns : OrthonormalColumns frame
  along : m * frame = frame * diagonal values

section Overlap

variable {n : Type u} [Fintype n] [DecidableEq n] {R : Type v} [CommRing R]
  {m f g : Matrix n n R} {a b : n → R}

/-- The inner products of the columns of two frames. -/
def overlap (g f : Matrix n n R) : Matrix n n R := gᵀ * f

theorem overlap_values (symmetric : m.IsSymm) (hf : Eigenframe m f a) (hg : Eigenframe m g b)
    (j k : n) : b j * overlap g f j k = overlap g f j k * a k := by
  have left : gᵀ * m = diagonal b * gᵀ := by
    rw [← symmetric.eq, ← transpose_mul, hg.along, transpose_mul, diagonal_transpose]
  have both : diagonal b * overlap g f = overlap g f * diagonal a := by
    rw [overlap, ← Matrix.mul_assoc, ← left, Matrix.mul_assoc, hf.along, Matrix.mul_assoc]
  have entry := congrFun (congrFun both j) k
  rwa [diagonal_mul, mul_diagonal] at entry

theorem overlap_rows (hf : OrthonormalColumns f) (hg : OrthonormalColumns g) (i j : n) :
    ∑ k, overlap g f i k * overlap g f j k = if i = j then 1 else 0 := by
  have rows : overlap g f * (overlap g f)ᵀ = 1 := by
    have inner : gᵀ * g = 1 := hg
    calc overlap g f * (overlap g f)ᵀ = gᵀ * (f * fᵀ) * g := by
          rw [overlap, transpose_mul, transpose_transpose, Matrix.mul_assoc, Matrix.mul_assoc,
            Matrix.mul_assoc]
      _ = 1 := by rw [hf.mul_transpose, Matrix.mul_one, inner]
  have entry := congrFun (congrFun rows i) j
  rw [mul_apply, one_apply] at entry
  exact entry

theorem eq_mul_overlap (hf : OrthonormalColumns f) (i j : n) :
    g i j = ∑ k, f i k * overlap g f j k := by
  have whole : g = f * (overlap g f)ᵀ := by
    rw [overlap, transpose_mul, transpose_transpose, ← Matrix.mul_assoc, hf.mul_transpose,
      Matrix.one_mul]
  have entry := congrFun (congrFun whole i) j
  rw [mul_apply] at entry
  exact entry

variable [IsDomain R] (symmetric : m.IsSymm) (hf : Eigenframe m f a) (hg : Eigenframe m g b)

include symmetric hf hg

theorem exists_overlap (j : n) : ∃ k, overlap g f j k ≠ 0 ∧ b j = a k := by
  have row := overlap_rows hf.columns hg.columns j j
  rw [if_pos rfl] at row
  obtain ⟨k, -, present⟩ := Finset.exists_ne_zero_of_sum_ne_zero (row.trans_ne one_ne_zero)
  have nonzero := left_ne_zero_of_mul present
  refine ⟨k, nonzero, mul_left_cancel₀ nonzero ?_⟩
  rw [← overlap_values symmetric hf hg, mul_comm]

theorem overlap_eq_zero (distinct : Function.Injective a) {j k l : n} (same : b j = a k)
    (other : l ≠ k) : overlap g f j l = 0 := by
  by_contra present
  have value : b j = a l := by
    refine mul_left_cancel₀ present ?_
    rw [← overlap_values symmetric hf hg, mul_comm]
  exact other (distinct (value.symm.trans same))

end Overlap

section Ordered

variable {n : Type u} [Fintype n] [LinearOrder n] {R : Type v} [CommRing R] [IsDomain R]
  [Preorder R] {m f g : Matrix n n R} {a b : n → R}

/-- A matrix has one list of values in decreasing order, and when these are distinct its
eigenvectors differ by signs only. -/
theorem eigenframe_unique (symmetric : m.IsSymm) (hf : Eigenframe m f a) (hg : Eigenframe m g b)
    (strict : StrictAnti a) (ordered : Antitone b) :
    b = a ∧ ∃ sign : n → R, (∀ k, sign k * sign k = 1) ∧
      ∀ i k, g i k = f i k * sign k := by
  choose partner present value using exists_overlap symmetric hf hg
  have apart {j l : n} (other : l ≠ partner j) : overlap g f j l = 0 :=
    overlap_eq_zero symmetric hf hg strict.injective (value j) other
  -- Two columns with one partner would not be orthogonal.
  have distinct : Function.Injective partner := by
    intro i j same
    by_contra other
    have row := overlap_rows hf.columns hg.columns i j
    rw [if_neg other, Finset.sum_eq_single (partner i)
      (fun k _ hk => by rw [apart hk, zero_mul])
      (fun missing => absurd (Finset.mem_univ _) missing)] at row
    refine mul_ne_zero (present i) ?_ row
    rw [same]
    exact present j
  have monotone : Monotone partner := by
    intro i j before
    have values := ordered before
    rw [value, value] at values
    exact strict.le_iff_ge.mp values
  have everywhere : Set.range partner = Set.range (id : n → n) := by
    rw [Set.range_id]
    exact (Finite.surjective_of_injective distinct).range_eq
  have own : partner = id :=
    ((monotone.strictMono_of_injective distinct).range_inj strictMono_id).mp everywhere
  have single (j : n) {l : n} (other : l ≠ j) : overlap g f j l = 0 :=
    apart (by rwa [own])
  refine ⟨funext fun j => by rw [value, own]; rfl, fun k => overlap g f k k, ?_, ?_⟩
  · intro k
    have row := overlap_rows hf.columns hg.columns k k
    rwa [if_pos rfl, Finset.sum_eq_single k (fun l _ hl => by rw [single k hl, zero_mul])
      (fun missing => absurd (Finset.mem_univ _) missing)] at row
  · intro i k
    rw [eq_mul_overlap (g := g) hf.columns i k, Finset.sum_eq_single k
      (fun l _ hl => by rw [single k hl, mul_zero])
      (fun missing => absurd (Finset.mem_univ _) missing)]

end Ordered

end LivoxMid360.Foundation.Eigenframes
