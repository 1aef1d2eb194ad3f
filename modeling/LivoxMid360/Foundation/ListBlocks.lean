/- digest: Lists made of equal blocks, and lists that a map sorts into fibers. -/

import Mathlib.Algebra.BigOperators.Group.Finset.Piecewise
import Mathlib.Data.Fintype.Basic

set_option autoImplicit false
set_option relaxedAutoImplicit false

namespace LivoxMid360.Foundation.ListBlocks

universe u v w

section Blocks

variable {α : Type u} {β : Type v} {f : α → List β} {n : Nat}

theorem length_flatMap_blocks (block : ∀ a, (f a).length = n) (l : List α) :
    (l.flatMap f).length = n * l.length := by
  induction l with
  | nil => rfl
  | cons a l ih =>
    rw [List.flatMap_cons, List.length_append, block, ih, List.length_cons, Nat.mul_succ,
      Nat.add_comm]

theorem getElem?_flatMap_blocks (block : ∀ a, (f a).length = n) (l : List α) (i : Nat) {j : Nat}
    (inside : j < n) : (l.flatMap f)[n * i + j]? = l[i]?.bind fun a => (f a)[j]? := by
  induction l generalizing i with
  | nil => simp
  | cons a l ih =>
    rw [List.flatMap_cons]
    cases i with
    | zero =>
      rw [Nat.mul_zero, Nat.zero_add, List.getElem?_append_left (by rwa [block])]
      rfl
    | succ i =>
      have behind : (f a).length ≤ n * (i + 1) + j := by
        rw [block, Nat.mul_succ]
        omega
      have place : n * (i + 1) + j - (f a).length = n * i + j := by
        rw [block, Nat.mul_succ]
        omega
      rw [List.getElem?_append_right behind, place, ih, List.getElem?_cons_succ]

end Blocks

/-- A sum over a list, fiber by fiber. -/
theorem sum_fibers {α : Type u} {ι : Type v} {M : Type w} [Fintype ι] [DecidableEq ι]
    [AddCommMonoid M] (g : α → ι) (f : α → M) (l : List α) :
    ∑ i, ((l.filter fun a => g a = i).map f).sum = (l.map f).sum := by
  induction l with
  | nil => simp
  | cons a l ih =>
    have fiber (i : ι) : (((a :: l).filter fun a => g a = i).map f).sum =
        (if g a = i then f a else 0) + ((l.filter fun a => g a = i).map f).sum := by
      by_cases here : g a = i
      · rw [List.filter_cons_of_pos (by simpa using here), if_pos here, List.map_cons,
          List.sum_cons]
      · rw [List.filter_cons_of_neg (by simpa using here), if_neg here, zero_add]
    rw [Finset.sum_congr rfl fun i _ => fiber i, Finset.sum_add_distrib, ih, List.map_cons,
      List.sum_cons, Finset.sum_ite_eq, if_pos (Finset.mem_univ (g a))]

section Copies

variable {α : Type u} {β : Type v}

/-- The list so many times in a row. -/
def copies (n : Nat) (l : List α) : List α := (List.replicate n l).flatten

theorem map_copies (n : Nat) (f : α → β) (l : List α) :
    (copies n l).map f = copies n (l.map f) := by
  rw [copies, List.map_flatten, List.map_replicate]
  rfl

theorem filter_copies (n : Nat) (keep : α → Bool) (l : List α) :
    (copies n l).filter keep = copies n (l.filter keep) := by
  rw [copies, List.filter_flatten, List.map_replicate]
  rfl

theorem length_copies (n : Nat) (l : List α) : (copies n l).length = n * l.length := by
  rw [copies, List.length_flatten, List.map_replicate, List.sum_replicate_nat]

theorem sum_copies {M : Type w} [AddCommMonoid M] (n : Nat) (l : List M) :
    (copies n l).sum = n • l.sum := by
  rw [copies, List.sum_flatten, List.map_replicate, List.sum_replicate]

theorem mem_copies {n : Nat} (some : n ≠ 0) {l : List α} {a : α} : a ∈ copies n l ↔ a ∈ l := by
  rw [copies, List.mem_flatten]
  constructor
  · rintro ⟨block, listed, member⟩
    rwa [List.eq_of_mem_replicate listed] at member
  · intro member
    exact ⟨l, List.mem_replicate.mpr ⟨some, rfl⟩, member⟩

end Copies

end LivoxMid360.Foundation.ListBlocks
