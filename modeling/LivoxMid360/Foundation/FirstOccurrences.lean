/- digest: The entries of a list that are the first under their key, in order. -/

import Mathlib.Data.List.Basic

set_option autoImplicit false
set_option relaxedAutoImplicit false

namespace LivoxMid360.Foundation.FirstOccurrences

universe u v w

variable {α : Type u} {κ : Type v} {κ' : Type w} [DecidableEq κ] [DecidableEq κ']

/-- Keep the entries whose key is met for the first time, the keys of `seen` being known. -/
def firstsAfter (key : α → κ) (seen : List κ) : List α → List α
  | [] => []
  | x :: xs =>
    if key x ∈ seen then firstsAfter key seen xs
    else x :: firstsAfter key (key x :: seen) xs

def firsts (key : α → κ) (xs : List α) : List α := firstsAfter key [] xs

variable {key : α → κ}

theorem firstsAfter_cons_seen {seen : List κ} {x : α} (known : key x ∈ seen) (xs : List α) :
    firstsAfter key seen (x :: xs) = firstsAfter key seen xs := if_pos known

theorem firstsAfter_cons_new {seen : List κ} {x : α} (fresh : key x ∉ seen) (xs : List α) :
    firstsAfter key seen (x :: xs) = x :: firstsAfter key (key x :: seen) xs := if_neg fresh

theorem mem_firstsAfter {seen : List κ} {xs : List α} {x : α} :
    x ∈ firstsAfter key seen xs ↔ key x ∉ seen ∧ ∃ before after,
      xs = before ++ x :: after ∧ ∀ y ∈ before, key y ≠ key x := by
  induction xs generalizing seen with
  | nil => simp [firstsAfter]
  | cons first xs ih =>
    -- a known key is passed over, a new one is kept and known from then on
    by_cases known : key first ∈ seen
    · rw [firstsAfter_cons_seen known, ih]
      constructor
      · rintro ⟨fresh, before, after, rfl, others⟩
        refine ⟨fresh, first :: before, after, rfl, ?_⟩
        exact List.forall_mem_cons.mpr ⟨fun same => fresh (same ▸ known), others⟩
      · rintro ⟨fresh, before, after, split, others⟩
        cases before with
        | nil =>
          cases split
          exact absurd known fresh
        | cons y before =>
          cases split
          exact ⟨fresh, before, after, rfl, (List.forall_mem_cons.mp others).2⟩
    · rw [firstsAfter_cons_new known, List.mem_cons, ih]
      constructor
      · rintro (rfl | ⟨fresh, before, after, rfl, others⟩)
        · exact ⟨known, [], xs, rfl, List.forall_mem_nil _⟩
        · obtain ⟨differs, fresh⟩ := not_or.mp (mt List.mem_cons.mpr fresh)
          refine ⟨fresh, first :: before, after, rfl, ?_⟩
          exact List.forall_mem_cons.mpr ⟨fun same => differs same.symm, others⟩
      · rintro ⟨fresh, before, after, split, others⟩
        cases before with
        | nil =>
          cases split
          exact .inl rfl
        | cons y before =>
          cases split
          obtain ⟨differs, others⟩ := List.forall_mem_cons.mp others
          refine .inr ⟨?_, before, after, rfl, others⟩
          rw [List.mem_cons, not_or]
          exact ⟨fun same => differs same.symm, fresh⟩

theorem mem_firsts {xs : List α} {x : α} :
    x ∈ firsts key xs ↔ ∃ before after,
      xs = before ++ x :: after ∧ ∀ y ∈ before, key y ≠ key x := by
  rw [firsts, mem_firstsAfter]
  exact and_iff_right List.not_mem_nil

/-- Renaming the keys apart from one another changes nothing. -/
theorem firstsAfter_comp {f : κ → κ'} (apart : Function.Injective f) (seen : List κ)
    (xs : List α) : firstsAfter (f ∘ key) (seen.map f) xs = firstsAfter key seen xs := by
  induction xs generalizing seen with
  | nil => rfl
  | cons x xs ih =>
    have same : (f ∘ key) x ∈ seen.map f ↔ key x ∈ seen := List.mem_map_of_injective apart
    by_cases known : key x ∈ seen
    · rw [firstsAfter_cons_seen known, firstsAfter_cons_seen (same.mpr known), ih]
    · rw [firstsAfter_cons_new known, firstsAfter_cons_new (mt same.mp known)]
      exact congrArg (x :: ·) (ih (key x :: seen))

theorem firsts_comp {f : κ → κ'} (apart : Function.Injective f) (xs : List α) :
    firsts (f ∘ key) xs = firsts key xs := firstsAfter_comp apart [] xs

end LivoxMid360.Foundation.FirstOccurrences
