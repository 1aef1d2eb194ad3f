/- digest: Runs of transition systems, their invariants, and an unreliable network. -/

import Mathlib.Data.List.Infix
import Mathlib.Logic.Relation

set_option autoImplicit false
set_option relaxedAutoImplicit false

namespace LivoxMid360.Foundation.Transition

open Relation (ReflTransGen)

universe u v

variable {σ : Type u} {α : Type v}

def Taken (step : σ → α → σ → Prop) (meets : σ → α → Prop) (s t : σ) : Prop :=
  ∃ a, meets s a ∧ step s a t

/-- What every step preserves, every run preserves. -/
theorem invariant {step : σ → σ → Prop} (Inv : σ → Prop)
    (preserved : ∀ s t, Inv s → step s t → Inv t) {s t : σ}
    (run : ReflTransGen step s t) (start : Inv s) : Inv t := by
  induction run with
  | refl => exact start
  | tail _ last ih => exact preserved _ _ ih last

/-! For a system that consumes a list of events, safety in every state of a run is a condition
on its single steps as soon as one step from a safe state is safe exactly when it meets the
condition. -/

section Deterministic

variable {next : σ → α → σ} {Safe : σ → Prop} {Meets : σ → α → Prop}

abbrev after (next : σ → α → σ) (start : σ) (events : List α) : σ := events.foldl next start

theorem after_concat (next : σ → α → σ) (start : σ) (events : List α) (a : α) :
    after next start (events ++ [a]) = next (after next start events) a := by
  rw [after, List.foldl_append, List.foldl_cons, List.foldl_nil]

theorem after_invariant (Inv : σ → Prop) (preserved : ∀ s a, Inv s → Inv (next s a)) {start : σ}
    (initially : Inv start) (events : List α) : Inv (after next start events) := by
  induction events generalizing start with
  | nil => exact initially
  | cons a events ih => exact ih (preserved start a initially)

/-- A system whose every event is matched by some events of another, along an abstraction of its
states, runs as the other does. -/
theorem exists_after_eq {τ : Type u} {β : Type v} {other : τ → β → τ} (abstraction : σ → τ)
    (matched : ∀ s a, ∃ events, after other (abstraction s) events = abstraction (next s a))
    (start : σ) (events : List α) :
    ∃ events', after other (abstraction start) events' = abstraction (after next start events) := by
  induction events generalizing start with
  | nil => exact ⟨[], rfl⟩
  | cons a events ih =>
    obtain ⟨first, step⟩ := matched start a
    obtain ⟨later, rest⟩ := ih (next start a)
    refine ⟨first ++ later, ?_⟩
    rw [after, List.foldl_append]
    exact (congrArg (fun s => after other s later) step).trans rest

theorem safe_throughout_iff (step : ∀ s a, Safe s → (Safe (next s a) ↔ Meets s a))
    {start : σ} (initially : Safe start) (events : List α) :
    (∀ pre, pre <+: events → Safe (after next start pre)) ↔
      ∀ pre a post, events = pre ++ a :: post → Meets (after next start pre) a := by
  constructor
  · rintro safe pre a post rfl
    -- safe before and after a step says that the step met the condition
    have before := safe pre (List.prefix_append _ _)
    have here : pre ++ [a] <+: pre ++ a :: post := ⟨post, by simp⟩
    have later := safe (pre ++ [a]) here
    rw [after_concat] at later
    exact (step _ a before).mp later
  · intro meets pre
    induction pre using List.reverseRecOn with
    | nil =>
      intro _
      exact initially
    | append_singleton pre a ih =>
      rintro ⟨post, rfl⟩
      have before : pre <+: pre ++ [a] ++ post := by
        rw [List.append_assoc]
        exact List.prefix_append _ _
      rw [after_concat]
      refine (step _ a (ih before)).mpr (meets pre a post ?_)
      rw [List.append_assoc]
      rfl

end Deterministic

/-- An unreliable network may lose, repeat and reorder what is in flight, and delivers only
what was put on it. -/
def Drift (before later : List α) : Prop := later ⊆ before

theorem Drift.forall {before later : List α} (drift : Drift before later) {P : α → Prop}
    (all : ∀ m ∈ before, P m) : ∀ m ∈ later, P m :=
  fun m hm => all m (drift hm)

end LivoxMid360.Foundation.Transition
