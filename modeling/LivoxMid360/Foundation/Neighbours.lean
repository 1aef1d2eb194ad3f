/- digest: Neighbours in a list sorted by a key, and the scan for the two around a key. -/

import Mathlib.Data.List.Nodup
import Mathlib.Order.Lattice

set_option autoImplicit false
set_option relaxedAutoImplicit false

namespace LivoxMid360.Foundation.Neighbours

universe u v

variable {T : Type u} {α : Type v} [LinearOrder T] {key : α → T} {t : T} {xs : List α}
  {x y : α}

def Increasing (key : α → T) (xs : List α) : Prop := xs.Pairwise fun x y => key x < key y

theorem Increasing.head_le {first : α} (increasing : Increasing key xs)
    (begins : xs.head? = some first) (member : x ∈ xs) : key first ≤ key x := by
  obtain ⟨rest, rfl⟩ := List.head?_eq_some_iff.mp begins
  rcases List.mem_cons.mp member with rfl | later
  · exact le_rfl
  · exact le_of_lt ((List.pairwise_cons.mp increasing).1 x later)

theorem Increasing.le_last {last : α} (increasing : Increasing key xs)
    (ends : xs.getLast? = some last) (member : x ∈ xs) : key x ≤ key last := by
  obtain ⟨early, rfl⟩ := List.getLast?_eq_some_iff.mp ends
  rcases List.mem_append.mp member with earlier | here
  · exact le_of_lt ((List.pairwise_append.mp increasing).2.2 x earlier last List.mem_cons_self)
  · rw [List.mem_singleton.mp here]

theorem Increasing.eq_of_key_eq (increasing : Increasing key xs) (hx : x ∈ xs) (hy : y ∈ xs)
    (same : key x = key y) : x = y := by
  have apart : (xs.map key).Nodup := List.pairwise_map.mpr (increasing.imp ne_of_lt)
  exact List.inj_on_of_nodup_map apart hx hy same

/-- The first two neighbours around `t`, where both ends count as around. -/
def enclosing (key : α → T) (t : T) : List α → Option (α × α)
  | x :: y :: rest => if key x ≤ t ∧ t ≤ key y then some (x, y) else enclosing key t (y :: rest)
  | _ => none

/-- Two neighbours, the first one before `t` and the second one not. -/
structure Brackets (key : α → T) (t : T) (xs : List α) (x y : α) : Prop where
  neighbours : ∃ before after, xs = before ++ x :: y :: after
  before : key x < t
  notBefore : t ≤ key y

theorem Brackets.head {a b : α} {rest : List α} (before : key a < t) (notBefore : t ≤ key b) :
    Brackets key t (a :: b :: rest) a b :=
  ⟨⟨[], rest, rfl⟩, before, notBefore⟩

theorem Brackets.cons (h : Brackets key t xs x y) (a : α) : Brackets key t (a :: xs) x y := by
  obtain ⟨⟨before, after, rfl⟩, first, second⟩ := h
  exact ⟨⟨a :: before, after, rfl⟩, first, second⟩

theorem Brackets.cases {a : α} (h : Brackets key t (a :: xs) x y) :
    (x = a ∧ ∃ rest, xs = y :: rest) ∨ Brackets key t xs x y := by
  obtain ⟨⟨before, after, split⟩, first, second⟩ := h
  cases before with
  | nil =>
    cases split
    exact .inl ⟨rfl, after, rfl⟩
  | cons b before =>
    cases split
    exact .inr ⟨⟨before, after, rfl⟩, first, second⟩

theorem Brackets.mem (h : Brackets key t xs x y) : x ∈ xs := by
  obtain ⟨⟨before, after, rfl⟩, -, -⟩ := h
  exact List.mem_append_right _ List.mem_cons_self

theorem not_brackets_of_le {b : α} {rest : List α} (increasing : Increasing key (b :: rest))
    (notBefore : t ≤ key b) : ¬ Brackets key t (b :: rest) x y := by
  intro h
  rcases List.mem_cons.mp h.mem with rfl | later
  · exact absurd h.before (not_lt.mpr notBefore)
  · have above := (List.pairwise_cons.mp increasing).1 x later
    exact absurd (above.trans h.before) (not_lt.mpr notBefore)

theorem Brackets.unique {x' y' : α} (increasing : Increasing key xs)
    (h : Brackets key t xs x y) (h' : Brackets key t xs x' y') : x = x' ∧ y = y' := by
  induction xs with
  | nil => cases h.mem
  | cons a xs ih =>
    have later : Increasing key xs := (List.pairwise_cons.mp increasing).2
    rcases h.cases with ⟨rfl, rest, rfl⟩ | tail
    · rcases h'.cases with ⟨rfl, rest', same⟩ | tail'
      · cases same
        exact ⟨rfl, rfl⟩
      · exact absurd tail' (not_brackets_of_le later h.notBefore)
    · rcases h'.cases with ⟨rfl, rest', rfl⟩ | tail'
      · exact absurd tail (not_brackets_of_le later h'.notBefore)
      · exact ih later tail tail'

theorem exists_brackets {first last : α} (begins : xs.head? = some first)
    (ends : xs.getLast? = some last) (before : key first < t) (notBefore : t ≤ key last) :
    ∃ x y, Brackets key t xs x y := by
  induction xs generalizing first with
  | nil => cases begins
  | cons a xs ih =>
    cases begins
    cases xs with
    | nil =>
      cases ends
      exact absurd before (not_lt.mpr notBefore)
    | cons b rest =>
      rw [List.getLast?_cons_cons] at ends
      by_cases here : t ≤ key b
      · exact ⟨a, b, .head before here⟩
      · obtain ⟨x, y, found⟩ := ih rfl ends (not_le.mp here)
        exact ⟨x, y, found.cons a⟩

theorem Increasing.brackets_mem {first : α} (increasing : Increasing key xs)
    (begins : xs.head? = some first) (member : y ∈ xs) (before : key first < key y) :
    ∃ x, Brackets key (key y) xs x y := by
  obtain ⟨early, after, rfl⟩ := List.append_of_mem member
  rcases List.eq_nil_or_concat early with rfl | ⟨early, x, rfl⟩
  · cases begins
    exact absurd before (lt_irrefl _)
  · have order : key x < key y :=
      (List.pairwise_append.mp increasing).2.2 x (by simp) y List.mem_cons_self
    exact ⟨x, ⟨early, after, by simp⟩, order, le_rfl⟩

/-- A scan that has passed a key before `t` stops at the bracket, although a key that equals
`t` ends two of the intervals that it looks at. -/
theorem enclosing_of_brackets {first : α} (increasing : Increasing key xs)
    (begins : xs.head? = some first) (before : key first < t) (h : Brackets key t xs x y) :
    enclosing key t xs = some (x, y) := by
  induction xs generalizing first with
  | nil => cases begins
  | cons a xs ih =>
    cases begins
    have later : Increasing key xs := (List.pairwise_cons.mp increasing).2
    rcases h.cases with ⟨rfl, rest, rfl⟩ | tail
    · rw [enclosing, if_pos ⟨before.le, h.notBefore⟩]
    · cases xs with
      | nil => cases tail.mem
      | cons b rest =>
        have passed : key b < t := by
          by_contra notBefore
          exact not_brackets_of_le later (not_lt.mp notBefore) tail
        rw [enclosing, if_neg fun around => absurd around.2 (not_le.mpr passed)]
        exact ih later rfl passed tail

end LivoxMid360.Foundation.Neighbours
