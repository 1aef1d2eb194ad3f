/- digest: What a buffer that drops stale entries from its front, and then a cap, retains. -/

import Mathlib.Data.List.DropRight

set_option autoImplicit false
set_option relaxedAutoImplicit false

namespace LivoxMid360.Foundation.Retention

universe u

variable {α : Type u}

def staleRun (fresh : α → Bool) : List α → Nat
  | [] => 0
  | x :: xs => if fresh x then 0 else staleRun fresh xs + 1

/-- Drop the leading run of stale entries, then keep the last `cap`. -/
def retain (cap : Nat) (fresh : α → Bool) (xs : List α) : List α :=
  (xs.drop (staleRun fresh xs)).rtake cap

theorem rtake_of_length_le {cap : Nat} {xs : List α} (short : xs.length ≤ cap) :
    xs.rtake cap = xs := by
  rw [List.rtake, Nat.sub_eq_zero_of_le short, List.drop_zero]

@[simp] theorem length_rtake (cap : Nat) (xs : List α) :
    (xs.rtake cap).length = min cap xs.length := by
  rw [List.rtake, List.length_drop]
  omega

theorem rtake_suffix (cap : Nat) (xs : List α) : xs.rtake cap <:+ xs :=
  List.drop_suffix _ _

theorem staleRun_le (fresh : α → Bool) (xs : List α) : staleRun fresh xs ≤ xs.length := by
  induction xs with
  | nil => exact le_rfl
  | cons x xs ih =>
    rw [staleRun, List.length_cons]
    split
    · exact Nat.zero_le _
    · exact Nat.succ_le_succ ih

theorem retain_suffix (cap : Nat) (fresh : α → Bool) (xs : List α) :
    retain cap fresh xs <:+ xs :=
  (rtake_suffix _ _).trans (List.drop_suffix _ _)

theorem length_retain (cap : Nat) (fresh : α → Bool) (xs : List α) :
    (retain cap fresh xs).length = min cap (xs.length - staleRun fresh xs) := by
  rw [retain, length_rtake, List.length_drop]

theorem staleRun_le_iff (fresh : α → Bool) (before : List α) (x : α) (behind : List α) :
    staleRun fresh (before ++ x :: behind) ≤ before.length ↔
      ∃ y ∈ before ++ [x], fresh y = true := by
  induction before with
  | nil =>
    rw [List.nil_append, List.nil_append, staleRun]
    by_cases freshX : fresh x = true
    · simp [freshX]
    · simp [freshX]
  | cons b before ih =>
    rw [List.cons_append, List.cons_append, staleRun]
    by_cases freshB : fresh b = true
    · simp [freshB]
    · rw [if_neg freshB, List.length_cons, Nat.add_le_add_iff_right, ih]
      simp [freshB]

/-- The tail from an entry on is retained exactly when the cap has room for it and a fresh
entry stands at its head or before it. -/
theorem suffix_retain_iff {cap : Nat} {fresh : α → Bool} {before : List α} {x : α}
    {behind : List α} :
    x :: behind <:+ retain cap fresh (before ++ x :: behind) ↔
      behind.length < cap ∧ ∃ y ∈ before ++ [x], fresh y = true := by
  have retained := retain_suffix cap fresh (before ++ x :: behind)
  have tail : x :: behind <:+ before ++ x :: behind := List.suffix_append _ _
  have byLength : x :: behind <:+ retain cap fresh (before ++ x :: behind) ↔
      (x :: behind).length ≤ (retain cap fresh (before ++ x :: behind)).length :=
    ⟨fun h => h.length_le, List.suffix_of_suffix_length_le tail retained⟩
  have bound := staleRun_le fresh (before ++ x :: behind)
  rw [byLength, length_retain, ← staleRun_le_iff fresh before x behind]
  simp only [List.length_append, List.length_cons] at bound ⊢
  omega

theorem mem_retain_iff {cap : Nat} {fresh : α → Bool} {xs : List α} {x : α} :
    x ∈ retain cap fresh xs ↔ ∃ before behind, xs = before ++ x :: behind ∧
      behind.length < cap ∧ ∃ y ∈ before ++ [x], fresh y = true := by
  constructor
  · intro member
    obtain ⟨pre, behind, split⟩ := List.append_of_mem member
    have tail : x :: behind <:+ retain cap fresh xs := ⟨pre, split.symm⟩
    obtain ⟨before, rfl⟩ := tail.trans (retain_suffix cap fresh xs)
    exact ⟨before, behind, rfl, suffix_retain_iff.mp tail⟩
  · rintro ⟨before, behind, rfl, survives⟩
    exact (suffix_retain_iff.mpr survives).subset List.mem_cons_self

theorem retain_fresh_iff (cap : Nat) (fresh : α → Bool) (xs : List α) :
    (∀ x ∈ retain cap fresh xs, fresh x = true) ↔
      ∀ before x behind, xs = before ++ x :: behind → behind.length < cap →
        (∃ y ∈ before, fresh y = true) → fresh x = true := by
  constructor
  · intro clean before x behind split room ⟨y, hy, freshY⟩
    refine clean x (mem_retain_iff.mpr ⟨before, behind, split, room, y, ?_, freshY⟩)
    exact List.mem_append_left _ hy
  · intro ordered x member
    obtain ⟨before, behind, split, room, y, hy, freshY⟩ := mem_retain_iff.mp member
    rcases List.mem_append.mp hy with earlier | here
    · exact ordered before x behind split room ⟨y, earlier, freshY⟩
    · exact List.mem_singleton.mp here ▸ freshY

private theorem suffix_of_survivors {xs ys zs : List α} (ofXs : ys <:+ xs)
    (survive : ∀ before x behind, xs = before ++ x :: behind →
      x :: behind <:+ ys → x :: behind <:+ zs) : ys <:+ zs := by
  cases ys with
  | nil => exact List.nil_suffix
  | cons y ys =>
    obtain ⟨before, rfl⟩ := ofXs
    exact survive before y ys rfl (List.suffix_refl _)

/-- Two notions of freshness retain the same entries exactly when, within the reach of the
cap, a fresh entry in one sense is met no later than in the other. -/
theorem retain_eq_iff (cap : Nat) (fresh fresh' : α → Bool) (xs : List α) :
    retain cap fresh xs = retain cap fresh' xs ↔
      ∀ before x behind, xs = before ++ x :: behind → behind.length < cap →
        ((∃ y ∈ before ++ [x], fresh y = true) ↔ ∃ y ∈ before ++ [x], fresh' y = true) := by
  constructor
  · rintro same before x behind rfl room
    have left : _ ↔ behind.length < cap ∧ ∃ y ∈ before ++ [x], fresh y = true :=
      suffix_retain_iff
    rw [same, suffix_retain_iff] at left
    simpa only [room, true_and] using left.symm
  · intro agree
    have forth : retain cap fresh xs <:+ retain cap fresh' xs := by
      apply suffix_of_survivors (retain_suffix cap fresh xs)
      rintro before x behind rfl kept
      have survives := suffix_retain_iff.mp kept
      exact suffix_retain_iff.mpr
        ⟨survives.1, (agree before x behind rfl survives.1).mp survives.2⟩
    have back : retain cap fresh' xs <:+ retain cap fresh xs := by
      apply suffix_of_survivors (retain_suffix cap fresh' xs)
      rintro before x behind rfl kept
      have survives := suffix_retain_iff.mp kept
      exact suffix_retain_iff.mpr
        ⟨survives.1, (agree before x behind rfl survives.1).mpr survives.2⟩
    exact forth.eq_of_length_le back.length_le

/-! When freshness, once met, holds of everything behind, the front drop is a filter. -/

/-- Everything behind a fresh entry is fresh. -/
def Onward (fresh : α → Bool) (xs : List α) : Prop :=
  xs.Pairwise fun x y => fresh x = true → fresh y = true

theorem drop_staleRun {fresh : α → Bool} {xs : List α} (onward : Onward fresh xs) :
    xs.drop (staleRun fresh xs) = xs.filter fresh := by
  induction xs with
  | nil => rfl
  | cons x xs ih =>
    obtain ⟨head, rest⟩ := List.pairwise_cons.mp onward
    rw [staleRun]
    by_cases freshX : fresh x = true
    · have all : ∀ y ∈ x :: xs, fresh y = true := by
        intro y hy
        rcases List.mem_cons.mp hy with rfl | later
        · exact freshX
        · exact head y later freshX
      rw [if_pos freshX, List.drop_zero, List.filter_eq_self.mpr all]
    · rw [if_neg freshX, List.drop_succ_cons, List.filter_cons_of_neg freshX]
      exact ih rest

theorem retain_of_onward (cap : Nat) {fresh : α → Bool} {xs : List α}
    (onward : Onward fresh xs) : retain cap fresh xs = (xs.filter fresh).rtake cap := by
  rw [retain, drop_staleRun onward]

theorem rtake_rtake_append (cap : Nat) (xs ys : List α) :
    (xs.rtake cap ++ ys).rtake cap = (xs ++ ys).rtake cap := by
  rw [List.rtake, List.rtake, List.rtake, List.length_append, List.length_append,
    List.length_drop, ← List.drop_append_of_le_length (by omega), List.drop_drop]
  congr 1
  omega

theorem rtake_append_of_le {cap : Nat} {ys : List α} (full : cap ≤ ys.length) (xs : List α) :
    (xs ++ ys).rtake cap = ys.rtake cap := by
  have past : xs.length ≤ (xs ++ ys).length - cap := by
    rw [List.length_append]
    omega
  rw [List.rtake, List.rtake, List.drop_append, List.drop_eq_nil_of_le past, List.nil_append,
    List.length_append]
  congr 1
  omega

theorem rtake_filter_rtake (cap : Nat) {fresh : α → Bool} {xs : List α}
    (onward : Onward fresh xs) :
    ((xs.rtake cap).filter fresh).rtake cap = (xs.filter fresh).rtake cap := by
  rcases Nat.lt_or_ge cap xs.length with long | short
  · obtain ⟨early, parts⟩ := rtake_suffix cap xs
    have full : cap ≤ (xs.rtake cap).length := by
      rw [length_rtake]
      omega
    rw [Onward, ← parts] at onward
    conv_rhs => rw [← parts, List.filter_append]
    by_cases all : ∀ x ∈ xs.rtake cap, fresh x = true
    · -- the cap is filled by fresh entries, whatever stands before them
      rw [List.filter_eq_self.mpr all, rtake_append_of_le full]
    · -- a stale entry under the cap makes everything before it stale
      push Not at all
      obtain ⟨x, hx, staleX⟩ := all
      have none : early.filter fresh = [] := by
        refine List.filter_eq_nil_iff.mpr fun y hy freshY => staleX ?_
        exact (List.pairwise_append.mp onward).2.2 y hy x hx freshY
      rw [none, List.nil_append]
  · rw [rtake_of_length_le short]

theorem Onward.sublist {fresh : α → Bool} {xs ys : List α} (part : xs.Sublist ys)
    (onward : Onward fresh ys) : Onward fresh xs :=
  List.Pairwise.sublist part onward

/-- A buffer capped earlier, with a batch behind it, retains what the whole would. -/
theorem retain_rtake_append (cap : Nat) {fresh : α → Bool} {xs ys : List α}
    (onward : Onward fresh (xs ++ ys)) :
    retain cap fresh (xs.rtake cap ++ ys) = ((xs ++ ys).filter fresh).rtake cap := by
  have stored : Onward fresh xs := onward.sublist (List.sublist_append_left _ _)
  have capped : Onward fresh (xs.rtake cap ++ ys) :=
    onward.sublist ((rtake_suffix cap xs).sublist.append_right ys)
  rw [retain_of_onward cap capped, List.filter_append, ← rtake_rtake_append,
    rtake_filter_rtake cap stored, rtake_rtake_append, List.filter_append]

end LivoxMid360.Foundation.Retention
