/- digest: On samples in the order of time the lookup interpolates what the history keeps. -/

import LivoxMid360.Imu.Attitude
import Mathlib.Algebra.Field.Rat
import Mathlib.Algebra.Order.Ring.Rat
import Mathlib.Tactic.NormNum

set_option autoImplicit false
set_option relaxedAutoImplicit false

namespace LivoxMid360.Imu.HistoryLookup

open Foundation.RustOutcome
open Foundation.Retention Foundation.Neighbours
open scoped Encoder.CloudBuffer
open Attitude

universe u

variable {K Q : Type} [Field K] [LinearOrder K] {ε : Type u}

/-- What a lookup over the kept samples should give. -/
structure Reference (glam : Slerp K Q) (kept : List (Sample Q)) (ts : UInt64) (out : Q) : Prop where
  identity : kept = [] → out = glam.identity
  oldest : ∀ first, kept.head? = some first → ts ≤ first.1 → out = first.2
  newest : ∀ last, kept.getLast? = some last → last.1 ≤ ts → out = last.2
  between : ∀ first last, kept.head? = some first → kept.getLast? = some last →
    first.1 < ts → ts < last.1 →
    ∃ x y, Brackets Prod.fst ts kept x y ∧
      (∀ x' y', Brackets Prod.fst ts kept x' y' → x' = x ∧ y' = y) ∧
      out = glam.slerp x.2 y.2 (fraction x.1 y.1 ts) ∧
      0 ≤ (fraction x.1 y.1 ts : K) ∧ (fraction x.1 y.1 ts : K) ≤ 1

variable [IsStrictOrderedRing K] {glam : Slerp K Q} {profile : Profile} {ts : UInt64}
  {x y first last : Sample Q} {history : OrientationHistory Q}

theorem cast_lt {a b : UInt64} (h : a < b) : (a.toNat : K) < b.toNat :=
  Nat.cast_lt.mpr (UInt64.lt_iff_toNat_lt.mp h)

theorem fraction_mem {t0 t1 : UInt64} (before : t0 < ts) (notBefore : ts ≤ t1) :
    0 ≤ (fraction t0 t1 ts : K) ∧ (fraction t0 t1 ts : K) ≤ 1 := by
  have come : (t0.toNat : K) < ts.toNat := cast_lt before
  have left : (ts.toNat : K) ≤ t1.toNat := Nat.cast_le.mpr (UInt64.le_iff_toNat_le.mp notBefore)
  have span : (0 : K) < t1.toNat - t0.toNat := sub_pos.mpr (come.trans_le left)
  constructor
  · exact div_nonneg (sub_nonneg.mpr come.le) span.le
  · rw [fraction, div_le_one span]
    exact sub_le_sub_right left _

theorem fraction_end {t0 t1 : UInt64} (before : t0 < t1) : (fraction t0 t1 t1 : K) = 1 :=
  div_self (sub_pos.mpr (cast_lt before)).ne'

omit [IsStrictOrderedRing K] in
theorem reference_oldest (increasing : Increasing Prod.fst history.samples)
    (begins : history.samples.head? = some first) (notAfter : ts ≤ first.1) :
    Reference glam history.samples ts first.2 where
  identity empty := by
    rw [empty] at begins
    cases begins
  oldest other begins' _ := by
    cases begins.symm.trans begins'
    rfl
  newest last ends notBefore := by
    have member := List.mem_of_getLast? ends
    have same : first.1 = last.1 :=
      le_antisymm (increasing.head_le begins member) (notBefore.trans notAfter)
    rw [increasing.eq_of_key_eq (List.mem_of_head? begins) member same]
  between other _ begins' _ passed _ := by
    cases begins.symm.trans begins'
    exact absurd passed (not_lt.mpr notAfter)

omit [IsStrictOrderedRing K] in
theorem reference_newest (begins : history.samples.head? = some first)
    (ends : history.samples.getLast? = some last) (passed : first.1 < ts)
    (notBefore : last.1 ≤ ts) : Reference glam history.samples ts last.2 where
  identity empty := by
    rw [empty] at ends
    cases ends
  oldest other begins' notAfter := by
    cases begins.symm.trans begins'
    exact absurd passed (not_lt.mpr notAfter)
  newest other ends' _ := by
    cases ends.symm.trans ends'
    rfl
  between _ other _ ends' _ inside := by
    cases ends.symm.trans ends'
    exact absurd inside (not_lt.mpr notBefore)

theorem reference_between (increasing : Increasing Prod.fst history.samples)
    (begins : history.samples.head? = some first) (ends : history.samples.getLast? = some last)
    (passed : first.1 < ts) (inside : ts < last.1)
    (brackets : Brackets Prod.fst ts history.samples x y) :
    Reference glam history.samples ts (glam.slerp x.2 y.2 (fraction x.1 y.1 ts)) where
  identity empty := by
    rw [empty] at ends
    cases ends
  oldest other begins' notAfter := by
    cases begins.symm.trans begins'
    exact absurd passed (not_lt.mpr notAfter)
  newest other ends' notBefore := by
    cases ends.symm.trans ends'
    exact absurd inside (not_lt.mpr notBefore)
  between _ _ _ _ _ _ :=
    ⟨x, y, brackets, fun _ _ others => others.unique increasing brackets, rfl,
      fraction_mem brackets.before brackets.notBefore⟩

/-- Between the ends the lookup interpolates between the neighbours. -/
theorem orientationAt_bracketed (increasing : Increasing Prod.fst history.samples)
    (begins : history.samples.head? = some first) (ends : history.samples.getLast? = some last)
    (passed : first.1 < ts) (inside : ts < last.1)
    (brackets : Brackets Prod.fst ts history.samples x y) :
    (history.orientationAt glam profile ts : Outcome ε Q) =
      .ok (glam.slerp x.2 y.2 (fraction x.1 y.1 ts)) := by
  rw [orientationAt_later begins ends passed, if_neg (not_le.mpr inside), scan_eq,
    enclosing_of_brackets increasing begins passed brackets]
  exact interpolate_eq brackets.before.le brackets.notBefore

theorem orientationAt_reference (glam : Slerp K Q) (profile : Profile) (ts : UInt64)
    (increasing : Increasing Prod.fst history.samples) :
    ∃ out, (history.orientationAt glam profile ts : Outcome ε Q) = .ok out ∧
      Reference glam history.samples ts out := by
  by_cases empty : history.samples = []
  · refine ⟨glam.identity, orientationAt_empty empty, ?_⟩
    rw [empty]
    exact ⟨fun _ => rfl, nofun, nofun, nofun⟩
  have begins := List.head?_eq_some_head empty
  have ends := List.getLast?_eq_some_getLast empty
  rcases le_or_gt ts (history.samples.head empty).1 with notAfter | passed
  · exact ⟨_, orientationAt_oldest begins notAfter, reference_oldest increasing begins notAfter⟩
  rcases le_or_gt (history.samples.getLast empty).1 ts with notBefore | inside
  · have newest : (history.orientationAt glam profile ts : Outcome ε Q) =
        .ok (history.samples.getLast empty).2 := by
      rw [orientationAt_later begins ends passed, if_pos notBefore]
    exact ⟨_, newest, reference_newest begins ends passed notBefore⟩
  · obtain ⟨x, y, brackets⟩ := exists_brackets begins ends passed inside.le
    exact ⟨_, orientationAt_bracketed increasing begins ends passed inside brackets,
      reference_between increasing begins ends passed inside brackets⟩

theorem orientationAt_kept (endpoint : ∀ q r, glam.slerp q r 1 = r)
    (increasing : Increasing Prod.fst history.samples) {s : Sample Q}
    (member : s ∈ history.samples) :
    (history.orientationAt glam profile s.1 : Outcome ε Q) = .ok s.2 := by
  have nonempty := List.ne_nil_of_mem member
  have begins := List.head?_eq_some_head nonempty
  have ends := List.getLast?_eq_some_getLast nonempty
  rcases le_or_gt s.1 (history.samples.head nonempty).1 with notAfter | passed
  · have same : (history.samples.head nonempty).1 = s.1 :=
      le_antisymm (increasing.head_le begins member) notAfter
    rw [orientationAt_oldest begins notAfter,
      increasing.eq_of_key_eq (List.head_mem nonempty) member same]
  rcases le_or_gt (history.samples.getLast nonempty).1 s.1 with notBefore | inside
  · have same : (history.samples.getLast nonempty).1 = s.1 :=
      le_antisymm notBefore (increasing.le_last ends member)
    rw [orientationAt_later begins ends passed, if_pos notBefore,
      increasing.eq_of_key_eq (List.getLast_mem nonempty) member same]
  · obtain ⟨x, brackets⟩ := increasing.brackets_mem begins member passed
    rw [orientationAt_bracketed increasing begins ends passed inside brackets,
      fraction_end brackets.before, endpoint]

/-- After pushes in the order of time the lookup is the reference over the last pushes that
the history has room for, and finds each of them at its own time. -/
theorem lookup_reference (profile : Profile) (endpoint : ∀ q r, glam.slerp q r 1 = r)
    (maxLen : Nat) (pushes : List (Sample Q))
    (increasing : pushes.Pairwise fun s s' => s.1 < s'.1) (ts : UInt64) :
    (∃ out,
      ((pushed maxLen pushes).orientationAt glam profile ts : Outcome ε Q) = .ok out ∧
      Reference glam (pushes.rtake (min maxLen pushes.length)) ts out) ∧
    ∀ s ∈ pushes.rtake (min maxLen pushes.length),
      ((pushed maxLen pushes).orientationAt glam profile s.1 : Outcome ε Q) = .ok s.2 := by
  have kept : pushes.rtake (min maxLen pushes.length) = (pushed maxLen pushes).samples := by
    rw [pushed_eq, List.rtake, List.rtake]
    congr 1
    omega
  have later : Increasing Prod.fst (pushed maxLen pushes).samples := by
    rw [pushed_eq]
    exact List.Pairwise.sublist (rtake_suffix maxLen pushes).sublist increasing
  rw [kept]
  exact ⟨orientationAt_reference glam profile ts later,
    fun s member => orientationAt_kept endpoint later member⟩

def turns : Slerp ℚ ℚ := ⟨0, fun q r s => q + (r - q) * s⟩

theorem lookup_reference_quarter_turn :
    ∃ out, ((pushed 16 [(100, 0), (1000000100, 90)]).orientationAt turns .dev 500000100 :
        Outcome Empty ℚ) = .ok out ∧
      Reference turns ([(100, 0), (1000000100, 90)].rtake (min 16 2)) 500000100 out :=
  (lookup_reference .dev (fun q r => by norm_num [turns]) 16 [(100, 0), (1000000100, 90)]
    (by decide) 500000100).1

end LivoxMid360.Imu.HistoryLookup
