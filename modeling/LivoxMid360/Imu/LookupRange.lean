/- digest: In whatever order samples are pushed, a lookup stays within what is kept. -/

import LivoxMid360.Imu.HistoryLookup
import Mathlib.Data.Set.Operations
import Mathlib.Order.Interval.Set.Defs

set_option autoImplicit false
set_option relaxedAutoImplicit false

namespace LivoxMid360.Imu.LookupRange

open Foundation.RustOutcome
open Foundation.Neighbours
open scoped Encoder.CloudBuffer
open Attitude HistoryLookup

universe u

variable {K Q : Type} [Field K] [LinearOrder K] {ε : Type u} {glam : Slerp K Q} {ts : UInt64}
  {kept : List (Sample Q)}

/-- What a lookup may give: a kept orientation, or an interpolation between two samples that
were pushed one after the other and have the timestamp between them. -/
inductive Spanned (glam : Slerp K Q) (ts : UInt64) (kept : List (Sample Q)) : Q → Prop
  | sample (s : Sample Q) (member : s ∈ kept) : Spanned glam ts kept s.2
  | between (x y : Sample Q) (neighbours : [x, y] <:+: kept) (later : x.1 ≤ ts)
      (notLater : ts ≤ y.1) (within : (fraction x.1 y.1 ts : K) ∈ Set.Icc 0 1) :
      Spanned glam ts kept (glam.slerp x.2 y.2 (fraction x.1 y.1 ts))

def Closed (glam : Slerp K Q) (S : Set Q) : Prop :=
  ∀ q ∈ S, ∀ r ∈ S, ∀ s ∈ Set.Icc (0 : K) 1, glam.slerp q r s ∈ S

theorem Spanned.mem {q : Q} (spanned : Spanned glam ts kept q) {S : Set Q}
    (closed : Closed glam S) (inside : ∀ s ∈ kept, s.2 ∈ S) : q ∈ S := by
  cases spanned with
  | sample s member => exact inside s member
  | between x y neighbours later notLater within =>
    have first : x ∈ kept := neighbours.subset List.mem_cons_self
    have second : y ∈ kept := neighbours.subset (List.mem_cons_of_mem x List.mem_cons_self)
    exact closed _ (inside x first) _ (inside y second) _ within

theorem Spanned.mono {kept' : List (Sample Q)} (part : kept' <:+: kept) {q : Q}
    (spanned : Spanned glam ts kept' q) : Spanned glam ts kept q := by
  cases spanned with
  | sample s member => exact .sample s (part.subset member)
  | between x y neighbours later notLater within =>
    exact .between x y (neighbours.trans part) later notLater within

variable [IsStrictOrderedRing K]

theorem fraction_mem_Icc {t0 t1 : UInt64} (later : t0 ≤ ts) (notLater : ts ≤ t1) :
    (fraction t0 t1 ts : K) ∈ Set.Icc 0 1 := by
  rcases later.eq_or_lt with rfl | before
  · rw [fraction, sub_self, zero_div]
    exact ⟨le_rfl, zero_le_one⟩
  · exact fraction_mem before notLater

theorem scan_spanned (profile : Profile) {last : Sample Q} {samples : List (Sample Q)}
    (ends : samples.getLast? = some last) :
    ∃ out, (OrientationHistory.scan glam profile ts last samples : Outcome ε Q) = .ok out ∧
      Spanned glam ts samples out := by
  induction samples with
  | nil => cases ends
  | cons x samples ih =>
    cases samples with
    | nil =>
      cases ends
      exact ⟨_, rfl, .sample x List.mem_cons_self⟩
    | cons y rest =>
      rw [List.getLast?_cons_cons] at ends
      obtain ⟨out, found, spanned⟩ := ih ends
      rw [OrientationHistory.scan]
      by_cases around : x.1 ≤ ts ∧ ts ≤ y.1
      · rw [if_pos around]
        have looked : (OrientationHistory.interpolate glam profile ts x y : Outcome ε Q) = _ :=
          interpolate_eq around.1 around.2
        exact ⟨_, looked, .between x y ⟨[], rest, rfl⟩ around.1 around.2
          (fraction_mem_Icc around.1 around.2)⟩
      · rw [if_neg around]
        exact ⟨out, found, spanned.mono (List.suffix_cons x _).isInfix⟩

theorem orientationAt_spanned (glam : Slerp K Q) (profile : Profile) (ts : UInt64)
    {history : OrientationHistory Q}
    (nonempty : history.samples ≠ []) :
    ∃ out, (history.orientationAt glam profile ts : Outcome ε Q) = .ok out ∧
      Spanned glam ts history.samples out := by
  have begins := List.head?_eq_some_head nonempty
  have ends := List.getLast?_eq_some_getLast nonempty
  rcases le_or_gt ts (history.samples.head nonempty).1 with notAfter | passed
  · exact ⟨_, orientationAt_oldest begins notAfter, .sample _ (List.head_mem nonempty)⟩
  rw [orientationAt_later begins ends passed]
  by_cases notBefore : (history.samples.getLast nonempty).1 ≤ ts
  · rw [if_pos notBefore]
    exact ⟨_, rfl, .sample _ (List.getLast_mem nonempty)⟩
  · rw [if_neg notBefore]
    exact scan_spanned profile ends

/-- Whatever is pushed in whatever order, and with overflow checks or without, a lookup comes
back; it gives the identity while nothing is kept, and otherwise what the last pushes span,
which no set that interpolation does not leave excludes. -/
theorem lookup_spanned (glam : Slerp K Q) (profile : Profile) (maxLen : Nat)
    (pushes : List (Sample Q)) (ts : UInt64) :
    ∃ out, ((pushed maxLen pushes).orientationAt glam profile ts : Outcome ε Q) = .ok out ∧
      (pushes.rtake maxLen = [] → out = glam.identity) ∧
      (pushes.rtake maxLen ≠ [] → Spanned glam ts (pushes.rtake maxLen) out ∧
        ∀ S, Closed glam S → (∀ s ∈ pushes.rtake maxLen, s.2 ∈ S) → out ∈ S) := by
  have kept : (pushed maxLen pushes).samples = pushes.rtake maxLen := by rw [pushed_eq]
  rw [← kept]
  by_cases empty : (pushed maxLen pushes).samples = []
  · exact ⟨glam.identity, orientationAt_empty empty, fun _ => rfl, fun some => absurd empty some⟩
  · obtain ⟨out, looked, spanned⟩ := orientationAt_spanned (ε := ε) glam profile ts empty
    exact ⟨out, looked, fun none => absurd none empty,
      fun _ => ⟨spanned, fun S closed inside => spanned.mem closed inside⟩⟩

def scrambled : List (Sample ℚ) := [(200, 10), (100, 30), (300, 20)]

theorem lookup_spanned_scrambled :
    ∃ out, ((pushed 3 scrambled).orientationAt turns .dev 250 : Outcome Empty ℚ) = .ok out ∧
      (scrambled.rtake 3 = [] → out = turns.identity) ∧
      (scrambled.rtake 3 ≠ [] → Spanned turns 250 (scrambled.rtake 3) out ∧
        ∀ S, Closed turns S → (∀ s ∈ scrambled.rtake 3, s.2 ∈ S) → out ∈ S) :=
  lookup_spanned turns .dev 3 scrambled 250

end LivoxMid360.Imu.LookupRange
