/- digest: The lookup sees the order in which the samples arrive, unless they all agree. -/

import LivoxMid360.Imu.HistoryLookup

set_option autoImplicit false
set_option relaxedAutoImplicit false

namespace LivoxMid360.Imu.ArrivalOrder

open Foundation.RustOutcome
open Foundation.Retention Foundation.Neighbours
open scoped Encoder.CloudBuffer
open Attitude HistoryLookup

variable {K Q : Type} [Field K] [LinearOrder K] {glam : Slerp K Q} {profile : Profile}
  {maxLen : Nat} {samples : List (Sample Q)} {ts : UInt64}

/-- Whatever the order in which the samples are pushed, every lookup gives one orientation. -/
def OrderFree (glam : Slerp K Q) (profile : Profile) (maxLen : Nat)
    (samples : List (Sample Q)) : Prop :=
  ∀ arrivals arrivals', arrivals.Perm samples → arrivals'.Perm samples → ∀ ts,
    ((pushed maxLen arrivals).orientationAt glam profile ts : Outcome Empty Q) =
      (pushed maxLen arrivals').orientationAt glam profile ts

theorem pushed_of_fits {arrivals : List (Sample Q)} (same : arrivals.Perm samples)
    (fits : samples.length ≤ maxLen) : (pushed maxLen arrivals).samples = arrivals := by
  rw [pushed_eq]
  exact rtake_of_length_le (same.length_eq.trans_le fits)

theorem exists_arrivals_oldest (glam : Slerp K Q) (profile : Profile) {s : Sample Q}
    (member : s ∈ samples) (fits : samples.length ≤ maxLen) (notAfter : ts ≤ s.1) :
    ∃ arrivals, arrivals.Perm samples ∧
      ((pushed maxLen arrivals).orientationAt glam profile ts : Outcome Empty Q) = .ok s.2 := by
  obtain ⟨before, behind, rfl⟩ := List.append_of_mem member
  have same : (s :: (before ++ behind)).Perm (before ++ s :: behind) := List.perm_middle.symm
  refine ⟨_, same, orientationAt_oldest ?_ notAfter⟩
  rw [pushed_of_fits same fits]
  rfl

theorem OrderFree.agree_of_le (free : OrderFree glam profile maxLen samples)
    (fits : samples.length ≤ maxLen) {s s' : Sample Q} (hs : s ∈ samples) (hs' : s' ∈ samples)
    (order : s.1 ≤ s'.1) : s.2 = s'.2 := by
  obtain ⟨arrivals, same, first⟩ := exists_arrivals_oldest glam profile hs fits le_rfl
  obtain ⟨arrivals', same', first'⟩ := exists_arrivals_oldest glam profile hs' fits order
  have equal := free arrivals arrivals' same same' s.1
  rw [first, first'] at equal
  exact Outcome.ok.inj equal

variable [IsStrictOrderedRing K] {q : Q}

theorem scan_constant (still : ∀ q s, glam.slerp q q s = q) {last : Sample Q}
    {rest : List (Sample Q)} (all : ∀ s ∈ rest, s.2 = q) (behind : last.2 = q) :
    (OrientationHistory.scan glam profile ts last rest : Outcome Empty Q) = .ok q := by
  induction rest with
  | nil => rw [← behind]; rfl
  | cons x rest ih =>
    obtain ⟨hx, others⟩ := List.forall_mem_cons.mp all
    cases rest with
    | nil => rw [← behind]; rfl
    | cons y rest =>
      have hy : y.2 = q := others y List.mem_cons_self
      rw [OrientationHistory.scan]
      by_cases around : x.1 ≤ ts ∧ ts ≤ y.1
      · rw [if_pos around, interpolate_eq around.1 around.2, hx, hy, still]
      · rw [if_neg around]
        exact ih others

theorem orientationAt_constant (still : ∀ q s, glam.slerp q q s = q)
    {history : OrientationHistory Q} (nonempty : history.samples ≠ [])
    (all : ∀ s ∈ history.samples, s.2 = q) :
    (history.orientationAt glam profile ts : Outcome Empty Q) = .ok q := by
  have begins := List.head?_eq_some_head nonempty
  have ends := List.getLast?_eq_some_getLast nonempty
  have behind := all _ (List.getLast_mem nonempty)
  rcases le_or_gt ts (history.samples.head nonempty).1 with notAfter | passed
  · rw [orientationAt_oldest begins notAfter, all _ (List.head_mem nonempty)]
  · rw [orientationAt_later begins ends passed, behind, scan_constant still all behind, ite_self]

/-- The order of arrival does not matter exactly for samples that all have one orientation. -/
theorem order_free_iff (profile : Profile) (still : ∀ q s, glam.slerp q q s = q)
    (fits : samples.length ≤ maxLen) :
    OrderFree glam profile maxLen samples ↔ ∀ s ∈ samples, ∀ s' ∈ samples, s.2 = s'.2 := by
  constructor
  · intro free s hs s' hs'
    -- the earlier of two samples may arrive last, and is then not found
    rcases le_total s.1 s'.1 with order | order
    · exact free.agree_of_le fits hs hs' order
    · exact (free.agree_of_le fits hs' hs order).symm
  · intro agree arrivals arrivals' same same' ts
    by_cases empty : samples = []
    · rw [empty] at same same'
      rw [same.eq_nil, same'.eq_nil]
    obtain ⟨s, member⟩ := List.exists_mem_of_ne_nil samples empty
    have looked {arrived : List (Sample Q)} (same : arrived.Perm samples) :
        ((pushed maxLen arrived).orientationAt glam profile ts : Outcome Empty Q) = .ok s.2 := by
      have stored := pushed_of_fits same fits
      apply orientationAt_constant still
      · rw [stored]
        exact List.ne_nil_of_mem (same.mem_iff.mpr member)
      · rw [stored]
        exact fun s' hs' => agree s' (same.mem_iff.mp hs') s member
    rw [looked same, looked same']

def quarterTurn : List (Sample ℚ) := [(1, 0), (2, 90)]

theorem order_free_iff_quarter_turn :
    OrderFree turns .release 2 quarterTurn ↔
      ∀ s ∈ quarterTurn, ∀ s' ∈ quarterTurn, s.2 = s'.2 :=
  order_free_iff .release (fun q s => by simp [turns]) (by decide)

/-- The later sample arrives first, and the earlier one is not found at its own time. -/
theorem late_sample_not_found :
    ¬ ∀ profile maxLen (samples : List (Sample ℚ)), (samples.map Prod.fst).Nodup →
      samples.length ≤ maxLen → OrderFree turns profile maxLen samples := by
  intro claim
  have free := claim .release 2 quarterTurn (by decide) (by decide)
  have agree : (0 : ℚ) = 90 :=
    free.agree_of_le (by decide) List.mem_cons_self (List.mem_cons_of_mem _ List.mem_cons_self)
      (by decide)
  norm_num at agree

end LivoxMid360.Imu.ArrivalOrder
