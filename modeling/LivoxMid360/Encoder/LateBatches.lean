/- digest: When late timestamps leave stale points behind, or a cleared buffer remembers. -/

import LivoxMid360.Encoder.RetentionWindow

set_option autoImplicit false
set_option relaxedAutoImplicit false

namespace LivoxMid360.Encoder.LateBatches

open Foundation.Retention
open Foundation.Transition (after after_concat safe_throughout_iff)
open CloudBuffer RetentionWindow

def added (geo : Geometry) (adds : List Batch) : Cloud := run geo (adds.map .add)

def resumed (geo : Geometry) (history : List Call) (adds : List Batch) : Cloud :=
  run geo (history ++ .clear :: adds.map .add)

theorem added_append_single (geo : Geometry) (adds : List Batch) (batch : Batch) :
    added geo (adds ++ [batch]) = (added geo adds).add geo batch := by
  rw [added, List.map_append, List.map_singleton, run_add, added]

theorem resumed_append_single (geo : Geometry) (history : List Call) (adds : List Batch)
    (batch : Batch) :
    resumed geo history (adds ++ [batch]) = (resumed geo history adds).add geo batch := by
  rw [resumed, List.map_append, List.map_singleton, ← List.cons_append, ← List.append_assoc,
    run_add, resumed]

theorem timestamps_adds (adds : List Batch) :
    timestamps (adds.map .add) = adds.map Batch.ts := by
  rw [timestamps, List.filterMap_map, ← List.filterMap_eq_map]
  rfl

theorem added_latestTs (geo : Geometry) (adds : List Batch) :
    (added geo adds).latestTs = latest (adds.map Batch.ts) := by
  rw [added, run_latestTs, timestamps_adds]

theorem resumed_latestTs (geo : Geometry) (history : List Call) (adds : List Batch) :
    (resumed geo history adds).latestTs =
      max (latest (timestamps history)) (added geo adds).latestTs := by
  induction adds using List.reverseRecOn with
  | nil =>
    have zero : latest (timestamps history) ≥ 0 := UInt64.le_iff_toNat_le.mpr (Nat.zero_le _)
    rw [resumed, List.map_nil, run_clear, added, List.map_nil, run_nil]
    exact (run_latestTs geo history).trans (max_eq_left zero).symm
  | append_singleton adds batch ih =>
    rw [resumed_append_single, add_latestTs, ih, added_append_single, add_latestTs, max_assoc]

theorem after_append_single (adds : List Batch) :
    after (fun (s : List Batch) batch => s ++ [batch]) [] adds = adds := by
  induction adds using List.reverseRecOn with
  | nil => rfl
  | append_singleton adds batch ih => rw [after_concat, ih]

def NoneStale (geo : Geometry) (adds : List Batch) : Prop :=
  ∀ batch ∈ adds.getLast?, ∀ p ∈ (added geo adds).points,
    saturatingSub (latest (adds.map Batch.ts)) batch.maxAgeNs ≤ p.2

/-- Among the last `maxPoints` of the stored points and the batch, whatever stands behind a
point inside the window is inside it. -/
def FreshBehindFresh (geo : Geometry) (self : Cloud) (batch : Batch) : Prop :=
  ∀ before p behind, self.points ++ geo.stamped batch = before ++ p :: behind →
    behind.length < maxPoints → (∃ y ∈ before, self.cutoff batch ≤ y.2) →
      self.cutoff batch ≤ p.2

theorem noneStale_append_single_iff (geo : Geometry) (adds : List Batch) (batch : Batch) :
    NoneStale geo (adds ++ [batch]) ↔ FreshBehindFresh geo (added geo adds) batch := by
  have cutoff : saturatingSub (latest ((adds ++ [batch]).map Batch.ts)) batch.maxAgeNs =
      (added geo adds).cutoff batch := by
    rw [Cloud.cutoff, added_latestTs, List.map_append, List.map_singleton, latest_append_single]
  have clean := retain_fresh_iff maxPoints (notBefore ((added geo adds).cutoff batch))
    ((added geo adds).points ++ geo.stamped batch)
  simp only [notBefore_iff] at clean
  rw [FreshBehindFresh, ← clean, NoneStale, List.getLast?_concat, added_append_single, add_points,
    ← cutoff]
  constructor
  · intro fresh
    exact fresh batch rfl
  · intro fresh last isLast
    cases isLast
    exact fresh

/-- Every add of a run empties the buffer of stale points exactly when, at every add, no stale
point within the cap's reach stands behind a fresh one. -/
theorem none_stale_iff (geo : Geometry) (adds : List Batch) :
    (∀ pre, pre <+: adds → NoneStale geo pre) ↔
      ∀ pre batch post, adds = pre ++ batch :: post →
        FreshBehindFresh geo (added geo pre) batch := by
  have initially : NoneStale geo [] := by
    intro batch member
    cases member
  have runs := safe_throughout_iff
    (fun pre batch _ => noneStale_append_single_iff geo pre batch) initially adds
  simpa only [after_append_single] using runs

/-- The second packet is late: it stays, out of its window, behind the first. -/
theorem late_packet_stays :
    ¬ ∀ adds : List Batch, ∀ batch ∈ adds.getLast?, ∀ p ∈ (added atRest adds).points,
      saturatingSub (latest (adds.map Batch.ts)) batch.maxAgeNs ≤ p.2 := by
  intro claim
  have stale := claim [single 10 5, single 0 5] (single 0 5) rfl
    ((⟨0⟩, ⟨0⟩, ⟨0x80000000⟩), 0) (by decide +kernel)
  exact absurd stale (by decide)

/-- The clock that a clear leaves behind expires nothing more within the cap's reach: up to any
point that the last add's own clock retains, some point is no older than the cutoff of the
surviving one. -/
def ClockForgotten (geo : Geometry) (survivor : UInt64) (self : Cloud) (batch : Batch) : Prop :=
  ∀ before p behind, self.points ++ geo.stamped batch = before ++ p :: behind →
    behind.length < maxPoints →
    (∃ y ∈ before ++ [p], self.cutoff batch ≤ y.2) →
      ∃ y ∈ before ++ [p],
        saturatingSub (max survivor (max self.latestTs batch.ts)) batch.maxAgeNs ≤ y.2

theorem resumed_append_single_iff (geo : Geometry) (history : List Call) (adds : List Batch)
    (batch : Batch) (same : (resumed geo history adds).points = (added geo adds).points) :
    (resumed geo history (adds ++ [batch])).points = (added geo (adds ++ [batch])).points ↔
      ClockForgotten geo (latest (timestamps history)) (added geo adds) batch := by
  have survivor : (resumed geo history adds).cutoff batch =
      saturatingSub (max (latest (timestamps history)) (max (added geo adds).latestTs batch.ts))
        batch.maxAgeNs := by
    rw [Cloud.cutoff, resumed_latestTs, max_assoc]
  -- the surviving clock can only expire more
  have later : (added geo adds).cutoff batch ≤ (resumed geo history adds).cutoff batch := by
    rw [survivor, Cloud.cutoff]
    exact saturatingSub_mono (le_max_right _ _) _
  rw [resumed_append_single, added_append_single, add_points, add_points, same, retain_eq_iff,
    ClockForgotten, ← survivor]
  simp only [notBefore_iff]
  constructor
  · intro agree before p behind split room
    exact (agree before p behind split room).mpr
  · intro forgotten before p behind split room
    refine ⟨?_, forgotten before p behind split room⟩
    intro ⟨y, hy, fresh⟩
    exact ⟨y, hy, later.trans fresh⟩

/-- Adds after a clear go as on a new buffer exactly when the surviving clock expires nothing
more at any of them. -/
theorem clear_forgets_iff (geo : Geometry) (history : List Call) (adds : List Batch) :
    (∀ pre, pre <+: adds → (resumed geo history pre).points = (added geo pre).points) ↔
      ∀ pre batch post, adds = pre ++ batch :: post →
        ClockForgotten geo (latest (timestamps history)) (added geo pre) batch := by
  have initially : (resumed geo history []).points = (added geo []).points := by
    rw [resumed, List.map_nil, run_clear]
    rfl
  have runs := safe_throughout_iff
    (fun pre batch same => resumed_append_single_iff geo history pre batch same) initially adds
  simpa only [after_append_single] using runs

/-- A packet of a rebooted sensor is expired by the clock from before the clear. -/
theorem clock_survives_clear :
    ¬ ∀ (history : List Call) (adds : List Batch),
      (resumed atRest history adds).points = (added atRest adds).points := by
  intro claim
  have same := claim [.add (single 10 5)] [single 0 5]
  exact absurd same (by decide +kernel)

end LivoxMid360.Encoder.LateBatches
