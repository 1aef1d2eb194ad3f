/- digest: With timestamps in order, the buffer is the retention window of the history. -/

import LivoxMid360.Encoder.CloudBuffer

set_option autoImplicit false
set_option relaxedAutoImplicit false

namespace LivoxMid360.Encoder.RetentionWindow

open Foundation.Retention
open CloudBuffer
open Data.Points

def timestamps (calls : List Call) : List UInt64 :=
  calls.filterMap fun
    | .add batch => some batch.ts
    | .clear => none

def latest (ts : List UInt64) : UInt64 := ts.foldl max 0

def sinceClear (calls : List Call) : List Batch :=
  calls.foldl (fun adds c => match c with
    | .add batch => adds ++ [batch]
    | .clear => []) []

def arrivals (geo : Geometry) (adds : List Batch) : List Stamped := adds.flatMap geo.stamped

def largestCutoff (adds : List Batch) : UInt64 :=
  latest (adds.map fun batch => saturatingSub batch.ts batch.maxAgeNs)

/-- The last `maxPoints` of the arrivals that no cutoff has passed. -/
def window (geo : Geometry) (adds : List Batch) : List Stamped :=
  ((arrivals geo adds).filter fun p => largestCutoff adds ≤ p.2).rtake maxPoints

theorem sinceClear_add (calls : List Call) (batch : Batch) :
    sinceClear (calls ++ [.add batch]) = sinceClear calls ++ [batch] := by
  simp only [sinceClear, List.foldl_append, List.foldl_cons, List.foldl_nil]

theorem sinceClear_clear (calls : List Call) : sinceClear (calls ++ [.clear]) = [] := by
  simp only [sinceClear, List.foldl_append, List.foldl_cons, List.foldl_nil]

theorem timestamps_add (calls : List Call) (batch : Batch) :
    timestamps (calls ++ [.add batch]) = timestamps calls ++ [batch.ts] := by
  simp [timestamps]

theorem timestamps_clear (calls : List Call) :
    timestamps (calls ++ [.clear]) = timestamps calls := by
  simp [timestamps]

theorem sinceClear_suffix (calls : List Call) :
    (sinceClear calls).map Batch.ts <:+ timestamps calls := by
  induction calls using List.reverseRecOn with
  | nil => exact List.suffix_refl _
  | append_singleton calls c ih =>
    cases c with
    | add batch =>
      obtain ⟨before, parts⟩ := ih
      rw [sinceClear_add, timestamps_add, List.map_append, ← parts, List.append_assoc]
      exact List.suffix_append _ _
    | clear =>
      rw [sinceClear_clear]
      exact List.nil_suffix

theorem arrivals_append_single (geo : Geometry) (adds : List Batch) (batch : Batch) :
    arrivals geo (adds ++ [batch]) = arrivals geo adds ++ geo.stamped batch := by
  simp [arrivals]

theorem ts_of_mem_stamped {geo : Geometry} {batch : Batch} {p : Stamped}
    (member : p ∈ geo.stamped batch) : p.2 = batch.ts := by
  obtain ⟨_, -, rfl⟩ := List.mem_map.mp member
  rfl

theorem latest_append_single (ts : List UInt64) (t : UInt64) :
    latest (ts ++ [t]) = max (latest ts) t := by
  simp only [latest, List.foldl_append, List.foldl_cons, List.foldl_nil]

theorem latest_le {ts : List UInt64} {t : UInt64} (earlier : ∀ t' ∈ ts, t' ≤ t) :
    latest ts ≤ t := by
  induction ts using List.reverseRecOn with
  | nil => exact UInt64.le_iff_toNat_le.mpr (Nat.zero_le _)
  | append_singleton ts t' ih =>
    rw [latest_append_single]
    refine max_le (ih fun s hs => earlier s (List.mem_append_left _ hs)) ?_
    exact earlier t' (List.mem_append_right _ List.mem_cons_self)

theorem largestCutoff_append_single (adds : List Batch) (batch : Batch) :
    largestCutoff (adds ++ [batch]) =
      max (largestCutoff adds) (saturatingSub batch.ts batch.maxAgeNs) := by
  rw [largestCutoff, List.map_append, List.map_singleton, latest_append_single, largestCutoff]

theorem largestCutoff_le {adds : List Batch} {t : UInt64} (earlier : ∀ a ∈ adds, a.ts ≤ t) :
    largestCutoff adds ≤ t := by
  apply latest_le
  intro t' ht'
  obtain ⟨a, ha, rfl⟩ := List.mem_map.mp ht'
  exact (saturatingSub_le _ _).trans (earlier a ha)

/-- The clock of the buffer is the largest timestamp ever added: a clear leaves it. -/
theorem run_latestTs (geo : Geometry) (calls : List Call) :
    (run geo calls).latestTs = latest (timestamps calls) := by
  induction calls using List.reverseRecOn with
  | nil => rfl
  | append_singleton calls c ih =>
    cases c with
    | add batch =>
      rw [run_add, add_latestTs, ih, timestamps_add, latest_append_single]
    | clear =>
      rw [run_clear, timestamps_clear, ← ih]
      rfl

def InOrder (adds : List Batch) : Prop := (adds.map Batch.ts).Pairwise (· ≤ ·)

theorem arrivals_pairwise (geo : Geometry) {adds : List Batch} (inOrder : InOrder adds) :
    (arrivals geo adds).Pairwise fun p p' => p.2 ≤ p'.2 := by
  rw [arrivals, List.pairwise_flatMap]
  constructor
  · intro batch _
    apply List.pairwise_of_forall_mem_list
    intro p hp p' hp'
    rw [ts_of_mem_stamped hp, ts_of_mem_stamped hp']
  · apply (List.pairwise_map.mp inOrder).imp
    intro a b le p hp p' hp'
    rw [ts_of_mem_stamped hp, ts_of_mem_stamped hp']
    exact le

theorem onward_of_pairwise {points : List Stamped} (cutoff : UInt64)
    (inOrder : points.Pairwise fun p p' => p.2 ≤ p'.2) : Onward (notBefore cutoff) points :=
  inOrder.imp fun le fresh => notBefore_iff.mpr ((notBefore_iff.mp fresh).trans le)

/-- Filtering the stored points again, with the batch behind them, is one filter by the larger
cutoff: the batch is no older than either. -/
theorem filter_filter_append {points batch : List Stamped} {old new : UInt64}
    (recent : ∀ p ∈ batch, old ≤ p.2) :
    (points.filter (notBefore old) ++ batch).filter (notBefore new) =
      (points ++ batch).filter (notBefore (max old new)) := by
  rw [List.filter_append, List.filter_append, List.filter_filter]
  congr 1
  · refine List.filter_congr fun p _ => ?_
    rw [Bool.eq_iff_iff, Bool.and_eq_true, notBefore_iff, notBefore_iff, notBefore_iff,
      max_le_iff, and_comm]
  · refine List.filter_congr fun p hp => ?_
    rw [Bool.eq_iff_iff, notBefore_iff, notBefore_iff, max_le_iff]
    exact (and_iff_right (recent p hp)).symm

theorem window_eq (geo : Geometry) (adds : List Batch) :
    window geo adds =
      ((arrivals geo adds).filter (notBefore (largestCutoff adds))).rtake maxPoints := rfl

theorem window_nil (geo : Geometry) : window geo [] = [] := List.drop_nil

theorem add_window (geo : Geometry) {self : Cloud} {adds : List Batch} {batch : Batch}
    (stored : self.points = window geo adds) (inOrder : InOrder (adds ++ [batch]))
    (clock : self.latestTs ≤ batch.ts) :
    (self.add geo batch).points = window geo (adds ++ [batch]) := by
  have cutoff : self.cutoff batch = saturatingSub batch.ts batch.maxAgeNs := by
    rw [Cloud.cutoff, max_eq_right clock]
  have earlier : ∀ a ∈ adds, a.ts ≤ batch.ts := by
    intro a ha
    have split := List.pairwise_append.mp (List.pairwise_map.mp inOrder)
    exact split.2.2 a ha batch List.mem_cons_self
  have recent : ∀ p ∈ geo.stamped batch, largestCutoff adds ≤ p.2 := by
    intro p hp
    rw [ts_of_mem_stamped hp]
    exact largestCutoff_le earlier
  have sorted := arrivals_pairwise geo inOrder
  rw [arrivals_append_single] at sorted
  have part : ((arrivals geo adds).filter (notBefore (largestCutoff adds)) ++
      geo.stamped batch).Sublist (arrivals geo adds ++ geo.stamped batch) :=
    List.filter_sublist.append_right _
  -- in order of time, everything behind a fresh point is fresh
  have onward := (onward_of_pairwise (saturatingSub batch.ts batch.maxAgeNs) sorted).sublist part
  rw [add_points, cutoff, stored, window_eq, retain_rtake_append maxPoints onward,
    filter_filter_append recent, window_eq, arrivals_append_single, largestCutoff_append_single]

theorem points_eq_window (geo : Geometry) {calls : List Call}
    (inOrder : (timestamps calls).Pairwise (· ≤ ·)) :
    (run geo calls).points = window geo (sinceClear calls) := by
  induction calls using List.reverseRecOn with
  | nil => exact (window_nil geo).symm
  | append_singleton calls c ih =>
    cases c with
    | add batch =>
      have ordered : InOrder (sinceClear (calls ++ [.add batch])) :=
        inOrder.sublist (sinceClear_suffix _).sublist
      rw [sinceClear_add] at ordered
      rw [timestamps_add] at inOrder
      obtain ⟨before, -, last⟩ := List.pairwise_append.mp inOrder
      rw [run_add, sinceClear_add]
      have clock : (run geo calls).latestTs ≤ batch.ts := by
        rw [run_latestTs]
        exact latest_le fun t ht => last t ht _ List.mem_cons_self
      exact add_window geo (ih before) ordered clock
    | clear =>
      rw [run_clear, sinceClear_clear, window_nil]
      rfl

/-- After each call of a sequence whose add timestamps never step back, the buffer is the
retention window of everything added since the last clear, and no longer than the cap. -/
theorem retention_window (geo : Geometry) (calls : List Call)
    (inOrder : (timestamps calls).Pairwise (· ≤ ·)) :
    ∀ pre, pre <+: calls →
      (run geo pre).points = window geo (sinceClear pre) ∧ (run geo pre).len ≤ maxPoints := by
  intro pre isPrefix
  have ordered : (timestamps pre).Pairwise (· ≤ ·) :=
    inOrder.sublist (isPrefix.sublist.filterMap _)
  have points := points_eq_window geo ordered
  refine ⟨points, ?_⟩
  rw [Cloud.len, points, window, length_rtake]
  exact Nat.min_le_left _ _

/-- A resting sensor that sees its own origin: the arithmetic is exact there. -/
def atRest : Geometry := ⟨fun _ => (⟨0⟩, ⟨0⟩, ⟨0⟩), fun _ v => v⟩

def single (ts maxAgeNs : UInt64) : Batch :=
  ⟨[.cartesian32 ⟨0, 0, 0, 0, ⟨0⟩⟩], ts, maxAgeNs, ⟨⟨0⟩, ⟨0⟩, ⟨0⟩, ⟨0x3F800000⟩⟩⟩

def acrossClear : List Call :=
  [.add (single 10 100), .clear, .add (single 20 100), .add (single 30 5)]

theorem retention_window_across_clear :
    (run atRest acrossClear).points = window atRest [single 20 100, single 30 5] ∧
      (run atRest acrossClear).len ≤ maxPoints :=
  retention_window atRest acrossClear (by decide) acrossClear (List.prefix_refl _)

example : window atRest [single 20 100, single 30 5] = [((⟨0⟩, ⟨0⟩, ⟨0x80000000⟩), 30)] := by
  decide +kernel

end LivoxMid360.Encoder.RetentionWindow
