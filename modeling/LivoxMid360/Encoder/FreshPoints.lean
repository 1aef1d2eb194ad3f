/- digest: In any order of timestamps, a point in age and in reach is never dropped. -/

import LivoxMid360.Encoder.RetentionWindow

set_option autoImplicit false
set_option relaxedAutoImplicit false

namespace LivoxMid360.Encoder.FreshPoints

open Foundation.Retention
open CloudBuffer RetentionWindow

/-- The buffer is the newest arrivals since the last clear, as many as the cap at most. -/
def Newest (geo : Geometry) (calls : List Call) : Prop :=
  (run geo calls).points <:+ arrivals geo (sinceClear calls) ∧
    (run geo calls).len ≤ maxPoints

theorem add_suffix (geo : Geometry) (self : Cloud) (batch : Batch) :
    (self.add geo batch).points <:+ self.points ++ geo.stamped batch := by
  rw [add_points]
  exact retain_suffix _ _ _

theorem add_len_le (geo : Geometry) (self : Cloud) (batch : Batch) :
    (self.add geo batch).len ≤ maxPoints := by
  rw [Cloud.len, add_points, length_retain]
  exact Nat.min_le_left _ _

theorem suffix_append_right {points all : List Stamped} (kept : points <:+ all)
    (batch : List Stamped) : points ++ batch <:+ all ++ batch := by
  obtain ⟨dropped, rfl⟩ := kept
  exact ⟨dropped, (List.append_assoc _ _ _).symm⟩

theorem newest (geo : Geometry) (calls : List Call) : Newest geo calls := by
  induction calls using List.reverseRecOn with
  | nil => exact ⟨List.nil_suffix, Nat.zero_le _⟩
  | append_singleton calls c ih =>
    cases c with
    | add batch =>
      rw [Newest, run_add, sinceClear_add, arrivals_append_single]
      have kept := suffix_append_right ih.1 (geo.stamped batch)
      exact ⟨(add_suffix geo _ batch).trans kept, add_len_le geo _ batch⟩
    | clear =>
      rw [Newest, run_clear]
      exact ⟨List.nil_suffix, Nat.zero_le _⟩

theorem add_keeps {geo : Geometry} {self : Cloud} {batch : Batch} {p : Stamped}
    {behind : List Stamped} (stored : p :: behind <:+ self.points ++ geo.stamped batch)
    (room : behind.length < maxPoints) (inAge : self.cutoff batch ≤ p.2) :
    p :: behind <:+ (self.add geo batch).points := by
  obtain ⟨before, split⟩ := stored
  rw [add_points, ← split]
  apply suffix_retain_iff.mpr
  refine ⟨room, p, ?_, notBefore_iff.mpr inAge⟩
  exact List.mem_append_right before List.mem_cons_self

def cutoffAfter (seen : List UInt64) (last : Batch) : UInt64 :=
  saturatingSub (latest (seen ++ [last.ts])) last.maxAgeNs

theorem cutoff_run (geo : Geometry) (calls : List Call) (batch : Batch) :
    (run geo calls).cutoff batch = cutoffAfter (timestamps calls) batch := by
  rw [Cloud.cutoff, run_latestTs, cutoffAfter, latest_append_single]

/-- At every one of some adds in a row, a timestamp is no older than the cutoff. -/
def InAge (ts : UInt64) (seen : List UInt64) (adds : List Batch) : Prop :=
  ∀ earlier last rest, adds = earlier ++ last :: rest →
    cutoffAfter (seen ++ earlier.map Batch.ts) last ≤ ts

theorem InAge.first {ts : UInt64} {seen : List UInt64} {batch : Batch} {adds : List Batch}
    (inAge : InAge ts seen (batch :: adds)) : cutoffAfter seen batch ≤ ts := by
  have first := inAge [] batch adds rfl
  rwa [List.map_nil, List.append_nil] at first

theorem InAge.dropLast {ts : UInt64} {seen : List UInt64} {adds : List Batch} {batch : Batch}
    (inAge : InAge ts seen (adds ++ [batch])) : InAge ts seen adds := by
  intro earlier last rest split
  refine inAge earlier last (rest ++ [batch]) ?_
  rw [split, List.append_assoc, List.cons_append]

theorem InAge.last {ts : UInt64} {seen : List UInt64} {adds : List Batch} {batch : Batch}
    (inAge : InAge ts seen (adds ++ [batch])) :
    cutoffAfter (seen ++ adds.map Batch.ts) batch ≤ ts :=
  inAge adds batch [] rfl

theorem timestamps_append_adds (calls : List Call) (adds : List Batch) :
    timestamps (calls ++ adds.map .add) = timestamps calls ++ adds.map Batch.ts := by
  induction adds using List.reverseRecOn with
  | nil => rw [List.map_nil, List.map_nil, List.append_nil, List.append_nil]
  | append_singleton adds batch ih =>
    rw [List.map_append, List.map_singleton, ← List.append_assoc, timestamps_add, ih,
      List.map_append, List.map_singleton, List.append_assoc]

theorem adds_keep {geo : Geometry} {calls : List Call} {p : Stamped} {behind : List Stamped}
    (stored : p :: behind <:+ (run geo calls).points) {adds : List Batch}
    (room : behind.length + (arrivals geo adds).length < maxPoints)
    (inAge : InAge p.2 (timestamps calls) adds) :
    p :: (behind ++ arrivals geo adds) <:+ (run geo (calls ++ adds.map .add)).points := by
  induction adds using List.reverseRecOn with
  | nil =>
    rw [arrivals, List.flatMap_nil, List.append_nil, List.map_nil, List.append_nil]
    exact stored
  | append_singleton adds batch ih =>
    rw [arrivals_append_single, List.length_append] at room
    -- from the end: an add takes nothing from a suffix that is in age and within the cap
    have kept := ih (by omega) inAge.dropLast
    rw [List.map_append, List.map_singleton, ← List.append_assoc, run_add,
      arrivals_append_single]
    apply add_keeps
    · rw [← List.append_assoc, ← List.cons_append]
      exact suffix_append_right kept _
    · rw [List.length_append, List.length_append]
      omega
    · rw [cutoff_run, timestamps_append_adds]
      exact inAge.last

theorem add_stays (geo : Geometry) (calls : List Call) (batch : Batch) (later : List Batch)
    (before : List Stamped) (p : Stamped) (behind : List Stamped)
    (brought : geo.stamped batch = before ++ p :: behind)
    (room : behind.length + (arrivals geo later).length < maxPoints)
    (inAge : InAge batch.ts (timestamps calls) (batch :: later)) :
    p :: (behind ++ arrivals geo later) <:+
      (run geo (calls ++ (batch :: later).map .add)).points := by
  have member : p ∈ geo.stamped batch := by
    rw [brought]
    exact List.mem_append_right before List.mem_cons_self
  have ts : p.2 = batch.ts := ts_of_mem_stamped member
  have stored : p :: behind <:+ (run geo (calls ++ [.add batch])).points := by
    rw [run_add]
    apply add_keeps
    · rw [brought]
      exact (List.suffix_append before _).trans (List.suffix_append _ _)
    · omega
    · rw [cutoff_run, ts]
      exact inAge.first
  have onward : InAge p.2 (timestamps (calls ++ [.add batch])) later := by
    intro earlier last rest split
    rw [timestamps_add, List.append_assoc, ts, List.singleton_append, ← List.map_cons]
    exact inAge (batch :: earlier) last rest (by rw [split, List.cons_append])
  have kept := adds_keep stored room onward
  rwa [List.append_assoc] at kept

/-- Whatever the order of the timestamps: after any calls the buffer is the newest arrivals
since the last clear, at most the cap of them; and a point of a batch added then, with everything
that arrives behind it, is there as long as the cap has room and no add's cutoff has passed it. -/
theorem fresh_stays (geo : Geometry) (calls : List Call) :
    Newest geo calls ∧
      ∀ batch later before p behind, geo.stamped batch = before ++ p :: behind →
        behind.length + (arrivals geo later).length < maxPoints →
        InAge batch.ts (timestamps calls) (batch :: later) →
        p :: (behind ++ arrivals geo later) <:+
          (run geo (calls ++ (batch :: later).map .add)).points := by
  refine ⟨newest geo calls, ?_⟩
  intro batch later before p behind brought room inAge
  exact add_stays geo calls batch later before p behind brought room inAge

/-- A point that comes late but in age survives a batch from before it. -/
theorem fresh_stays_late :
    Newest atRest [.add (single 10 5)] ∧
      (((⟨0⟩, ⟨0⟩, ⟨0x80000000⟩), 8) : Stamped) ::
        ([] ++ arrivals atRest [single 0 5]) <:+
          (run atRest ([.add (single 10 5)] ++ [single 8 5, single 0 5].map .add)).points := by
  obtain ⟨newest, stays⟩ := fresh_stays atRest [.add (single 10 5)]
  refine ⟨newest, stays (single 8 5) [single 0 5] [] _ [] ?_ ?_ ?_⟩
  · decide
  · decide +kernel
  · intro earlier last rest split
    rcases earlier with _ | ⟨first, _ | ⟨second, earlier⟩⟩
    · cases split
      decide
    · cases split
      decide
    · cases earlier <;> cases split

end LivoxMid360.Encoder.FreshPoints
