/- digest: How much time the filter integrates over, when samples may arrive late. -/

import LivoxMid360.Imu.Attitude
import Mathlib.Algebra.Field.Rat
import Mathlib.Algebra.Order.Ring.Rat
import Mathlib.Tactic.IntervalCases
import Mathlib.Tactic.Linarith

set_option autoImplicit false
set_option relaxedAutoImplicit false

namespace LivoxMid360.Imu.IntegratedTime

open Foundation.Transition (after after_concat)
open Encoder.Vectors
open Encoder.CloudBuffer (saturatingSub toNat_saturatingSub)
open scoped Encoder.CloudBuffer
open Attitude AttitudeEstimator

section Timestamps

variable {K : Type}

def largest (readings : List (ImuReading K)) : Nat :=
  readings.foldl (fun m r => max m r.ts.toNat) 0

theorem largest_append_single (readings : List (ImuReading K)) (r : ImuReading K) :
    largest (readings ++ [r]) = max (largest readings) r.ts.toNat := by
  rw [largest, List.foldl_append]
  rfl

theorem le_largest {readings : List (ImuReading K)} {r : ImuReading K} (member : r ∈ readings) :
    r.ts.toNat ≤ largest readings := by
  induction readings using List.reverseRecOn with
  | nil => cases member
  | append_singleton readings s ih =>
    rw [largest_append_single]
    rcases List.mem_append.mp member with earlier | here
    · exact (ih earlier).trans (le_max_left _ _)
    · rw [List.mem_singleton.mp here]
      exact le_max_right _ _

end Timestamps

/-- The numerals of the bound, by name: its definition carries no proof of its own for them. -/
scoped instance atLeastTwoShortest : Nat.AtLeastTwo 10000 := ⟨by decide⟩

scoped instance atLeastTwoSecond : Nat.AtLeastTwo 1000000000 := ⟨by decide⟩

section Runs

variable {K Q : Type} [Field K] [LinearOrder K]

def dtUsed (self : AttitudeEstimator K Q) (r : ImuReading K) : K :=
  match self.lastTs with
  | none => 0
  | some prev => clampedDt prev r.ts

def next (glam : Glam K Q) (run : AttitudeEstimator K Q × K) (r : ImuReading K) :
    AttitudeEstimator K Q × K :=
  (run.1.update glam r, run.2 + dtUsed run.1 r)

def updated (glam : Glam K Q) (kp ki : K) (readings : List (ImuReading K)) :
    AttitudeEstimator K Q × K :=
  after (next glam) (withGains glam kp ki, 0) readings

def integrated (glam : Glam K Q) (kp ki : K) (readings : List (ImuReading K)) : K :=
  (updated glam kp ki readings).2

/-- At most the span from the first timestamp to the largest, and `1e-4` for each sample. -/
def Bounded (glam : Glam K Q) (kp ki : K) (readings : List (ImuReading K)) : Prop :=
  ∀ first ∈ readings.head?,
    integrated glam kp ki readings ≤
      ((largest readings : K) - first.ts.toNat) / 1000000000 + readings.length / 10000

/-- The step goes no more than 100 microseconds onward, or starts no further than that behind
the largest timestamp, or passes it by more than 99.9 milliseconds. -/
def Harmless (before : List (ImuReading K)) (r : ImuReading K) : Prop :=
  ∀ last ∈ before.getLast?,
    r.ts.toNat ≤ last.ts.toNat + 100000 ∨ largest before ≤ last.ts.toNat + 100000 ∨
      largest before + 99900000 ≤ r.ts.toNat

end Runs

section Step

variable {K Q : Type} [Field K] [LinearOrder K] [IsStrictOrderedRing K]

def clampedNs (prev ts : UInt64) : Nat := max 100000 (min (ts.toNat - prev.toNat) 100000000)

theorem clamp_ns (ns : Nat) :
    clamp (ns * (1 / 1000000000) : K) (1 / 10000) (1 / 10) =
      (max 100000 (min ns 100000000) : Nat) / 1000000000 := by
  rw [clamp]
  -- the clamp in seconds is the clamp of the nanoseconds
  by_cases low : ns < 100000
  · have cast : (ns : K) < 100000 := by exact_mod_cast low
    have clamped : max 100000 (min ns 100000000) = 100000 := by omega
    rw [if_pos (by linarith), clamped]
    norm_num
  have castLow : (100000 : K) ≤ ns := by exact_mod_cast not_lt.mp low
  rw [if_neg (by linarith)]
  by_cases high : 100000000 < ns
  · have cast : (100000000 : K) < ns := by exact_mod_cast high
    have clamped : max 100000 (min ns 100000000) = 100000000 := by omega
    rw [if_pos (by linarith), clamped]
    norm_num
  · have castHigh : (ns : K) ≤ 100000000 := by exact_mod_cast not_lt.mp high
    have clamped : max 100000 (min ns 100000000) = ns := by omega
    rw [if_neg (by linarith), clamped, mul_one_div]

theorem clampedDt_eq (prev ts : UInt64) :
    (clampedDt prev ts : K) = (clampedNs prev ts : K) / 1000000000 := by
  rw [clampedDt, seconds, toNat_saturatingSub, clampedNs]
  exact clamp_ns _

/-- A step is harmless exactly when it integrates over no more than its advance of the largest
timestamp and the slack of one sample. -/
theorem clampedNs_le_iff {prev ts : UInt64} {top : Nat} (below : prev.toNat ≤ top) :
    clampedNs prev ts ≤ (max top ts.toNat - top) + 100000 ↔
      ts.toNat ≤ prev.toNat + 100000 ∨ top ≤ prev.toNat + 100000 ∨
        top + 99900000 ≤ ts.toNat := by
  rw [clampedNs]
  omega

end Step

section Bounds

variable {K Q : Type} [Field K] [LinearOrder K]

theorem updated_append_single (glam : Glam K Q) (kp ki : K) (readings : List (ImuReading K))
    (r : ImuReading K) :
    updated glam kp ki (readings ++ [r]) = next glam (updated glam kp ki readings) r :=
  after_concat (next glam) _ readings r

theorem updated_lastTs (glam : Glam K Q) (kp ki : K) (readings : List (ImuReading K)) :
    (updated glam kp ki readings).1.lastTs = readings.getLast?.map ImuReading.ts := by
  induction readings using List.reverseRecOn with
  | nil => rfl
  | append_singleton readings r _ =>
    rw [updated_append_single, next, update_lastTs, List.getLast?_concat, Option.map_some]

theorem integrated_append_single (glam : Glam K Q) (kp ki : K) (readings : List (ImuReading K))
    (r : ImuReading K) : integrated glam kp ki (readings ++ [r]) =
      integrated glam kp ki readings +
        (readings.getLast?.elim 0 fun last => clampedDt last.ts r.ts) := by
  rw [integrated, updated_append_single, next, dtUsed, updated_lastTs]
  cases readings.getLast? with
  | none => rfl
  | some last => rfl

variable [IsStrictOrderedRing K]

theorem integrated_ns (glam : Glam K Q) (kp ki : K) {readings : List (ImuReading K)}
    (harmless : ∀ pre r post, readings = pre ++ r :: post → Harmless pre r) :
    ∃ ns : Nat, integrated glam kp ki readings = ns / 1000000000 ∧ ∀ first ∈ readings.head?,
      ns + first.ts.toNat ≤ largest readings + readings.length * 100000 := by
  induction readings using List.reverseRecOn with
  | nil => exact ⟨0, by rw [Nat.cast_zero, zero_div]; rfl, nofun⟩
  | append_singleton readings r ih =>
    rcases List.eq_nil_or_concat' readings with rfl | ⟨early, last, rfl⟩
    · refine ⟨0, ?_, ?_⟩
      · rw [integrated_append_single, Nat.cast_zero, zero_div]
        exact add_zero 0
      · intro first member
        cases member
        rw [largest_append_single, Nat.zero_add]
        exact (le_max_right _ _).trans (Nat.le_add_right _ _)
    have before : ∀ pre s post, early ++ [last] = pre ++ s :: post → Harmless pre s := by
      intro pre s post split
      exact harmless pre s (post ++ [r]) (by rw [split, List.append_assoc]; rfl)
    obtain ⟨ns, total, bound⟩ := ih before
    refine ⟨ns + clampedNs last.ts r.ts, ?_, ?_⟩
    · rw [integrated_append_single, total, List.getLast?_concat, Option.elim_some, clampedDt_eq,
        Nat.cast_add, add_div]
    · intro first member
      rw [List.head?_append_of_ne_nil _ (by simp)] at member
      have earlier := bound first member
      have below : last.ts.toNat ≤ largest (early ++ [last]) := le_largest (by simp)
      -- the advance of the largest timestamp pays for all but the slack of this sample
      have step := (clampedNs_le_iff below).mpr
        (harmless (early ++ [last]) r [] rfl last List.getLast?_concat)
      rw [largest_append_single, List.length_append, List.length_singleton]
      omega

/-- In every run of harmless steps the time integrated over stays within the bound. -/
theorem integrated_bounded (glam : Glam K Q) (kp ki : K) (readings : List (ImuReading K))
    (harmless : ∀ pre r post, readings = pre ++ r :: post → Harmless pre r) :
    ∀ pre, pre <+: readings → Bounded glam kp ki pre := by
  rintro pre ⟨post, rfl⟩ first member
  have within : ∀ pre' r post', pre = pre' ++ r :: post' → Harmless pre' r := by
    rintro pre' r post' rfl
    exact harmless pre' r (post' ++ post) (by simp)
  obtain ⟨ns, total, bound⟩ := integrated_ns glam kp ki within
  have cast : (ns : K) + first.ts.toNat ≤ largest pre + pre.length * 100000 := by
    exact_mod_cast bound first member
  rw [total]
  linarith

end Bounds

def upright : Glam ℚ ℚ where
  identity := 0
  slerp q r s := q + (r - q) * s
  conjugate q := -q
  mul q r := q + r
  normalize q := q
  fromScaledAxis v := v 2
  rotate _ v := v
  length v := |v 2|

def atRest (ts : UInt64) : ImuReading ℚ := ⟨![0, 0, 0], ![0, 0, 1], ts⟩

def jitter : List (ImuReading ℚ) :=
  [atRest 0, atRest 50000000, atRest 49950000, atRest 100000000]

theorem integrated_bounded_jitter : Bounded upright 1 (1 / 200) jitter := by
  refine integrated_bounded upright 1 (1 / 200) jitter ?_ jitter (List.prefix_refl jitter)
  intro pre r post split
  -- four splits of four readings
  have size : pre.length < 4 := by
    have lengths := congrArg List.length split
    rw [List.length_append, List.length_cons] at lengths
    have four : jitter.length = 4 := rfl
    omega
  have here : jitter[pre.length]? = some r := by
    rw [split, List.getElem?_append_right le_rfl, Nat.sub_self]
    rfl
  have early : pre = jitter.take pre.length := by
    rw [split, List.take_left]
  generalize pre.length = n at size here early
  rw [early, Harmless]
  interval_cases n <;> cases here <;> decide

/-- A sample that is fifty milliseconds late has them integrated twice. -/
theorem late_sample_integrated_twice :
    ¬ ∀ (readings : List (ImuReading ℚ)) (kp ki : ℚ), Bounded upright kp ki readings := by
  intro claim
  have bound := claim [atRest 0, atRest 50000000, atRest 0, atRest 50000000] 1 (1 / 200)
    (atRest 0) rfl
  have total : integrated upright 1 (1 / 200)
      [atRest 0, atRest 50000000, atRest 0, atRest 50000000] = 1001 / 10000 := by
    decide +kernel
  have top : largest [atRest 0, atRest 50000000, atRest 0, atRest 50000000] = 50000000 := by
    decide
  rw [total, top] at bound
  norm_num [atRest] at bound

end LivoxMid360.Imu.IntegratedTime
