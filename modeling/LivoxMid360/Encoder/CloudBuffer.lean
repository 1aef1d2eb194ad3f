/- digest: The rolling point buffer: batches in, a retention window and a cap. -/

import LivoxMid360.Data.Points
import LivoxMid360.Foundation.Retention
import LivoxMid360.Foundation.Transition
import Mathlib.Order.Defs.LinearOrder

set_option autoImplicit false
set_option relaxedAutoImplicit false

namespace LivoxMid360.Encoder.CloudBuffer

open Foundation.Retention
open Foundation.Transition (after after_concat)
open Data.Points

scoped instance uint64LinearOrder : LinearOrder UInt64 where
  le_refl := UInt64.le_refl
  le_trans _ _ _ := UInt64.le_trans
  le_antisymm _ _ := UInt64.le_antisymm
  le_total := UInt64.le_total
  lt_iff_le_not_ge a b := by
    rw [UInt64.not_le]
    exact ⟨fun h => ⟨UInt64.le_of_lt h, h⟩, fun h => h.2⟩
  toDecidableLE := inferInstance
  toDecidableEq := inferInstance
  toDecidableLT := inferInstance

def saturatingSub (a b : UInt64) : UInt64 := if b ≤ a then a - b else 0

@[simp] theorem toNat_saturatingSub (a b : UInt64) :
    (saturatingSub a b).toNat = a.toNat - b.toNat := by
  rw [saturatingSub]
  split
  · next below => exact UInt64.toNat_sub_of_le a b below
  · next above =>
    have reversed : a.toNat ≤ b.toNat := UInt64.le_of_lt (UInt64.not_le.mp above)
    exact (Nat.sub_eq_zero_of_le reversed).symm

theorem saturatingSub_le (a b : UInt64) : saturatingSub a b ≤ a := by
  rw [UInt64.le_iff_toNat_le, toNat_saturatingSub]
  exact Nat.sub_le _ _

theorem saturatingSub_mono {a a' : UInt64} (grows : a ≤ a') (b : UInt64) :
    saturatingSub a b ≤ saturatingSub a' b := by
  rw [UInt64.le_iff_toNat_le] at grows ⊢
  rw [toNat_saturatingSub, toNat_saturatingSub]
  exact Nat.sub_le_sub_right grows _

structure Vec3 where
  x : F32
  y : F32
  z : F32
  deriving DecidableEq

structure Quat where
  x : F32
  y : F32
  z : F32
  w : F32
  deriving DecidableEq

def neg (a : F32) : F32 := ⟨a.bits ^^^ 0x80000000⟩

/-- The `f32` arithmetic that `add` calls: `Point::coords_m`, and `Quat * Vec3`, which rotates
from the body to the world. -/
structure Geometry where
  coordsM : Point → F32 × F32 × F32
  rotate : Quat → Vec3 → Vec3

abbrev Position := F32 × F32 × F32

/-- A stored point: its position `(x, z, -y)` and the timestamp of its packet. -/
abbrev Stamped := Position × UInt64

def Geometry.place (geo : Geometry) (q : Quat) (p : Point) : Position :=
  let (x, y, z) := geo.coordsM p
  let pw := geo.rotate q ⟨x, y, z⟩
  (pw.x, pw.z, neg pw.y)

/-- Hard cap on buffered points. -/
@[irreducible] def maxPoints : Nat := 600000

structure Cloud where
  points : List Stamped
  latestTs : UInt64
  deriving DecidableEq

namespace Cloud

def new : Cloud := ⟨[], 0⟩

/-- The scan of `expire`: how many leading points are older than the cutoff. -/
def scan (cutoff : UInt64) : List Stamped → Nat
  | [] => 0
  | p :: rest => if p.2 < cutoff then scan cutoff rest + 1 else 0

def expire (self : Cloud) (maxAgeNs : UInt64) : Cloud :=
  let cutoff := saturatingSub self.latestTs maxAgeNs
  let keep := scan cutoff self.points
  -- nothing is drained when the first point is fresh
  if 0 < keep then { self with points := self.points.drop keep } else self

-- only the points go: the newest timestamp stays
def clear (self : Cloud) : Cloud := { self with points := [] }

def len (self : Cloud) : Nat := self.points.length

end Cloud

structure Batch where
  pts : List Point
  ts : UInt64
  maxAgeNs : UInt64
  q : Quat
  deriving DecidableEq

def Geometry.stamped (geo : Geometry) (batch : Batch) : List Stamped :=
  batch.pts.map fun p => (geo.place batch.q p, batch.ts)

/-- The first half of `add`: advance the clock and push the batch. -/
def Cloud.push (geo : Geometry) (self : Cloud) (batch : Batch) : Cloud where
  points := self.points ++ geo.stamped batch
  -- a late batch is pushed all the same, behind newer points
  latestTs := if self.latestTs < batch.ts then batch.ts else self.latestTs

/-- The safety cap at the end of `add`. -/
def Cloud.cap (self : Cloud) : Cloud :=
  if maxPoints < self.points.length then
    { self with points := self.points.drop (self.points.length - maxPoints) }
  else self

def Cloud.add (geo : Geometry) (self : Cloud) (batch : Batch) : Cloud :=
  ((self.push geo batch).expire batch.maxAgeNs).cap

inductive Call
  | add (batch : Batch)
  | clear
  deriving DecidableEq

def Cloud.call (geo : Geometry) (self : Cloud) : Call → Cloud
  | .add batch => self.add geo batch
  | .clear => self.clear

def run (geo : Geometry) (calls : List Call) : Cloud := after (Cloud.call geo) Cloud.new calls

def notBefore (cutoff : UInt64) (p : Stamped) : Bool := decide (cutoff ≤ p.2)

@[simp] theorem notBefore_iff {cutoff : UInt64} {p : Stamped} :
    notBefore cutoff p = true ↔ cutoff ≤ p.2 := decide_eq_true_iff

theorem scan_eq_staleRun (cutoff : UInt64) (points : List Stamped) :
    Cloud.scan cutoff points = staleRun (notBefore cutoff) points := by
  induction points with
  | nil => rfl
  | cons p rest ih =>
    rw [Cloud.scan, staleRun, ih]
    by_cases fresh : cutoff ≤ p.2
    · rw [if_neg (not_lt.mpr fresh), if_pos (notBefore_iff.mpr fresh)]
    · rw [if_pos (not_le.mp fresh), if_neg (mt notBefore_iff.mp fresh)]

theorem expire_points (self : Cloud) (maxAgeNs : UInt64) :
    (self.expire maxAgeNs).points = self.points.drop
      (staleRun (notBefore (saturatingSub self.latestTs maxAgeNs)) self.points) := by
  rw [Cloud.expire, ← scan_eq_staleRun]
  by_cases some : 0 < Cloud.scan (saturatingSub self.latestTs maxAgeNs) self.points
  · rw [if_pos some]
  · rw [if_neg some, Nat.eq_zero_of_not_pos some, List.drop_zero]

@[simp] theorem expire_latestTs (self : Cloud) (maxAgeNs : UInt64) :
    (self.expire maxAgeNs).latestTs = self.latestTs := by
  rw [Cloud.expire]
  split <;> rfl

theorem cap_points (self : Cloud) : self.cap.points = self.points.rtake maxPoints := by
  by_cases long : maxPoints < self.points.length
  · rw [Cloud.cap, if_pos long, List.rtake]
  · rw [Cloud.cap, if_neg long, rtake_of_length_le (Nat.le_of_not_lt long)]

@[simp] theorem cap_latestTs (self : Cloud) : self.cap.latestTs = self.latestTs := by
  rw [Cloud.cap]
  split <;> rfl

theorem push_latestTs (geo : Geometry) (self : Cloud) (batch : Batch) :
    (self.push geo batch).latestTs = max self.latestTs batch.ts := by
  rw [Cloud.push]
  rcases lt_or_ge self.latestTs batch.ts with later | notLater
  · rw [if_pos later, max_eq_right later.le]
  · rw [if_neg (not_lt.mpr notLater), max_eq_left notLater]

/-- The cutoff that one `add` expires by. -/
def Cloud.cutoff (self : Cloud) (batch : Batch) : UInt64 :=
  saturatingSub (max self.latestTs batch.ts) batch.maxAgeNs

@[simp] theorem add_latestTs (geo : Geometry) (self : Cloud) (batch : Batch) :
    (self.add geo batch).latestTs = max self.latestTs batch.ts := by
  rw [Cloud.add, cap_latestTs, expire_latestTs, push_latestTs]

/-- What one `add` leaves: the stored points and then the batch, less the leading points
before the cutoff, cut down to the last `maxPoints`. -/
theorem add_points (geo : Geometry) (self : Cloud) (batch : Batch) :
    (self.add geo batch).points =
      retain maxPoints (notBefore (self.cutoff batch)) (self.points ++ geo.stamped batch) := by
  rw [Cloud.add, cap_points, expire_points, push_latestTs]
  rfl

@[simp] theorem run_nil (geo : Geometry) : run geo [] = Cloud.new := rfl

theorem run_append_single (geo : Geometry) (calls : List Call) (c : Call) :
    run geo (calls ++ [c]) = (run geo calls).call geo c :=
  after_concat (Cloud.call geo) Cloud.new calls c

theorem run_add (geo : Geometry) (calls : List Call) (batch : Batch) :
    run geo (calls ++ [.add batch]) = (run geo calls).add geo batch :=
  run_append_single geo calls (.add batch)

theorem run_clear (geo : Geometry) (calls : List Call) :
    run geo (calls ++ [.clear]) = (run geo calls).clear :=
  run_append_single geo calls .clear

end LivoxMid360.Encoder.CloudBuffer
