/- digest: Without noise the filter follows a sensor that starts level; a scene at rest stays. -/

import LivoxMid360.Imu.IntegratedTime
import LivoxMid360.Imu.Stabilization
import Mathlib.Analysis.Real.Pi.Bounds
import Mathlib.Data.List.Chain

set_option autoImplicit false
set_option relaxedAutoImplicit false

namespace LivoxMid360.Imu.StaticScene

open Foundation.RustOutcome
open Foundation.Neighbours
open Foundation.Transition (after after_concat)
open Encoder Encoder.Vectors
open scoped Encoder.CloudBuffer
open Attitude AttitudeEstimator HistoryLookup IntegratedTime Stabilization

universe u

section Motions

variable {K Q : Type} [Field K] [LinearOrder K]

def sampled (glam : Glam K Q) (self : Stabilizer K Q) (r : ImuReading K) : Stabilizer K Q :=
  (self.handle glam (.update r)).handle glam (.push r.ts)

def run (glam : Glam K Q) (kp ki : K) (maxLen : Nat) (readings : List (ImuReading K)) :
    Stabilizer K Q :=
  after (sampled glam) (.new glam kp ki maxLen) readings

/-- The turn from the orientation at one time to the orientation at another, at the rate of a
reading. -/
def turned (glam : Glam K Q) (r : ImuReading K) (t0 t : UInt64) : Q :=
  glam.fromScaledAxis (scale r.gyro (seconds (t - t0)))

/-- From one reading to the next, 0.1 to 100 milliseconds later, the sensor turns by less than
three radians at the rate that the gyroscope sees, while the accelerometer sees gravity as it
was at the first reading. -/
structure Noiseless (glam : Glam K Q) (motion : UInt64 → Q) (x y : ImuReading K) : Prop where
  spaced : x.ts.toNat + 100000 ≤ y.ts.toNat
  close : y.ts.toNat ≤ x.ts.toNat + 100000000
  short : dot (scale y.gyro (seconds (y.ts - x.ts))) (scale y.gyro (seconds (y.ts - x.ts))) < 9
  turns : ∀ ts, x.ts ≤ ts → ts ≤ y.ts → motion ts = glam.mul (motion x.ts) (turned glam y x.ts ts)
  gravity : ∃ g, y.acc = scale (glam.rotate (glam.conjugate (motion x.ts)) ![0, 0, 1]) g

/-- `Quat::slerp` from an orientation to itself turned by less than three radians. -/
def Interpolates (glam : Glam K Q) : Prop :=
  ∀ q v s, dot v v < 9 → 0 ≤ s → s ≤ 1 →
    glam.slerp q (glam.mul q (glam.fromScaledAxis v)) s =
      glam.mul q (glam.fromScaledAxis (scale v s))

end Motions

section Update

variable {K Q : Type} [Field K] [LinearOrder K] {glam : Glam K Q} {motion : UInt64 → Q}
  {heading : Q} {x y : ImuReading K}

omit [LinearOrder K] in
theorem cross_parallel (v : Vec3 K) (g m : K) :
    cross (fun k => scale v g k / m) v = fun _ => 0 := by
  ext k
  rw [cross]
  fin_cases k
  · change scale v g 1 / m * v 2 - scale v g 2 / m * v 1 = 0
    rw [scale_apply, scale_apply]
    ring
  · change scale v g 2 / m * v 0 - scale v g 0 / m * v 2 = 0
    rw [scale_apply, scale_apply]
    ring
  · change scale v g 0 / m * v 1 - scale v g 1 / m * v 0 = 0
    rw [scale_apply, scale_apply]
    ring

omit [LinearOrder K] in
theorem add_scale_zero (v : Vec3 K) (s : K) : add v (scale (fun _ => 0) s) = v := by
  ext k
  rw [Vectors.add_apply, scale_apply, zero_mul, add_zero]

theorem correct_aligned (glam : Glam K Q) (self : AttitudeEstimator K Q) (g : K) (gyro : Vec3 K)
    (dt : K) (unwound : self.integral = fun _ => 0) :
    self.correct glam gyro (scale (glam.rotate (glam.conjugate self.q) ![0, 0, 1]) g) dt =
      (gyro, fun _ => 0) := by
  rw [AttitudeEstimator.correct]
  dsimp only
  -- the measured and the predicted vertical are parallel, trusted or not
  rw [cross_parallel, unwound, add_scale_zero, add_scale_zero, add_scale_zero]
  split <;> rfl

/-- The estimate is the motion up to the heading, and no error has been integrated. -/
structure Tracks (glam : Glam K Q) (heading : Q) (motion : UInt64 → Q)
    (estimator : AttitudeEstimator K Q) (ts : UInt64) : Prop where
  clock : estimator.lastTs = some ts
  unwound : estimator.integral = fun _ => 0
  orientation : glam.mul heading estimator.q = motion ts

variable [IsStrictOrderedRing K]

theorem clampedDt_of_spaced (spaced : x.ts.toNat + 100000 ≤ y.ts.toNat)
    (close : y.ts.toNat ≤ x.ts.toNat + 100000000) :
    (clampedDt x.ts y.ts : K) = seconds (y.ts - x.ts) := by
  have order : x.ts ≤ y.ts := UInt64.le_iff_toNat_le.mpr (by omega)
  have within : clampedNs x.ts y.ts = (y.ts - x.ts).toNat := by
    rw [clampedNs, UInt64.toNat_sub_of_le _ _ order]
    omega
  rw [clampedDt_eq, within, seconds, mul_one_div]

theorem Tracks.update (lawful : Lawful glam) (level : Level glam heading)
    {self : AttitudeEstimator K Q} (tracks : Tracks glam heading motion self x.ts)
    (noiseless : Noiseless glam motion x y) :
    (self.update glam y).q = glam.mul self.q (turned glam y x.ts y.ts) ∧
      Tracks glam heading motion (self.update glam y) y.ts := by
  obtain ⟨g, gravity⟩ := noiseless.gravity
  rw [← tracks.orientation, lawful.predictedUp_mul level] at gravity
  have order : x.ts ≤ y.ts := UInt64.le_iff_toNat_le.mpr (by have := noiseless.spaced; omega)
  have dt : (clampedDt x.ts y.ts : K) = seconds (y.ts - x.ts) :=
    clampedDt_of_spaced noiseless.spaced noiseless.close
  -- without an error to correct, the rate of the gyroscope is what is integrated
  have uncorrected := correct_aligned glam { self with lastTs := some y.ts } g
    y.gyro (seconds (y.ts - x.ts)) tracks.unwound
  have step : self.update glam y =
      { self with q := glam.mul self.q (turned glam y x.ts y.ts), integral := fun _ => 0,
                  lastTs := some y.ts } := by
    rw [AttitudeEstimator.update, tracks.clock]
    dsimp only
    rw [AttitudeEstimator.integrate, dt, gravity, uncorrected]
    dsimp only
    rw [lawful.normalize]
    rfl
  rw [step]
  refine ⟨rfl, rfl, rfl, ?_⟩
  rw [← lawful.mul_assoc, tracks.orientation, ← noiseless.turns y.ts order le_rfl]

end Update

section Runs

variable {K Q : Type} [Field K] [LinearOrder K] [IsStrictOrderedRing K] {glam : Glam K Q}
  {motion : UInt64 → Q} {heading : Q}

/-- Two samples that were stored one after the other, and the motion between them. -/
structure Adjacent (glam : Glam K Q) (motion : UInt64 → Q) (x y : Sample Q) : Prop where
  order : x.1 < y.1
  turn : ∃ v, dot v v < 9 ∧ y.2 = glam.mul x.2 (glam.fromScaledAxis v) ∧
    ∀ ts, x.1 ≤ ts → ts ≤ y.1 → motion ts =
      glam.mul (motion x.1) (glam.fromScaledAxis (scale v (fraction x.1 y.1 ts)))

theorem seconds_mul_fraction {t0 t1 ts : UInt64} (apart : t0 < t1) (later : t0 ≤ ts) :
    (seconds (t1 - t0) * fraction t0 t1 ts : K) = seconds (ts - t0) := by
  have span : (0 : K) < t1.toNat - t0.toNat := sub_pos.mpr (cast_lt apart)
  rw [seconds, seconds, fraction, cast_sub_of_le apart.le, cast_sub_of_le later]
  field_simp

theorem Noiseless.adjacent {x y : ImuReading K} (noiseless : Noiseless glam motion x y) {q q' : Q}
    (step : q' = glam.mul q (turned glam y x.ts y.ts)) :
    Adjacent glam motion (x.ts, q) (y.ts, q') := by
  have apart : x.ts < y.ts :=
    UInt64.lt_iff_toNat_lt.mpr (by have := noiseless.spaced; omega)
  refine ⟨apart, scale y.gyro (seconds (y.ts - x.ts)), noiseless.short, step, ?_⟩
  intro ts later notAfter
  have rate : scale (scale y.gyro (seconds (y.ts - x.ts))) (fraction x.ts y.ts ts) =
      scale y.gyro (seconds (ts - x.ts)) := by
    ext k
    rw [scale_apply, scale_apply, scale_apply, mul_assoc, seconds_mul_fraction apart later]
  rw [rate]
  exact noiseless.turns ts later notAfter

omit [IsStrictOrderedRing K] in
theorem run_append_single (glam : Glam K Q) (kp ki : K) (maxLen : Nat)
    (readings : List (ImuReading K)) (r : ImuReading K) :
    run glam kp ki maxLen (readings ++ [r]) = sampled glam (run glam kp ki maxLen readings) r :=
  after_concat (sampled glam) _ readings r

/-- What a run without noise has pushed. -/
structure Follows (glam : Glam K Q) (heading : Q) (motion : UInt64 → Q) (maxLen : Nat)
    (readings : List (ImuReading K)) (state : Stabilizer K Q) (pushes : List (Sample Q)) :
    Prop where
  stored : state.history = pushed maxLen pushes
  times : pushes.map Prod.fst = readings.map ImuReading.ts
  chain : pushes.IsChain (Adjacent glam motion)
  oriented : ∀ s ∈ pushes, glam.mul heading s.2 = motion s.1
  tracks : ∀ last ∈ readings.getLast?, Tracks glam heading motion state.estimator last.ts
  newest : ∀ last ∈ readings.getLast?, pushes.getLast? = some (last.ts, state.estimator.q)

omit [IsStrictOrderedRing K] in
theorem Follows.sampled {maxLen : Nat} {readings : List (ImuReading K)} {state : Stabilizer K Q}
    {pushes : List (Sample Q)}
    (follows : Follows glam heading motion maxLen readings state pushes) {r : ImuReading K}
    (tracks : Tracks glam heading motion (state.estimator.update glam r) r.ts)
    (adjacent : ∀ s ∈ pushes.getLast?,
      Adjacent glam motion s (r.ts, (state.estimator.update glam r).q)) :
    Follows glam heading motion maxLen (readings ++ [r]) (sampled glam state r)
      (pushes ++ [(r.ts, (state.estimator.update glam r).q)]) where
  stored := by
    rw [pushed, after_concat]
    exact congrArg (OrientationHistory.push · _) follows.stored
  times := by
    rw [List.map_append, List.map_append, follows.times]
    rfl
  chain := by
    refine follows.chain.append (List.isChain_singleton _) ?_
    intro s member y here
    cases here
    exact adjacent s member
  oriented s member := by
    rcases List.mem_append.mp member with earlier | here
    · exact follows.oriented s earlier
    · rw [List.mem_singleton.mp here]
      exact tracks.orientation
  tracks last ends := by
    rw [List.getLast?_concat] at ends
    cases ends
    exact tracks
  newest last ends := by
    rw [List.getLast?_concat] at ends
    cases ends
    exact List.getLast?_concat

omit [Field K] [LinearOrder K] [IsStrictOrderedRing K] in
theorem starts_early {seen readings : List (ImuReading K)} (early : seen <+: readings)
    (starts : ∀ first ∈ readings.head?, motion first.ts = heading) :
    ∀ first ∈ seen.head?, motion first.ts = heading := by
  obtain ⟨rest, rfl⟩ := early
  intro first member
  apply starts first
  rw [List.head?_append, member]
  rfl

theorem exists_follows (lawful : Lawful glam) (level : Level glam heading) (kp ki : K)
    (maxLen : Nat) {readings : List (ImuReading K)}
    (noiseless : readings.IsChain (Noiseless glam motion))
    (starts : ∀ first ∈ readings.head?, motion first.ts = heading) :
    ∃ pushes, Follows glam heading motion maxLen readings (run glam kp ki maxLen readings)
      pushes := by
  induction readings using List.reverseRecOn with
  | nil => exact ⟨[], rfl, rfl, List.isChain_nil, nofun, nofun, nofun⟩
  | append_singleton readings r ih =>
    obtain ⟨before, -, link⟩ := List.isChain_append.mp noiseless
    rw [run_append_single]
    -- the first reading sets the clock, any other turns the estimate
    rcases List.eq_nil_or_concat' readings with rfl | ⟨early, last, rfl⟩
    · have begun : Tracks glam heading motion
          ((run glam kp ki maxLen []).estimator.update glam r) r.ts :=
        ⟨rfl, rfl, (lawful.mul_identity heading).trans (starts r rfl).symm⟩
      have nothing : Follows glam heading motion maxLen [] (run glam kp ki maxLen []) [] :=
        ⟨rfl, rfl, List.isChain_nil, nofun, nofun, nofun⟩
      exact ⟨_, nothing.sampled begun nofun⟩
    · obtain ⟨pushes, follows⟩ := ih before (starts_early (List.prefix_append _ _) starts)
      have ends : (early ++ [last]).getLast? = some last := List.getLast?_concat
      have step := link last ends r rfl
      obtain ⟨moved, tracks⟩ := (follows.tracks last ends).update lawful level step
      refine ⟨_, follows.sampled tracks ?_⟩
      intro s member
      rw [follows.newest last ends] at member
      cases member
      exact step.adjacent moved

omit [IsStrictOrderedRing K] in
theorem increasing_of_chain {samples : List (Sample Q)}
    (chain : samples.IsChain (Adjacent glam motion)) : Increasing Prod.fst samples := by
  have ordered : samples.IsChain fun x y => x.1 < y.1 := chain.imp fun _ _ link => link.order
  have : Trans (fun x y : Sample Q => x.1 < y.1) (fun x y : Sample Q => x.1 < y.1)
      fun x y : Sample Q => x.1 < y.1 := ⟨fun first second => first.trans second⟩
  exact ordered.pairwise

theorem Adjacent.slerp_motion (lawful : Lawful glam) (interpolates : Interpolates glam)
    {x y : Sample Q} (link : Adjacent glam motion x y)
    (oriented : glam.mul heading x.2 = motion x.1) {ts : UInt64} (before : x.1 < ts)
    (notBefore : ts ≤ y.1) :
    glam.mul heading (glam.slerp x.2 y.2 (fraction x.1 y.1 ts)) = motion ts := by
  obtain ⟨v, short, moved, turns⟩ := link.turn
  obtain ⟨nonneg, notOver⟩ := fraction_mem (K := K) before notBefore
  rw [moved, interpolates x.2 v _ short nonneg notOver, ← lawful.mul_assoc, oriented,
    ← turns ts before.le notBefore]

theorem orientationAt_motion {ε : Type u} (lawful : Lawful glam)
    (interpolates : Interpolates glam) (profile : Profile) {history : OrientationHistory Q}
    (chain : history.samples.IsChain (Adjacent glam motion))
    (oriented : ∀ s ∈ history.samples, glam.mul heading s.2 = motion s.1) {first last : Sample Q}
    (begins : history.samples.head? = some first) (ends : history.samples.getLast? = some last)
    {ts : UInt64} (notBefore : first.1 ≤ ts) (notAfter : ts ≤ last.1) :
    ∃ q, (history.orientationAt glam.toSlerp profile ts : Outcome ε Q) = .ok q ∧
      glam.mul heading q = motion ts := by
  have increasing := increasing_of_chain chain
  rcases notBefore.eq_or_lt with rfl | passed
  · exact ⟨first.2, orientationAt_oldest begins le_rfl,
      oriented first (List.mem_of_head? begins)⟩
  rcases notAfter.eq_or_lt with rfl | inside
  · refine ⟨last.2, ?_, oriented last (List.mem_of_getLast? ends)⟩
    rw [orientationAt_later begins ends passed, if_pos le_rfl]
  · obtain ⟨x, y, brackets⟩ := exists_brackets begins ends passed inside.le
    have looked : (history.orientationAt glam.toSlerp profile ts : Outcome ε Q) = _ :=
      orientationAt_bracketed increasing begins ends passed inside brackets
    refine ⟨_, looked, ?_⟩
    -- what encloses the timestamp are two readings in a row
    have link : Adjacent glam motion x y := by
      obtain ⟨before, after, split⟩ := brackets.neighbours
      rw [split] at chain
      exact (List.isChain_append_cons_cons.mp chain).2.1
    exact link.slerp_motion lawful interpolates (oriented x brackets.mem) brackets.before
      brackets.notBefore

omit [Field K] [LinearOrder K] [IsStrictOrderedRing K] in
theorem rtake_times {pushes : List (Sample Q)} {readings : List (ImuReading K)}
    (times : pushes.map Prod.fst = readings.map ImuReading.ts) (n : Nat) :
    (pushes.rtake n).map Prod.fst = (readings.rtake n).map ImuReading.ts := by
  have size : pushes.length = readings.length := by
    rw [← List.length_map Prod.fst, times, List.length_map]
  rw [List.rtake, List.rtake, List.map_drop, List.map_drop, times, size]

theorem estimator_tracks (lawful : Lawful glam) (level : Level glam heading) (kp ki : K)
    (maxLen : Nat) {readings : List (ImuReading K)}
    (noiseless : readings.IsChain (Noiseless glam motion))
    (starts : ∀ first ∈ readings.head?, motion first.ts = heading)
    {seen : List (ImuReading K)} {last : ImuReading K} (early : seen ++ [last] <+: readings) :
    glam.mul heading (run glam kp ki maxLen (seen ++ [last])).estimator.q = motion last.ts := by
  have begins := starts_early early starts
  obtain ⟨rest, rfl⟩ := early
  obtain ⟨_, follows⟩ := exists_follows lawful level kp ki maxLen noiseless.left_of_append begins
  exact (follows.tracks last List.getLast?_concat).orientation

theorem add_static {ε : Type u} (lawful : Lawful glam) (interpolates : Interpolates glam)
    (level : Level glam heading) (profile : Profile) (kp ki : K) (maxLen : Nat)
    {readings : List (ImuReading K)} (noiseless : readings.IsChain (Noiseless glam motion))
    (starts : ∀ first ∈ readings.head?, motion first.ts = heading)
    {oldest newest : ImuReading K} (begins : (readings.rtake maxLen).head? = some oldest)
    (ends : readings.getLast? = some newest) {ts : UInt64} (notBefore : oldest.ts ≤ ts)
    (notAfter : ts ≤ newest.ts) (scene : List (Vec3 K)) :
    ((run glam kp ki maxLen readings).add glam profile
        (scene.map (glam.rotate (glam.conjugate (motion ts)))) ts : Outcome ε (List (Vec3 K))) =
      .ok (scene.map fun w => viewer (glam.rotate (glam.conjugate heading) w)) := by
  obtain ⟨pushes, follows⟩ := exists_follows lawful level kp ki maxLen noiseless starts
  have kept : (run glam kp ki maxLen readings).history.samples = pushes.rtake maxLen := by
    rw [follows.stored, pushed_eq]
  have suffix : pushes.rtake maxLen <:+ pushes := Foundation.Retention.rtake_suffix maxLen pushes
  -- the ends of what is kept, from the ends of the readings
  obtain ⟨first, begins', oldestTime⟩ :
      ∃ first, (pushes.rtake maxLen).head? = some first ∧ first.1 = oldest.ts := by
    have times := congrArg List.head? (rtake_times follows.times maxLen)
    rw [List.head?_map, List.head?_map, begins] at times
    exact Option.map_eq_some_iff.mp times
  have ends' : (pushes.rtake maxLen).getLast? =
      some (newest.ts, (run glam kp ki maxLen readings).estimator.q) := by
    obtain ⟨early, split⟩ := suffix
    have last := follows.newest newest ends
    have nonempty : pushes.rtake maxLen ≠ [] := by
      intro empty
      rw [empty] at begins'
      cases begins'
    rwa [← split, List.getLast?_append_of_ne_nil _ nonempty] at last
  rw [← kept] at begins' ends' suffix
  obtain ⟨q, looked, oriented⟩ := orientationAt_motion (ε := ε) lawful interpolates profile
    (follows.chain.suffix suffix) (fun s member => follows.oriented s (suffix.mem member))
    begins' ends' (oldestTime.trans_le notBefore) notAfter
  rw [Stabilizer.add, looked, Outcome.ok_bind, List.map_map]
  refine congrArg Outcome.ok (List.map_congr_left ?_)
  intro w _
  change place glam q (glam.rotate (glam.conjugate (motion ts)) w) = _
  rw [place, ← oriented, lawful.conjugate_mul, lawful.conjugate_rotate]

variable (motion) in
/-- Without noise, and level at startup, the estimate is after every reading the attitude of the
sensor up to the heading at startup, whatever the gains of the filter; and a scene at rest stays
where it is, for every packet from the times that the history keeps puts the points of the scene
where they are in the world, seen along that heading. -/
theorem scene_static {ε : Type u} (lawful : Lawful glam) (interpolates : Interpolates glam)
    (level : Level glam heading) (profile : Profile) (kp ki : K) (maxLen : Nat)
    {readings : List (ImuReading K)} (noiseless : readings.IsChain (Noiseless glam motion))
    (starts : ∀ first ∈ readings.head?, motion first.ts = heading) :
    (∀ seen last, seen ++ [last] <+: readings →
      glam.mul heading (run glam kp ki maxLen (seen ++ [last])).estimator.q = motion last.ts) ∧
    ∀ oldest newest ts (scene : List (Vec3 K)), (readings.rtake maxLen).head? = some oldest →
      readings.getLast? = some newest → oldest.ts ≤ ts → ts ≤ newest.ts →
      ((run glam kp ki maxLen readings).add glam profile
          (scene.map (glam.rotate (glam.conjugate (motion ts)))) ts :
        Outcome ε (List (Vec3 K))) =
        .ok (scene.map fun w => viewer (glam.rotate (glam.conjugate heading) w)) := by
  constructor
  · intro seen last early
    exact estimator_tracks lawful level kp ki maxLen noiseless starts early
  · intro oldest newest ts scene begins ends notBefore notAfter
    exact add_static lawful interpolates level profile kp ki maxLen noiseless starts begins ends
      notBefore notAfter scene

end Runs

noncomputable section Sway

open Foundation.UnitQuaternions

theorem exact_interpolates : Interpolates exact := by
  intro q v s short _ _
  have small : len v < Real.pi := by
    have three : len v < 3 := by
      rw [len, Real.sqrt_lt' (by norm_num)]
      exact short.trans_eq (by norm_num)
    exact three.trans Real.pi_gt_three
  rw [scale_eq_smul]
  exact slerp_scaledAxis q small s

def sway (ts : UInt64) : Rotation := quarter * scaledAxis (scale ![1, 0, 0] (seconds ts))

def swayReading (t0 ts : UInt64) : ImuReading ℝ :=
  ⟨![1, 0, 0], scale (turn (sway t0)⁻¹ ![0, 0, 1]) 1, ts⟩

theorem noiseless_sway (t t0 t1 : UInt64) (apart : t1.toNat = t0.toNat + 50000000) :
    Noiseless exact sway (swayReading t t0) (swayReading t0 t1) where
  spaced := by
    change t0.toNat + 100000 ≤ t1.toNat
    omega
  close := by
    change t1.toNat ≤ t0.toNat + 100000000
    omega
  short := by
    have order : t0 ≤ t1 := UInt64.le_iff_toNat_le.mpr (by omega)
    have step : (seconds (t1 - t0) : ℝ) = 1 / 20 := by
      rw [seconds, UInt64.toNat_sub_of_le _ _ order, apart, Nat.add_sub_cancel_left]
      norm_num
    change 1 * seconds (t1 - t0) * (1 * seconds (t1 - t0)) + 0 * seconds (t1 - t0) *
      (0 * seconds (t1 - t0)) + 0 * seconds (t1 - t0) * (0 * seconds (t1 - t0)) < (9 : ℝ)
    rw [step]
    norm_num
  turns ts later _ := by
    have total : (seconds ts : ℝ) = seconds t0 + seconds (ts - t0) := by
      have order : t0 ≤ ts := later
      rw [seconds, seconds, seconds, cast_sub_of_le order]
      ring
    change quarter * scaledAxis (scale ![1, 0, 0] (seconds ts)) =
      quarter * scaledAxis (scale ![1, 0, 0] (seconds t0)) *
        scaledAxis (scale ![1, 0, 0] (seconds (ts - t0)))
    rw [total, mul_assoc, scale_eq_smul, scale_eq_smul, scale_eq_smul, scaledAxis_add_smul]
  gravity := ⟨1, rfl⟩

def swayReadings : List (ImuReading ℝ) :=
  [swayReading 0 0, swayReading 0 50000000, swayReading 50000000 100000000]

theorem scene_static_sway :
    (exact.mul quarter (run exact 1 (1 / 200) 2 swayReadings).estimator.q = sway 100000000) ∧
      ((run exact 1 (1 / 200) 2 swayReadings).add exact .dev
          ([![1, 0, 0], ![0, 2, 1]].map (turn (sway 75000000)⁻¹)) 75000000 :
        Outcome Empty (List (Vec3 ℝ))) =
        .ok ([![1, 0, 0], ![0, 2, 1]].map fun w => viewer (turn quarter⁻¹ w)) := by
  have noiseless : swayReadings.IsChain (Noiseless exact sway) :=
    .cons_cons (noiseless_sway 0 0 50000000 rfl)
      (.cons_cons (noiseless_sway 0 50000000 100000000 rfl) (.singleton _))
  have starts : ∀ first ∈ swayReadings.head?, sway first.ts = quarter := by
    rintro first ⟨⟩
    change sway 0 = quarter
    have still : (seconds 0 : ℝ) = 0 := by norm_num [seconds]
    rw [sway, still, scale_eq_smul, zero_smul]
    have none : scaledAxis (0 : Fin 3 → ℝ) = 1 := by
      rw [← zero_smul ℝ upward.1, scaledAxis_smul, about_zero]
    rw [none, mul_one]
  obtain ⟨follows, rests⟩ := scene_static (ε := Empty) sway exact_lawful exact_interpolates
    quarter_level .dev 1 (1 / 200) 2 noiseless starts
  refine ⟨?_, ?_⟩
  · exact follows [swayReading 0 0, swayReading 0 50000000] (swayReading 50000000 100000000)
      List.prefix_rfl
  · exact rests (swayReading 0 50000000) (swayReading 50000000 100000000) 75000000
      [![1, 0, 0], ![0, 2, 1]] rfl rfl (by decide) (by decide)

end Sway

end LivoxMid360.Imu.StaticScene
