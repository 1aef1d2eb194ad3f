/- digest: A heading is only carried along: it turns the placed points about the vertical. -/

import LivoxMid360.Imu.Stabilization

set_option autoImplicit false
set_option relaxedAutoImplicit false

namespace LivoxMid360.Imu.Heading

open Foundation.RustOutcome
open Foundation.Transition (after)
open Encoder.Vectors
open scoped Encoder.CloudBuffer
open Attitude AttitudeEstimator Stabilization

universe u

variable {K Q : Type} [Field K] [LinearOrder K] {ε : Type u} {glam : Glam K Q} {h : Q}

/-- The estimator with another heading. -/
def turnEstimator (glam : Glam K Q) (h : Q) (self : AttitudeEstimator K Q) :
    AttitudeEstimator K Q := { self with q := glam.mul h self.q }

def turnHistory (glam : Glam K Q) (h : Q) (self : OrientationHistory Q) : OrientationHistory Q :=
  { self with samples := self.samples.map (Prod.map id (glam.mul h)) }

def turnStabilizer (glam : Glam K Q) (h : Q) (self : Stabilizer K Q) : Stabilizer K Q :=
  ⟨turnEstimator glam h self.estimator, turnHistory glam h self.history⟩

theorem correct_turn (lawful : Lawful glam) (level : Level glam h)
    (self : AttitudeEstimator K Q) (gyro acc : Vec3 K) (dt : K) :
    (turnEstimator glam h self).correct glam gyro acc dt = self.correct glam gyro acc dt := by
  -- a turn about the vertical leaves the predicted vertical as it is
  have up := lawful.predictedUp_mul level self.q
  rw [AttitudeEstimator.correct, AttitudeEstimator.correct]
  dsimp only [turnEstimator]
  rw [up]

theorem update_turn (lawful : Lawful glam) (level : Level glam h)
    (self : AttitudeEstimator K Q) (r : ImuReading K) :
    (turnEstimator glam h self).update glam r = turnEstimator glam h (self.update glam r) := by
  rw [AttitudeEstimator.update, AttitudeEstimator.update]
  have clock : (turnEstimator glam h self).lastTs = self.lastTs := rfl
  rw [clock]
  cases self.lastTs with
  | none => rfl
  | some prev =>
    have correction := correct_turn lawful level { self with lastTs := some r.ts } r.gyro r.acc
      (clampedDt prev r.ts)
    dsimp only
    rw [AttitudeEstimator.integrate, AttitudeEstimator.integrate]
    have moved : { turnEstimator glam h self with lastTs := some r.ts } =
        turnEstimator glam h { self with lastTs := some r.ts } := rfl
    rw [moved, correction]
    dsimp only [turnEstimator]
    rw [lawful.normalize, lawful.normalize, lawful.mul_assoc]

omit [Field K] [LinearOrder K] in
theorem push_turn (glam : Glam K Q) (h : Q) (self : OrientationHistory Q) (ts : UInt64)
    (q : Q) :
    (turnHistory glam h self).push (ts, glam.mul h q) =
      turnHistory glam h (self.push (ts, q)) := by
  rw [OrientationHistory.push, OrientationHistory.push, evict_eq, evict_eq]
  dsimp only [turnHistory]
  rw [List.rtake, List.rtake, List.map_drop, List.map_append, List.length_append,
    List.length_append, List.length_map]
  rfl

theorem handle_turn (lawful : Lawful glam) (level : Level glam h) (self : Stabilizer K Q)
    (e : Event K) :
    (turnStabilizer glam h self).handle glam e = turnStabilizer glam h (self.handle glam e) := by
  cases e with
  | update r =>
    have moved := update_turn lawful level self.estimator r
    rw [Stabilizer.handle, turnStabilizer, moved]
    rfl
  | push ts =>
    have stored := push_turn glam h self.history ts self.estimator.q
    rw [Stabilizer.handle, turnStabilizer]
    dsimp only [turnEstimator]
    rw [stored]
    rfl

theorem after_turn (lawful : Lawful glam) (level : Level glam h) (self : Stabilizer K Q)
    (events : List (Event K)) :
    after (Stabilizer.handle glam) (turnStabilizer glam h self) events =
      turnStabilizer glam h (after (Stabilizer.handle glam) self events) := by
  induction events generalizing self with
  | nil => rfl
  | cons e events ih =>
    rw [after, List.foldl_cons, handle_turn lawful level]
    exact ih _

theorem interpolate_turn (lawful : Lawful glam) (profile : Profile) (ts : UInt64)
    (x y : Sample Q) :
    (OrientationHistory.interpolate glam.toSlerp profile ts (x.1, glam.mul h x.2)
      (y.1, glam.mul h y.2) : Outcome ε Q) =
      glam.mul h <$> OrientationHistory.interpolate glam.toSlerp profile ts x y := by
  rw [OrientationHistory.interpolate, OrientationHistory.interpolate, map_bind]
  congr 1
  funext span
  -- both branches interpolate, and interpolation is carried along
  by_cases apart : (0 : K) < span.toNat
  · rw [if_pos apart, if_pos apart, map_bind]
    congr 1
    funext behind
    rw [lawful.slerp_mul, map_pure]
  · rw [if_neg apart, if_neg apart, lawful.slerp_mul, map_pure]

theorem scan_turn (lawful : Lawful glam) (profile : Profile) (ts : UInt64) (last : Sample Q)
    (samples : List (Sample Q)) :
    (OrientationHistory.scan glam.toSlerp profile ts (last.1, glam.mul h last.2)
      (samples.map (Prod.map id (glam.mul h))) : Outcome ε Q) =
      glam.mul h <$> OrientationHistory.scan glam.toSlerp profile ts last samples := by
  induction samples with
  | nil => rfl
  | cons x samples ih =>
    cases samples with
    | nil => rfl
    | cons y rest =>
      rw [List.map_cons] at ih
      rw [List.map_cons, List.map_cons]
      rw [OrientationHistory.scan, OrientationHistory.scan]
      by_cases around : x.1 ≤ ts ∧ ts ≤ y.1
      · rw [if_pos around]
        exact (if_pos around).trans (interpolate_turn lawful profile ts x y)
      · rw [if_neg around]
        exact (if_neg around).trans ih

theorem orientationAt_turn (lawful : Lawful glam) (profile : Profile) (ts : UInt64)
    {history : OrientationHistory Q} (nonempty : history.samples ≠ []) :
    ((turnHistory glam h history).orientationAt glam.toSlerp profile ts : Outcome ε Q) =
      glam.mul h <$> history.orientationAt glam.toSlerp profile ts := by
  have begins := List.head?_eq_some_head nonempty
  have ends := List.getLast?_eq_some_getLast nonempty
  generalize history.samples.head nonempty = first at begins
  generalize history.samples.getLast nonempty = last at ends
  have begins' : (turnHistory glam h history).samples.head? = some (first.1, glam.mul h first.2) :=
    List.head?_map.trans (by rw [begins]; rfl)
  have ends' : (turnHistory glam h history).samples.getLast? = some (last.1, glam.mul h last.2) :=
    List.getLast?_map.trans (by rw [ends]; rfl)
  rcases le_or_gt ts first.1 with notAfter | passed
  · rw [orientationAt_oldest begins notAfter, orientationAt_oldest begins' notAfter]
    rfl
  · rw [orientationAt_later begins ends passed, orientationAt_later begins' ends' passed]
    by_cases notBefore : last.1 ≤ ts
    · rw [if_pos notBefore, if_pos notBefore]
      rfl
    · rw [if_neg notBefore, if_neg notBefore]
      exact scan_turn lawful profile ts last history.samples

/-- A stored position, turned about the vertical axis of the viewer. -/
def swing (glam : Glam K Q) (h : Q) (v : Vec3 K) : Vec3 K := viewer (glam.rotate h (world v))

omit [LinearOrder K] in
theorem world_viewer (v : Vec3 K) : world (viewer v) = v := by
  ext k
  fin_cases k
  · rfl
  · exact neg_neg (v 1)
  · rfl

omit [LinearOrder K] in
theorem place_turn (lawful : Lawful glam) (q : Q) (p : Vec3 K) :
    place glam (glam.mul h q) p = swing glam h (place glam q p) := by
  rw [place, place, swing, world_viewer, lawful.rotate_mul]

omit [LinearOrder K] in
theorem swing_height (lawful : Lawful glam) (level : Level glam h) (v : Vec3 K) :
    swing glam h v 1 = v 1 :=
  lawful.height level (world v)

theorem add_turn (lawful : Lawful glam) (profile : Profile) {self : Stabilizer K Q}
    (nonempty : self.history.samples ≠ []) (points : List (Vec3 K)) (ts : UInt64) :
    ((turnStabilizer glam h self).add glam profile points ts : Outcome ε (List (Vec3 K))) =
      List.map (swing glam h) <$> self.add glam profile points ts := by
  have looked := orientationAt_turn (h := h) (ε := ε) lawful profile ts nonempty
  rw [Stabilizer.add, Stabilizer.add, turnStabilizer, looked, bind_map_left, map_bind]
  congr 1
  funext q
  rw [map_pure, List.map_map]
  congr 1
  apply List.map_congr_left
  intro p _
  exact place_turn lawful q p

/-- A heading never enters the filter: whatever the readings are and however the calls follow
each other, another heading at the start only turns the estimate, every stored orientation and
every point placed by them about the vertical axis. -/
theorem heading_carried (lawful : Lawful glam) (level : Level glam h) (profile : Profile)
    (start : Stabilizer K Q) (events : List (Event K)) :
    let plain := after (Stabilizer.handle glam) start events
    let turned := after (Stabilizer.handle glam) (turnStabilizer glam h start) events
    turned.estimator = turnEstimator glam h plain.estimator ∧
      turned.history = turnHistory glam h plain.history ∧
      (∀ v, swing glam h v 1 = v 1) ∧
      ∀ points ts,
        (plain.history.samples = [] →
          (turned.add glam profile points ts : Outcome ε _) =
            plain.add glam profile points ts) ∧
        (plain.history.samples ≠ [] →
          (turned.add glam profile points ts : Outcome ε _) =
            List.map (swing glam h) <$> plain.add glam profile points ts) := by
  intro plain turned
  have carried : turned = turnStabilizer glam h plain := after_turn lawful level start events
  refine ⟨by rw [carried]; rfl, by rw [carried]; rfl, swing_height lawful level, ?_⟩
  intro points ts
  rw [carried]
  constructor
  -- an empty history answers with the identity, which no heading has turned
  · intro empty
    have empty' : (turnHistory glam h plain.history).samples = [] := by
      rw [turnHistory, empty]
      rfl
    rw [Stabilizer.add, Stabilizer.add, turnStabilizer, orientationAt_empty empty,
      orientationAt_empty empty']
  · intro nonempty
    exact add_turn lawful profile nonempty points ts

/-- A sensor that is shaken: the third reading is tilted, and late. -/
noncomputable def shaken : List (Event ℝ) :=
  [.update ⟨![0, 0, 0], ![0, 0, 1], 5000000⟩, .push 5000000,
    .update ⟨![1, 0, 1], ![0, 1, 1], 10000000⟩, .push 10000000,
    .update ⟨![0, 1, 0], ![1, 0, 1], 9000000⟩, .push 9000000]

theorem heading_carried_quarter :
    ((after (Stabilizer.handle exact) (turnStabilizer exact quarter (.new exact 1 (1 / 200) 16))
        shaken).add exact .dev [![1, 0, 0]] 7000000 : Outcome Empty (List (Vec3 ℝ))) =
      List.map (swing exact quarter) <$>
        (after (Stabilizer.handle exact) (.new exact 1 (1 / 200) 16) shaken).add exact .dev
          [![1, 0, 0]] 7000000 :=
  ((heading_carried exact_lawful quarter_level .dev (.new exact 1 (1 / 200) 16)
    shaken).2.2.2 [![1, 0, 0]] 7000000).2 (List.cons_ne_nil _ _)

end LivoxMid360.Imu.Heading
