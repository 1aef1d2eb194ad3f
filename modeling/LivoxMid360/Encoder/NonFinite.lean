/- digest: Which clouds the encoder returns on, when a coordinate may be no number. -/

import LivoxMid360.Encoder.Encode
import LivoxMid360.Foundation.AbsorbingNumbers
import Mathlib.Algebra.Field.Rat
import Mathlib.Algebra.Order.Ring.Rat

set_option autoImplicit false
set_option relaxedAutoImplicit false

namespace LivoxMid360.Encoder.NonFinite

open Foundation.RustOutcome Foundation.AbsorbingNumbers
open Vectors PrincipalAxes Segments Encode

universe u

section Numbers

variable {K : Type} [Field K] [LinearOrder K]

def partialCmp : Absorbing K → Absorbing K → Option Ordering
  | .finite a, .finite b => some (cmp a b)
  | _, _ => none

instance absorbingFloatOps : FloatOps (Absorbing K) where
  abs := .map (|·|)
  partialCmp := partialCmp
  min := .map₂ min
  max := .map₂ max

/-- The two functions give numbers for numbers; of other arguments nothing is assumed. -/
structure Finitary (trig : Trig (Absorbing K)) : Prop where
  atan2 : ∀ y x : Absorbing K, y.IsFinite → x.IsFinite → (trig.atan2 y x).IsFinite
  sinCos : ∀ angle : Absorbing K, angle.IsFinite →
    (trig.sinCos angle).1.IsFinite ∧ (trig.sinCos angle).2.IsFinite

def Numeric (m : Mat3 (Absorbing K)) : Prop := ∀ i j, (m i j).IsFinite

theorem unwrap_partialCmp_ok {ε : Type u} {x y : Absorbing K} (hx : x.IsFinite)
    (hy : y.IsFinite) :
    ∃ order, (unwrap (FloatOps.partialCmp x y) : Outcome ε Ordering) = .ok order := by
  obtain ⟨a, rfl⟩ := Absorbing.isFinite_iff.mp hx
  obtain ⟨b, rfl⟩ := Absorbing.isFinite_iff.mp hy
  exact ⟨cmp a b, rfl⟩

theorem unwrap_partialCmp_panic {ε : Type u} {x y : Absorbing K}
    (absorbed : ¬ (x.IsFinite ∧ y.IsFinite)) :
    (unwrap (FloatOps.partialCmp x y) : Outcome ε Ordering) = .panic .unwrapOnErr := by
  cases x with
  | nonFinite => rfl
  | finite a =>
    cases y with
    | nonFinite => rfl
    | finite b => exact absurd ⟨trivial, trivial⟩ absorbed

end Numbers

section Rotations

variable {K : Type} [Field K] {p q : Fin 3} {sin cos : Absorbing K} {m : Mat3 (Absorbing K)}

theorem rotateColumns_numeric (hs : sin.IsFinite) (hc : cos.IsFinite) (numeric : Numeric m) :
    Numeric (rotateColumns p q sin cos m) := by
  intro k c
  rw [rotateColumns]
  split
  · simp [hs, hc, numeric k p, numeric k q]
  · split
    · simp [hs, hc, numeric k p, numeric k q]
    · exact numeric k c

theorem rotateRows_eq (r k : Fin 3) : rotateRows p q sin cos m r k =
    rotateColumns p q sin cos (fun i j => m j i) k r := rfl

theorem rotateRows_numeric (hs : sin.IsFinite) (hc : cos.IsFinite) (numeric : Numeric m) :
    Numeric (rotateRows p q sin cos m) := by
  intro r k
  rw [rotateRows_eq]
  exact rotateColumns_numeric hs hc (fun i j => numeric j i) k r

/-- A diagonal entry mixes with itself, whatever the angle. -/
theorem rotateColumns_absorbs {x : Fin 3} (absorbed : ¬ (m x x).IsFinite) :
    ¬ (rotateColumns p q sin cos m x x).IsFinite := by
  rw [rotateColumns]
  split
  · next here =>
    rw [← here]
    simp [absorbed]
  · split
    · next here =>
      rw [← here]
      simp [absorbed]
    · exact absorbed

theorem rotateRows_absorbs {x : Fin 3} (absorbed : ¬ (m x x).IsFinite) :
    ¬ (rotateRows p q sin cos m x x).IsFinite := by
  rw [rotateRows_eq]
  exact rotateColumns_absorbs absorbed

variable [LinearOrder K] {trig : Trig (Absorbing K)}

theorem jacobiStep_absorbs {state : Mat3 (Absorbing K) × Mat3 (Absorbing K)} {x : Fin 3}
    (absorbed : ¬ (state.1 x x).IsFinite) :
    ¬ ((jacobiStep trig p q state).1 x x).IsFinite :=
  rotateRows_absorbs (rotateColumns_absorbs absorbed)

theorem jacobiLoop_absorbs (tolerance : Absorbing K) (fuel : Nat)
    {state : Mat3 (Absorbing K) × Mat3 (Absorbing K)} {x : Fin 3}
    (absorbed : ¬ (state.1 x x).IsFinite) :
    ¬ ((jacobiLoop trig tolerance fuel state).1 x x).IsFinite := by
  induction fuel generalizing state with
  | zero => exact absorbed
  | succ fuel ih =>
    rw [jacobiLoop]
    dsimp only
    split
    · exact absorbed
    · exact ih (jacobiStep_absorbs absorbed)

/-- No number of rotations brings an eigenvalue back. -/
theorem jacobiEigen_absorbs (trig : Trig (Absorbing K)) {x : Fin 3}
    (absorbed : ¬ (m x x).IsFinite) : ¬ ((jacobiEigen trig m).1 x).IsFinite := by
  have start : ¬ ((m, fun i j : Fin 3 => if i = j then (1 : Absorbing K) else 0).1 x x).IsFinite :=
    absorbed
  rw [jacobiEigen]
  exact jacobiLoop_absorbs _ 32 start

variable [IsStrictOrderedRing K]

theorem jacobiStep_numeric (finitary : Finitary trig)
    {state : Mat3 (Absorbing K) × Mat3 (Absorbing K)} (ha : Numeric state.1)
    (hv : Numeric state.2) :
    Numeric (jacobiStep trig p q state).1 ∧ Numeric (jacobiStep trig p q state).2 := by
  have two : (2 : Absorbing K).IsFinite := Absorbing.isFinite_natCast 2
  have half : (1 / 2 : Absorbing K).IsFinite :=
    (Absorbing.isFinite_div_natCast 1 Nat.two_pos).mpr Absorbing.isFinite_one
  have arc := finitary.atan2 (2 * state.1 p q) (state.1 q q - state.1 p p)
    (by simp [two, ha p q]) (by simp [ha q q, ha p p])
  obtain ⟨hs, hc⟩ := finitary.sinCos (1 / 2 * trig.atan2 (2 * state.1 p q)
    (state.1 q q - state.1 p p)) ((Absorbing.isFinite_mul _ _).mpr ⟨half, arc⟩)
  exact ⟨rotateRows_numeric hs hc (rotateColumns_numeric hs hc ha),
    rotateColumns_numeric hs hc hv⟩

theorem jacobiLoop_numeric (finitary : Finitary trig) (tolerance : Absorbing K) (fuel : Nat)
    {state : Mat3 (Absorbing K) × Mat3 (Absorbing K)} (ha : Numeric state.1)
    (hv : Numeric state.2) :
    Numeric (jacobiLoop trig tolerance fuel state).1 ∧
      Numeric (jacobiLoop trig tolerance fuel state).2 := by
  induction fuel generalizing state with
  | zero => exact ⟨ha, hv⟩
  | succ fuel ih =>
    rw [jacobiLoop]
    dsimp only
    split
    · exact ⟨ha, hv⟩
    · obtain ⟨ha', hv'⟩ := jacobiStep_numeric finitary ha hv
      exact ih ha' hv'

theorem jacobiEigen_numeric (finitary : Finitary trig) (numeric : Numeric m) :
    (∀ i, ((jacobiEigen trig m).1 i).IsFinite) ∧ Numeric (jacobiEigen trig m).2 := by
  have identity :
      Numeric (m, fun i j : Fin 3 => if i = j then (1 : Absorbing K) else 0).2 := by
    intro i j
    dsimp only
    split
    · exact Absorbing.isFinite_one
    · exact Absorbing.isFinite_zero
  obtain ⟨ha, hv⟩ := jacobiLoop_numeric finitary
    (1 / ((10 ^ 14 : Nat) : Absorbing K) * (m 0 0 + m 1 1 + m 2 2)) 32 numeric identity
  exact ⟨fun i => ha i i, hv⟩

end Rotations

section Axes

variable {K : Type} [Field K] [LinearOrder K] {ε : Type u}

def compareColumns (values : Vec3 (Absorbing K)) (a b : Fin 3) : Outcome ε Ordering :=
  unwrap (FloatOps.partialCmp (values b) (values a))

theorem insertBack_panics {compare : Fin 3 → Fin 3 → Outcome ε Ordering} {x y : Fin 3} {c : Panic}
    (compared : compare x y = .panic c) (sorted : List (Fin 3)) :
    insertBack compare x (y :: sorted) = .panic c := by
  rw [insertBack, compared, Outcome.panic_bind]

theorem sortBy_panics {values : Vec3 (Absorbing K)} {x : Fin 3} (absorbed : ¬ (values x).IsFinite) :
    ∃ c, (sortBy (compareColumns values) [0, 1, 2] : Outcome ε (List (Fin 3))) = .panic c := by
  have first : (insertBack (compareColumns values) 0 [] : Outcome ε (List (Fin 3))) = .ok [0] := rfl
  rw [sortBy, List.foldlM_cons, first, Outcome.ok_bind, List.foldlM_cons]
  -- the first two values are compared at once, the third with either of them
  by_cases pair : (values 0).IsFinite ∧ (values 1).IsFinite
  · have last : ¬ (values 2).IsFinite := by
      fin_cases x
      · exact absurd pair.1 absorbed
      · exact absurd pair.2 absorbed
      · exact absorbed
    have third (y : Fin 3) : (compareColumns values 2 y : Outcome ε Ordering) =
        .panic .unwrapOnErr := unwrap_partialCmp_panic fun both => last both.2
    have second : ∃ y ys, (insertBack (compareColumns values) 1 [0] : Outcome ε (List (Fin 3))) =
        .ok (y :: ys) := by
      obtain ⟨order, compared⟩ := unwrap_partialCmp_ok (ε := ε) pair.1 pair.2
      have compared' : (compareColumns values 1 0 : Outcome ε Ordering) = .ok order := compared
      rw [insertBack, compared', Outcome.ok_bind]
      split
      · exact ⟨0, [1], rfl⟩
      · exact ⟨1, [0], rfl⟩
    obtain ⟨y, ys, inserted⟩ := second
    rw [inserted, Outcome.ok_bind, List.foldlM_cons, insertBack_panics (third y),
      Outcome.panic_bind]
    exact ⟨_, rfl⟩
  · have compared : (compareColumns values 1 0 : Outcome ε Ordering) = .panic .unwrapOnErr :=
      unwrap_partialCmp_panic pair
    rw [insertBack_panics compared, Outcome.panic_bind]
    exact ⟨_, rfl⟩

theorem sortedAxes_panics {values : Vec3 (Absorbing K)} {vectors : Mat3 (Absorbing K)} {x : Fin 3}
    (absorbed : ¬ (values x).IsFinite) :
    ∃ c, (sortedAxes values vectors : Outcome ε (Mat3 (Absorbing K))) = .panic c := by
  obtain ⟨c, sorted⟩ := sortBy_panics (ε := ε) absorbed
  have compares : (sortBy (fun a b => unwrap (FloatOps.partialCmp (values b) (values a)))
      [0, 1, 2] : Outcome ε (List (Fin 3))) = .panic c := sorted
  exact ⟨c, by rw [sortedAxes, compares, Outcome.panic_bind]⟩

theorem dominant_total {axis : Vec3 (Absorbing K)} (numeric : ∀ k, (axis k).IsFinite) :
    ∃ k, (dominant axis : Outcome ε (Fin 3)) = .ok k := by
  have compares (i j : Fin 3) : ∃ order, (unwrap (FloatOps.partialCmp
      (FloatOps.abs (axis i)) (FloatOps.abs (axis j))) : Outcome ε Ordering) = .ok order :=
    unwrap_partialCmp_ok ((Absorbing.isFinite_map _ _).mpr (numeric i))
      ((Absorbing.isFinite_map _ _).mpr (numeric j))
  obtain ⟨order, first⟩ := compares 0 1
  rw [dominant, List.foldlM_cons, first, Outcome.ok_bind, Outcome.pure_eq_ok, Outcome.ok_bind]
  obtain ⟨order', second⟩ := compares (if order = .gt then 0 else 1) 2
  rw [List.foldlM_cons, second]
  exact ⟨_, rfl⟩

theorem fixSign_total {axis : Vec3 (Absorbing K)} (numeric : ∀ k, (axis k).IsFinite) :
    ∃ out, (fixSign axis : Outcome ε (Vec3 (Absorbing K))) = .ok out := by
  obtain ⟨k, found⟩ := dominant_total (ε := ε) numeric
  exact ⟨_, by rw [fixSign, found, Outcome.ok_bind, Outcome.pure_eq_ok]⟩

theorem sortedAxes_numeric {values : Vec3 (Absorbing K)} {vectors : Mat3 (Absorbing K)}
    (hvalues : ∀ i, (values i).IsFinite) (hvectors : Numeric vectors) :
    ∃ axes, (sortedAxes values vectors : Outcome ε (Mat3 (Absorbing K))) = .ok axes := by
  have compares : ∀ a b : Fin 3, ∃ order,
      (unwrap (FloatOps.partialCmp (values b) (values a)) : Outcome ε Ordering) = .ok order :=
    fun a b => unwrap_partialCmp_ok (hvalues b) (hvalues a)
  obtain ⟨order, sorted⟩ := sortBy_total compares [0, 1, 2]
  have signed (i : Nat) : ∃ out, (fixSign (fun row => vectors row (order.getD i 0)) :
      Outcome ε (Vec3 (Absorbing K))) = .ok out := fixSign_total fun row => hvectors row _
  obtain ⟨x, hx⟩ := signed 0
  obtain ⟨y, hy⟩ := signed 1
  obtain ⟨z, hz⟩ := signed 2
  rw [sortedAxes, sorted, Outcome.ok_bind]
  dsimp only
  rw [hx, Outcome.ok_bind, hy, Outcome.ok_bind, hz, Outcome.ok_bind]
  exact ⟨_, rfl⟩

end Axes

section Covariance

variable {K : Type} [Field K] [LinearOrder K] [IsStrictOrderedRing K]
  {points : List (Vec3 (Absorbing K))}

theorem meanOf_isFinite (nonempty : points ≠ []) (k : Fin 3) :
    (meanOf points k).IsFinite ↔ ∀ p ∈ points, (p k).IsFinite := by
  rw [meanOf_apply, Absorbing.isFinite_foldl_add]
  simp only [Absorbing.isFinite_div_natCast _ (List.length_pos_iff.mpr nonempty),
    Absorbing.isFinite_zero, true_and]

theorem covarianceOf_isFinite (nonempty : points ≠ []) (mean : Vec3 (Absorbing K)) (i j : Fin 3) :
    (covarianceOf points mean i j).IsFinite ↔
      ∀ p ∈ points, (sub p mean i).IsFinite ∧ (sub p mean j).IsFinite := by
  rw [covarianceOf_apply, Absorbing.isFinite_foldl_add]
  simp only [Absorbing.isFinite_div_natCast _ (List.length_pos_iff.mpr nonempty),
    Absorbing.isFinite_mul, Absorbing.isFinite_zero, true_and]

/-- One coordinate that is no number spoils the variance of its axis. -/
theorem covariance_absorbs {p : Vec3 (Absorbing K)} (member : p ∈ points) {x : Fin 3}
    (absorbed : ¬ (p x).IsFinite) : ¬ (covarianceOf points (meanOf points) x x).IsFinite := by
  have nonempty := List.ne_nil_of_mem member
  rw [covarianceOf_isFinite nonempty]
  intro numeric
  have offset := (numeric p member).1
  rw [Vectors.sub_apply, Absorbing.isFinite_sub] at offset
  exact absorbed offset.1

theorem covariance_numeric (nonempty : points ≠ []) (numeric : ∀ p ∈ points, ∀ k, (p k).IsFinite) :
    Numeric (covarianceOf points (meanOf points)) := by
  have offset (p : Vec3 (Absorbing K)) (member : p ∈ points) (k : Fin 3) :
      (sub p (meanOf points) k).IsFinite := by
    rw [Vectors.sub_apply, Absorbing.isFinite_sub]
    exact ⟨numeric p member k, (meanOf_isFinite nonempty k).mpr fun q hq => numeric q hq k⟩
  intro i j
  exact (covarianceOf_isFinite nonempty _ i j).mpr fun p member =>
    ⟨offset p member i, offset p member j⟩

end Covariance

section Encoder

variable {K : Type} [Field K] [LinearOrder K] [IsStrictOrderedRing K] {ε : Type u}
  {trig : Trig (Absorbing K)} {cloud : List (Vec3 (Absorbing K))}

theorem fit_panics (trig : Trig (Absorbing K)) {p : Vec3 (Absorbing K)} (member : p ∈ cloud)
    {x : Fin 3} (absorbed : ¬ (p x).IsFinite) :
    ∃ c, (Obb.fit trig cloud : Outcome ε (Obb (Absorbing K))) = .panic c := by
  have eigenvalue := jacobiEigen_absorbs trig (covariance_absorbs member absorbed)
  obtain ⟨c, sorted⟩ := sortedAxes_panics (ε := ε) eigenvalue
  refine ⟨c, ?_⟩
  rw [Obb.fit, Obb.fitWith, pcaWith]
  dsimp only
  rw [sorted, Outcome.panic_bind, Outcome.panic_bind]

theorem fit_returns (finitary : Finitary trig) (nonempty : cloud ≠ [])
    (numeric : ∀ p ∈ cloud, ∀ k, (p k).IsFinite) :
    ∃ obb, (Obb.fit trig cloud : Outcome ε (Obb (Absorbing K))) = .ok obb := by
  obtain ⟨hvalues, hvectors⟩ := jacobiEigen_numeric finitary (covariance_numeric nonempty numeric)
  obtain ⟨axes, sorted⟩ := sortedAxes_numeric (ε := ε) hvalues hvectors
  refine ⟨Obb.inFrame (meanOf cloud) axes cloud, ?_⟩
  rw [Obb.fit, Obb.fitWith, pcaWith]
  dsimp only
  rw [sorted]
  rfl

omit [IsStrictOrderedRing K] in
theorem encode_valid (trig : Trig (Absorbing K)) (nonempty : cloud ≠ []) {rounds : UInt8}
    (valid : 1 ≤ rounds ∧ rounds ≤ 5) :
    encode trig cloud rounds =
      (Obb.fit trig cloud >>= fun obb => .ok (encodeBox (cloud.map obb.toLocal)
        (scale obb.halfExtents (-1)) obb.halfExtents rounds.toNat
        ((cloud.map obb.toLocal).length : Absorbing K) [])) := by
  have present : ¬ cloud.isEmpty = true := by rwa [List.isEmpty_iff]
  have accepted : ¬ ¬ (minRounds ≤ rounds ∧ rounds ≤ maxRounds) := not_not.mpr valid
  rw [encode, encodeWith, if_neg present, if_neg accepted]
  rfl

theorem encode_panics (trig : Trig (Absorbing K)) {p : Vec3 (Absorbing K)} (member : p ∈ cloud)
    {x : Fin 3} (absorbed : ¬ (p x).IsFinite) {rounds : UInt8}
    (valid : 1 ≤ rounds ∧ rounds ≤ 5) : ∃ c, encode trig cloud rounds = .panic c := by
  obtain ⟨c, panics⟩ := fit_panics (ε := EncodeError) trig member absorbed
  exact ⟨c, by rw [encode_valid trig (List.ne_nil_of_mem member) valid, panics,
    Outcome.panic_bind]⟩

/-- The encoder comes back exactly when it refuses its arguments or every coordinate is a
number. -/
theorem encode_returns_iff (finitary : Finitary trig) (cloud : List (Vec3 (Absorbing K)))
    (rounds : UInt8) :
    (encode trig cloud rounds).Returns ↔
      cloud = [] ∨ ¬ (1 ≤ rounds ∧ rounds ≤ 5) ∨ ∀ p ∈ cloud, ∀ k, (p k).IsFinite := by
  by_cases empty : cloud = []
  · rw [empty]
    exact iff_of_true (Outcome.returns_err _) (.inl rfl)
  by_cases valid : 1 ≤ rounds ∧ rounds ≤ 5
  · by_cases numeric : ∀ p ∈ cloud, ∀ k, (p k).IsFinite
    · obtain ⟨obb, fitted⟩ := fit_returns (ε := EncodeError) finitary empty numeric
      rw [encode_valid trig empty valid, fitted, Outcome.ok_bind]
      exact iff_of_true (Outcome.returns_ok _) (.inr (.inr numeric))
    · have spoiled : ∃ p ∈ cloud, ∃ x, ¬ (p x).IsFinite := by
        simpa only [not_forall, exists_prop] using numeric
      obtain ⟨p, member, x, absorbed⟩ := spoiled
      obtain ⟨c, panics⟩ := encode_panics trig member absorbed valid
      rw [panics]
      refine iff_of_false (Outcome.not_returns_panic c) ?_
      rintro (none | invalid | all)
      · exact empty none
      · exact invalid valid
      · exact numeric all
  · have present : ¬ cloud.isEmpty = true := by rwa [List.isEmpty_iff]
    have refused : encode trig cloud rounds = .err (.invalidRounds rounds) := by
      rw [encode, encodeWith, if_neg present]
      exact if_pos valid
    rw [refused]
    exact iff_of_true (Outcome.returns_err _) (.inr (.inl valid))

end Encoder

def still : Trig (Absorbing ℚ) where
  atan2 := .map₂ fun _ _ => 0
  sinCos angle := (angle.map fun _ => 0, angle.map fun _ => 1)

theorem still_finitary : Finitary still where
  atan2 y x hy hx := (Absorbing.isFinite_map₂ _ y x).mpr ⟨hy, hx⟩
  sinCos angle h := ⟨(Absorbing.isFinite_map _ angle).mpr h, (Absorbing.isFinite_map _ angle).mpr h⟩

theorem encode_returns_iff_point :
    (encode still [![1, 0, 0]] 1).Returns ↔
      [![1, 0, 0]] = ([] : List (Vec3 (Absorbing ℚ))) ∨ ¬ ((1 : UInt8) ≤ 1 ∧ (1 : UInt8) ≤ 5) ∨
        ∀ p ∈ [![(1 : Absorbing ℚ), 0, 0]], ∀ k, (p k).IsFinite :=
  encode_returns_iff still_finitary [![1, 0, 0]] 1

/-- One point, one coordinate of which is no number. -/
theorem encode_nan_aborts :
    ¬ ∀ (trig : Trig (Absorbing ℚ)) (cloud : List (Vec3 (Absorbing ℚ))) (rounds : UInt8),
      Finitary trig → (encode trig cloud rounds).Returns := by
  intro claim
  have absorbed : ¬ (![Absorbing.nonFinite, 0, 0] 0 : Absorbing ℚ).IsFinite := id
  obtain ⟨c, panics⟩ := encode_panics still (List.mem_singleton_self _) absorbed
    (⟨by decide, by decide⟩ : (1 : UInt8) ≤ 1 ∧ (1 : UInt8) ≤ 5)
  exact claim still [![.nonFinite, 0, 0]] 1 still_finitary c panics

end LivoxMid360.Encoder.NonFinite
