/- digest: Exact numbers and one value that absorbs: arithmetic with it never comes back. -/

import Mathlib.Algebra.CharZero.Defs
import Mathlib.Algebra.Field.Basic
import Mathlib.Order.Defs.LinearOrder

set_option autoImplicit false
set_option relaxedAutoImplicit false

namespace LivoxMid360.Foundation.AbsorbingNumbers

universe u v

/-- A number, or the result of an operation that left the numbers. -/
inductive Absorbing (K : Type u)
  | finite (a : K)
  | nonFinite
  deriving DecidableEq, Repr

namespace Absorbing

variable {K : Type u}

def IsFinite : Absorbing K → Prop
  | finite _ => True
  | nonFinite => False

instance isFiniteDecidable (x : Absorbing K) : Decidable x.IsFinite :=
  match x with
  | finite _ => .isTrue trivial
  | nonFinite => .isFalse id

def map (f : K → K) : Absorbing K → Absorbing K
  | finite a => finite (f a)
  | nonFinite => nonFinite

def map₂ (f : K → K → K) : Absorbing K → Absorbing K → Absorbing K
  | finite a, finite b => finite (f a b)
  | _, _ => nonFinite

/-- A comparison, false unless both sides are numbers. -/
def Compares (r : K → K → Prop) : Absorbing K → Absorbing K → Prop
  | finite a, finite b => r a b
  | _, _ => False

instance comparesDecidable (r : K → K → Prop) [DecidableRel r] (x y : Absorbing K) :
    Decidable (Compares r x y) :=
  match x, y with
  | finite a, finite b => inferInstanceAs (Decidable (r a b))
  | finite _, nonFinite => .isFalse id
  | nonFinite, _ => .isFalse id

instance absorbingZero [Zero K] : Zero (Absorbing K) := ⟨finite 0⟩

instance absorbingOne [One K] : One (Absorbing K) := ⟨finite 1⟩

instance absorbingNatCast [NatCast K] : NatCast (Absorbing K) := ⟨fun n => finite n⟩

instance absorbingAdd [Add K] : Add (Absorbing K) := ⟨map₂ (· + ·)⟩

instance absorbingSub [Sub K] : Sub (Absorbing K) := ⟨map₂ (· - ·)⟩

instance absorbingMul [Mul K] : Mul (Absorbing K) := ⟨map₂ (· * ·)⟩

instance absorbingNeg [Neg K] : Neg (Absorbing K) := ⟨map (-·)⟩

/-- Dividing by zero leaves the numbers. -/
def div [Zero K] [Div K] [DecidableEq K] : Absorbing K → Absorbing K → Absorbing K
  | finite a, finite b => if b = 0 then nonFinite else finite (a / b)
  | _, _ => nonFinite

instance absorbingDiv [Zero K] [Div K] [DecidableEq K] : Div (Absorbing K) := ⟨div⟩

instance absorbingLT [LT K] : LT (Absorbing K) := ⟨Compares (· < ·)⟩

instance absorbingLE [LE K] : LE (Absorbing K) := ⟨Compares (· ≤ ·)⟩

instance absorbingDecidableLT [LT K] [DecidableLT K] : DecidableLT (Absorbing K) :=
  comparesDecidable (· < ·)

instance absorbingDecidableLE [LE K] [DecidableLE K] : DecidableLE (Absorbing K) :=
  comparesDecidable (· ≤ ·)

@[simp] theorem isFinite_finite (a : K) : (finite a).IsFinite := trivial

@[simp] theorem not_isFinite_nonFinite : ¬ (nonFinite : Absorbing K).IsFinite := id

theorem isFinite_iff {x : Absorbing K} : x.IsFinite ↔ ∃ a, x = finite a := by
  cases x with
  | finite a => simp
  | nonFinite => simp

@[simp] theorem isFinite_map (f : K → K) (x : Absorbing K) : (map f x).IsFinite ↔ x.IsFinite := by
  cases x with
  | finite a => exact Iff.rfl
  | nonFinite => exact Iff.rfl

@[simp] theorem isFinite_map₂ (f : K → K → K) (x y : Absorbing K) :
    (map₂ f x y).IsFinite ↔ x.IsFinite ∧ y.IsFinite := by
  cases x with
  | finite a =>
    cases y with
    | finite b => simp [map₂]
    | nonFinite => simp [map₂]
  | nonFinite => simp [map₂]

@[simp] theorem isFinite_zero [Zero K] : (0 : Absorbing K).IsFinite := trivial

@[simp] theorem isFinite_one [One K] : (1 : Absorbing K).IsFinite := trivial

@[simp] theorem isFinite_natCast [NatCast K] (n : Nat) : (n : Absorbing K).IsFinite := trivial

@[simp] theorem isFinite_add [Add K] (x y : Absorbing K) :
    (x + y).IsFinite ↔ x.IsFinite ∧ y.IsFinite := isFinite_map₂ _ x y

@[simp] theorem isFinite_sub [Sub K] (x y : Absorbing K) :
    (x - y).IsFinite ↔ x.IsFinite ∧ y.IsFinite := isFinite_map₂ _ x y

@[simp] theorem isFinite_mul [Mul K] (x y : Absorbing K) :
    (x * y).IsFinite ↔ x.IsFinite ∧ y.IsFinite := isFinite_map₂ _ x y

theorem isFinite_div [Zero K] [Div K] [DecidableEq K] (x y : Absorbing K) :
    (x / y).IsFinite ↔ x.IsFinite ∧ y.IsFinite ∧ y ≠ 0 := by
  have zero : (0 : Absorbing K) = finite 0 := rfl
  show (div x y).IsFinite ↔ _
  cases x with
  | nonFinite => simp [div]
  | finite a =>
    cases y with
    | nonFinite => simp [div]
    | finite b =>
      by_cases hb : b = 0
      · simp [div, hb, zero]
      · simp [div, hb, zero]

theorem isFinite_div_natCast {K : Type u} [Field K] [CharZero K] [DecidableEq K] (x : Absorbing K)
    {n : Nat} (positive : 0 < n) : (x / (n : Absorbing K)).IsFinite ↔ x.IsFinite := by
  have nonzero : (n : Absorbing K) ≠ 0 := by
    intro zero
    have value : (n : K) = 0 := Absorbing.finite.inj zero
    exact positive.ne' (Nat.cast_eq_zero.mp value)
  rw [isFinite_div]
  simp [nonzero]

/-- A running sum is finite as long as nothing added to it is not. -/
theorem isFinite_foldl_add [Add K] {α : Type v} (f : α → Absorbing K) (l : List α)
    (start : Absorbing K) :
    (l.foldl (fun sum a => sum + f a) start).IsFinite ↔
      start.IsFinite ∧ ∀ a ∈ l, (f a).IsFinite := by
  induction l generalizing start with
  | nil => simp
  | cons a l ih => rw [List.foldl_cons, ih, isFinite_add, List.forall_mem_cons, and_assoc]

end Absorbing

end LivoxMid360.Foundation.AbsorbingNumbers
