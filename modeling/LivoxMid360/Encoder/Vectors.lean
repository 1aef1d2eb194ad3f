/- digest: Three-component vectors over any type of numbers. -/

import Mathlib.Algebra.GroupWithZero.Nat
import Mathlib.Data.Fin.VecNotation
import Mathlib.Data.Fintype.Basic
import Mathlib.Data.Nat.Cast.Defs
import Mathlib.Tactic.FinCases

set_option autoImplicit false
set_option relaxedAutoImplicit false

namespace LivoxMid360.Encoder.Vectors

universe u

/-- The numerals of axes and of halves, by name: a definition refers to these instances instead
of carrying its own proof of them. -/
scoped instance neZeroThree : NeZero 3 := ⟨by decide⟩

scoped instance atLeastTwo : Nat.AtLeastTwo 2 := ⟨le_rfl⟩

abbrev Vec3 (F : Type u) := Fin 3 → F

/-- Three rows of three. -/
abbrev Mat3 (F : Type u) := Fin 3 → Vec3 F

variable {F : Type u}

def add [Add F] (a b : Vec3 F) : Vec3 F := ![a 0 + b 0, a 1 + b 1, a 2 + b 2]

def sub [Sub F] (a b : Vec3 F) : Vec3 F := ![a 0 - b 0, a 1 - b 1, a 2 - b 2]

def scale [Mul F] (a : Vec3 F) (s : F) : Vec3 F := ![a 0 * s, a 1 * s, a 2 * s]

def dot [Add F] [Mul F] (a b : Vec3 F) : F := a 0 * b 0 + a 1 * b 1 + a 2 * b 2

def cross [Sub F] [Mul F] (a b : Vec3 F) : Vec3 F :=
  ![a 1 * b 2 - a 2 * b 1, a 2 * b 0 - a 0 * b 2, a 0 * b 1 - a 1 * b 0]

def midpoint [Add F] [Div F] [NatCast F] (min max : Vec3 F) : Vec3 F :=
  ![(min 0 + max 0) / 2, (min 1 + max 1) / 2, (min 2 + max 2) / 2]

@[simp] theorem add_apply [Add F] (a b : Vec3 F) (k : Fin 3) : add a b k = a k + b k := by
  fin_cases k <;> rfl

@[simp] theorem sub_apply [Sub F] (a b : Vec3 F) (k : Fin 3) : sub a b k = a k - b k := by
  fin_cases k <;> rfl

@[simp] theorem scale_apply [Mul F] (a : Vec3 F) (s : F) (k : Fin 3) :
    scale a s k = a k * s := by
  fin_cases k <;> rfl

@[simp] theorem midpoint_apply [Add F] [Div F] [NatCast F] (min max : Vec3 F) (k : Fin 3) :
    midpoint min max k = (min k + max k) / 2 := by
  fin_cases k <;> rfl

end LivoxMid360.Encoder.Vectors
