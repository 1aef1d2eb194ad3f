/- digest: A fallible Rust call yields a value, an error value, or a panic. -/

import Mathlib.Control.Basic
import Mathlib.Data.List.Basic

set_option autoImplicit false
set_option relaxedAutoImplicit false

namespace LivoxMid360.Foundation.RustOutcome

universe u v

/-- The stops that safe slice and integer code can run into. -/
inductive Panic
  | subtractWithOverflow
  | indexOutOfBounds
  | sliceOutOfBounds
  | sourceLengthMismatch
  | unwrapOnErr
  deriving DecidableEq, Repr

/-- A call that returns `Result` either returns `Ok`, returns `Err`, or does not
return at all. The three are kept apart: a panic is never an `Err`. -/
inductive Outcome (ε : Type u) (α : Type v)
  | ok (value : α)
  | err (error : ε)
  | panic (cause : Panic)
  deriving DecidableEq, Repr

namespace Outcome

variable {ε : Type u} {α β γ : Type v}

protected def bind : Outcome ε α → (α → Outcome ε β) → Outcome ε β
  | .ok a, f => f a
  | .err e, _ => .err e
  | .panic c, _ => .panic c

instance : Monad (Outcome ε) where
  pure := .ok
  bind := Outcome.bind

@[simp] theorem pure_eq_ok (a : α) : (pure a : Outcome ε α) = .ok a := rfl

@[simp] theorem ok_bind (a : α) (f : α → Outcome ε β) : (.ok a >>= f) = f a := rfl

@[simp] theorem err_bind (e : ε) (f : α → Outcome ε β) :
    ((.err e : Outcome ε α) >>= f) = .err e := rfl

@[simp] theorem panic_bind (c : Panic) (f : α → Outcome ε β) :
    ((.panic c : Outcome ε α) >>= f) = .panic c := rfl

instance : LawfulMonad (Outcome ε) := LawfulMonad.mk' _
  (by intro α x; cases x <;> rfl)
  (by intro α β a f; rfl)
  (by intro α β γ x f g; cases x <;> rfl)

@[simp] theorem map_ok (f : α → β) (a : α) : f <$> (.ok a : Outcome ε α) = .ok (f a) := rfl

@[simp] theorem map_err (f : α → β) (e : ε) : f <$> (.err e : Outcome ε α) = .err e := rfl

@[simp] theorem map_panic (f : α → β) (c : Panic) :
    f <$> (.panic c : Outcome ε α) = .panic c := rfl

theorem bind_eq_ok {x : Outcome ε α} {f : α → Outcome ε β} {b : β} :
    (x >>= f) = .ok b ↔ ∃ a, x = .ok a ∧ f a = .ok b := by
  cases x with
  | ok a => simp
  | err e => simp
  | panic c => simp

theorem bind_congr_ok {x : Outcome ε α} {f g : α → Outcome ε β}
    (h : ∀ a, x = .ok a → f a = g a) : x >>= f = x >>= g := by
  cases x with
  | ok a => exact h a rfl
  | err e => rfl
  | panic c => rfl

/-- The call comes back to its caller, with `Ok` or with `Err`. -/
def Returns (x : Outcome ε α) : Prop := ∀ c, x ≠ .panic c

@[simp] theorem returns_ok (a : α) : (.ok a : Outcome ε α).Returns := by
  intro c h
  cases h

@[simp] theorem returns_err (e : ε) : (.err e : Outcome ε α).Returns := by
  intro c h
  cases h

@[simp] theorem not_returns_panic (c : Panic) : ¬ (.panic c : Outcome ε α).Returns :=
  fun h => h c rfl

theorem Returns.bind {x : Outcome ε α} {f : α → Outcome ε β} (hx : x.Returns)
    (hf : ∀ a, x = .ok a → (f a).Returns) : (x >>= f).Returns := by
  cases x with
  | ok a => exact hf a rfl
  | err e => exact returns_err e
  | panic c => exact absurd rfl (hx c)

theorem mapM_total {ι : Type v} {f : ι → Outcome ε α} {l : List ι}
    (h : ∀ i ∈ l, ∃ a, f i = .ok a) : ∃ out, l.mapM f = .ok out := by
  induction l with
  | nil => exact ⟨[], rfl⟩
  | cons i l ih =>
    obtain ⟨a, head⟩ := h i List.mem_cons_self
    obtain ⟨rest, tail⟩ := ih fun j hj => h j (List.mem_cons_of_mem i hj)
    exact ⟨a :: rest, by rw [List.mapM_cons, head, ok_bind, tail]; rfl⟩

theorem mapM_ok_get {ι : Type v} {f : ι → Outcome ε α} {l : List ι} {out : List α}
    (h : l.mapM f = .ok out) (i : Nat) (hi : i < out.length) :
    ∃ hl : i < l.length, f l[i] = .ok out[i] := by
  induction l generalizing out i with
  | nil =>
    rw [List.mapM_nil, pure_eq_ok] at h
    cases h
    exact absurd hi (Nat.not_lt_zero i)
  | cons j l ih =>
    rw [List.mapM_cons] at h
    obtain ⟨a, head, h⟩ := bind_eq_ok.mp h
    obtain ⟨rest, tail, h⟩ := bind_eq_ok.mp h
    cases h
    cases i with
    | zero => exact ⟨Nat.zero_lt_succ _, head⟩
    | succ i =>
      obtain ⟨hl, same⟩ := ih tail i (Nat.lt_of_succ_lt_succ hi)
      exact ⟨Nat.succ_lt_succ hl, same⟩

end Outcome

/-- The one setting of a build that the modelled code can observe: whether
`usize` arithmetic is checked for overflow (`dev`) or wraps (`release`). -/
structure Profile where
  overflowChecks : Bool
  deriving DecidableEq, Repr

def Profile.dev : Profile := ⟨true⟩

def Profile.release : Profile := ⟨false⟩

/-- `usize` is 64 bits wide. Lengths of real slices are below `2 ^ 63`, so of the
modelled `usize` operations only subtraction can leave the range. -/
def usizeModulus : Nat := UInt64.size

def usizeSub {ε : Type u} (profile : Profile) (a b : Nat) : Outcome ε Nat :=
  if b ≤ a then .ok (a - b)
  else if profile.overflowChecks then .panic .subtractWithOverflow
  else .ok (a + usizeModulus - b)

theorem usizeSub_of_le {ε : Type u} (profile : Profile) {a b : Nat} (h : b ≤ a) :
    (usizeSub profile a b : Outcome ε Nat) = .ok (a - b) := if_pos h

theorem usizeSub_ne_err {ε : Type u} (profile : Profile) (a b : Nat) (e : ε) :
    usizeSub profile a b ≠ .err e := by
  rw [usizeSub]
  split
  · exact fun h => nomatch h
  · split <;> exact fun h => nomatch h

theorem usizeSub_checked {ε : Type u} {profile : Profile} {a b : Nat} (h : a < b)
    (checked : profile.overflowChecks = true) :
    (usizeSub profile a b : Outcome ε Nat) = .panic .subtractWithOverflow := by
  rw [usizeSub, if_neg (by omega), if_pos checked]

/-- Below the wrapping range a wrapped difference is never small. -/
theorem usizeSub_wrapped {ε : Type u} {profile : Profile} {a b : Nat} (h : a < b)
    (unchecked : profile.overflowChecks = false) {bound : Nat} (hb : b + bound ≤ usizeModulus) :
    ∃ n, bound ≤ n ∧ (usizeSub profile a b : Outcome ε Nat) = .ok n := by
  refine ⟨a + usizeModulus - b, by omega, ?_⟩
  rw [usizeSub, if_neg (by omega), if_neg (by simp [unchecked])]

theorem usizeSub_small {ε : Type u} {profile : Profile} {a b n bound : Nat}
    (h : (usizeSub profile a b : Outcome ε Nat) = .ok n) (hn : n < bound)
    (hb : b + bound ≤ usizeModulus) : b ≤ a ∧ n = a - b := by
  by_cases low : a < b
  · cases checks : profile.overflowChecks with
    | true =>
      rw [usizeSub_checked low checks] at h
      cases h
    | false =>
      obtain ⟨m, large, hm⟩ := usizeSub_wrapped (ε := ε) low checks hb
      rw [hm] at h
      cases h
      omega
  · rw [usizeSub_of_le profile (by omega)] at h
    cases h
    exact ⟨by omega, rfl⟩

def u64Sub {ε : Type u} (profile : Profile) (a b : UInt64) : Outcome ε UInt64 :=
  if b ≤ a then .ok (a - b)
  else if profile.overflowChecks then .panic .subtractWithOverflow
  else .ok (a - b)

theorem u64Sub_of_le {ε : Type u} (profile : Profile) {a b : UInt64} (h : b ≤ a) :
    (u64Sub profile a b : Outcome ε UInt64) = .ok (a - b) := if_pos h

end LivoxMid360.Foundation.RustOutcome
