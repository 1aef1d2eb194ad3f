/- digest: Linear shift registers that absorb bytes, and the windows that they tell apart. -/

import Mathlib.Logic.Function.Iterate

set_option autoImplicit false
set_option relaxedAutoImplicit false

namespace LivoxMid360.Foundation.ShiftRegister

variable {w : Nat}

def Linear (f : BitVec w → BitVec w) : Prop := ∀ a b, f (a ^^^ b) = f a ^^^ f b

theorem Linear.injective {f : BitVec w → BitVec w} (linear : Linear f)
    (kernel : ∀ c, f c = 0#w → c = 0#w) : Function.Injective f := by
  intro a b same
  have vanishes : f (a ^^^ b) = 0#w := by
    rw [linear a b, same, BitVec.xor_self]
  exact BitVec.xor_eq_zero_iff.mp (kernel _ vanishes)

theorem Linear.iterate {f : BitVec w → BitVec w} (linear : Linear f) (n : Nat) :
    Linear f^[n] := by
  induction n with
  | zero =>
    intro a b
    rfl
  | succ n ih =>
    intro a b
    rw [Function.iterate_succ_apply, Function.iterate_succ_apply, Function.iterate_succ_apply,
      linear, ih]

/-- One shift towards bit 0; a bit that falls out folds back as the polynomial. -/
def down (poly c : BitVec w) : BitVec w :=
  if c.getLsbD 0 then (c >>> 1) ^^^ poly else c >>> 1

def up (poly c : BitVec w) : BitVec w :=
  if c.msb then (c <<< 1) ^^^ poly else c <<< 1

private theorem xor_swap (a b p : BitVec w) : a ^^^ b ^^^ p = a ^^^ p ^^^ b := by
  rw [BitVec.xor_assoc, BitVec.xor_comm b p, ← BitVec.xor_assoc]

private theorem xor_cancel (a b p : BitVec w) : a ^^^ p ^^^ (b ^^^ p) = a ^^^ b := by
  rw [BitVec.xor_comm b p, ← BitVec.xor_assoc, BitVec.xor_assoc a p p, BitVec.xor_self,
    BitVec.xor_zero]

theorem down_linear (poly : BitVec w) : Linear (down poly) := by
  intro a b
  rw [down, down, down, BitVec.getLsbD_xor, BitVec.ushiftRight_xor_distrib]
  cases ha : a.getLsbD 0 with
  | false =>
    cases hb : b.getLsbD 0 with
    | false => rfl
    | true => exact BitVec.xor_assoc _ _ _
  | true =>
    cases hb : b.getLsbD 0 with
    | false => exact xor_swap _ _ _
    | true => exact (xor_cancel _ _ _).symm

theorem up_linear (poly : BitVec w) : Linear (up poly) := by
  intro a b
  rw [up, up, up, BitVec.msb_xor, BitVec.shiftLeft_xor_distrib]
  cases ha : a.msb with
  | false =>
    cases hb : b.msb with
    | false => rfl
    | true => exact BitVec.xor_assoc _ _ _
  | true =>
    cases hb : b.msb with
    | false => exact xor_swap _ _ _
    | true => exact (xor_cancel _ _ _).symm

/-- The polynomial's top bit shows whether a bit fell out, so the shift can be undone. -/
theorem down_injective {poly : BitVec w} (top : poly.msb = true) :
    Function.Injective (down poly) := by
  apply (down_linear poly).injective
  intro c vanishes
  rw [down] at vanishes
  cases out : c.getLsbD 0 with
  | true =>
    rw [out, if_pos rfl] at vanishes
    have bit := congrArg BitVec.msb vanishes
    rw [BitVec.msb_xor, BitVec.msb_ushiftRight, top] at bit
    simp at bit
  | false =>
    rw [out, if_neg (by decide)] at vanishes
    apply BitVec.eq_of_getLsbD_eq
    intro i hi
    rw [BitVec.getLsbD_zero]
    cases i with
    | zero => exact out
    | succ i =>
      have bit := congrArg (BitVec.getLsbD · i) vanishes
      rwa [BitVec.getLsbD_ushiftRight, BitVec.getLsbD_zero, Nat.add_comm] at bit

theorem up_injective {poly : BitVec w} (bottom : poly.getLsbD 0 = true) :
    Function.Injective (up poly) := by
  apply (up_linear poly).injective
  intro c vanishes
  rw [up] at vanishes
  cases out : c.msb with
  | true =>
    rw [out, if_pos rfl] at vanishes
    have bit := congrArg (BitVec.getLsbD · 0) vanishes
    rw [BitVec.getLsbD_xor, BitVec.getLsbD_shiftLeft, bottom, BitVec.getLsbD_zero] at bit
    simp at bit
  | false =>
    rw [out, if_neg (by decide)] at vanishes
    apply BitVec.eq_of_getLsbD_eq
    intro i hi
    rw [BitVec.getLsbD_zero]
    rcases Nat.lt_or_ge (i + 1) w with inner | last
    · have bit := congrArg (BitVec.getLsbD · (i + 1)) vanishes
      rw [BitVec.getLsbD_shiftLeft, BitVec.getLsbD_zero, Nat.add_sub_cancel] at bit
      simpa [inner] using bit
    · have top : w - 1 = i := by omega
      rwa [BitVec.msb_eq_getLsbD_last, top] at out

theorem iterate_down_of_clear {poly c : BitVec w} {n : Nat}
    (clear : ∀ i, i < n → c.getLsbD i = false) : (down poly)^[n] c = c >>> n := by
  induction n with
  | zero => rw [BitVec.ushiftRight_zero, Function.iterate_zero_apply]
  | succ n ih =>
    have stays : ¬ (c >>> n).getLsbD 0 = true := by
      rw [BitVec.getLsbD_ushiftRight, Nat.add_zero, clear n (Nat.lt_succ_self n)]
      decide
    rw [Function.iterate_succ_apply', ih fun i hi => clear i (Nat.lt_succ_of_lt hi), down,
      if_neg stays, BitVec.shiftRight_add]

theorem iterate_up_of_clear {poly c : BitVec w} {n : Nat}
    (clear : ∀ i, i < n → c.getMsbD i = false) : (up poly)^[n] c = c <<< n := by
  induction n with
  | zero => rw [BitVec.shiftLeft_zero, Function.iterate_zero_apply]
  | succ n ih =>
    have stays : ¬ (c <<< n).msb = true := by
      rw [BitVec.msb_shiftLeft, clear n (Nat.lt_succ_self n)]
      decide
    rw [Function.iterate_succ_apply', ih fun i hi => clear i (Nat.lt_succ_of_lt hi), up,
      if_neg stays, BitVec.shiftLeft_add]

/-- A register that absorbs a message byte by byte. `back` moves a word one byte away from
the place where a byte enters, so that a byte there is not disturbed. -/
structure Register (w : Nat) where
  advance : BitVec w → BitVec w
  feed : UInt8 → BitVec w
  back : BitVec w → BitVec w
  linear : Linear advance
  injective : Function.Injective advance
  separate : ∀ b b' x x', feed b ^^^ back x = feed b' ^^^ back x' → b = b'

namespace Register

variable (r : Register w)

def absorb (s : BitVec w) (b : UInt8) : BitVec w := r.advance (s ^^^ r.feed b)

def pack : List UInt8 → BitVec w
  | [] => 0#w
  | b :: bs => r.feed b ^^^ r.back (pack bs)

/-- Windows of `n` bytes fit into the register whole. -/
def Holds (n : Nat) : Prop :=
  ∀ bs : List UInt8, bs.length < n → r.advance (r.back (r.pack bs)) = r.pack bs

variable {r}

theorem absorb_injective (b : UInt8) : Function.Injective (r.absorb · b) := by
  intro s t same
  exact (BitVec.xor_left_inj _).mp (r.injective same)

theorem foldl_absorb_injective (bs : List UInt8) :
    Function.Injective (bs.foldl r.absorb ·) := by
  induction bs with
  | nil => exact fun _ _ same => same
  | cons b bs ih => exact ih.comp (absorb_injective b)

theorem foldl_absorb_eq {n : Nat} (holds : r.Holds n) (s : BitVec w) {bs : List UInt8}
    (fits : bs.length ≤ n) :
    bs.foldl r.absorb s = r.advance^[bs.length] (s ^^^ r.pack bs) := by
  induction bs generalizing s with
  | nil => rw [pack, BitVec.xor_zero]; rfl
  | cons b bs ih =>
    rw [List.length_cons] at fits
    have entered : r.absorb s b ^^^ r.pack bs = r.advance (s ^^^ r.pack (b :: bs)) := by
      rw [absorb, pack, ← BitVec.xor_assoc, r.linear _ (r.back _), holds bs (by omega)]
    rw [List.foldl_cons, ih _ (by omega), entered, List.length_cons,
      Function.iterate_succ_apply]

theorem pack_injective {n : Nat} (holds : r.Holds n) {bs bs' : List UInt8}
    (same : bs.length = bs'.length) (fits : bs.length ≤ n) (packed : r.pack bs = r.pack bs') :
    bs = bs' := by
  induction bs generalizing bs' with
  | nil => exact (List.length_eq_zero_iff.mp same.symm).symm
  | cons b bs ih =>
    cases bs' with
    | nil => cases same
    | cons b' bs' =>
      rw [List.length_cons] at same fits
      rw [List.length_cons] at same
      have first := r.separate _ _ _ _ packed
      subst first
      have rest := congrArg r.advance ((BitVec.xor_right_inj _).mp packed)
      rw [holds bs (by omega), holds bs' (by omega)] at rest
      rw [ih (by omega) (by omega) rest]

/-- Messages that differ only within a window that fits leave different states. -/
theorem foldl_absorb_window_ne {n : Nat} (holds : r.Holds n) (s : BitVec w)
    (pre post : List UInt8) {bs bs' : List UInt8} (same : bs.length = bs'.length)
    (fits : bs.length ≤ n) (differ : bs ≠ bs') :
    (pre ++ bs ++ post).foldl r.absorb s ≠ (pre ++ bs' ++ post).foldl r.absorb s := by
  intro collide
  simp only [List.foldl_append] at collide
  have window := foldl_absorb_injective post collide
  have fits' : bs'.length ≤ n := same ▸ fits
  rw [foldl_absorb_eq holds (pre.foldl r.absorb s) fits,
    foldl_absorb_eq holds (pre.foldl r.absorb s) fits', same] at window
  have words := (r.injective.iterate _) window
  exact differ (pack_injective holds same fits ((BitVec.xor_right_inj _).mp words))

end Register

/-- Bytes enter at bit 0, and eight shifts towards it follow. -/
def lowEntry (poly : BitVec w) (top : poly.msb = true) (wide : 8 ≤ w) : Register w where
  advance := (down poly)^[8]
  feed b := b.toBitVec.setWidth w
  back x := x <<< 8
  linear := (down_linear poly).iterate 8
  injective := (down_injective top).iterate 8
  separate b b' x x' same := by
    refine UInt8.toBitVec_inj.mp (BitVec.eq_of_getLsbD_eq ?_)
    intro i hi
    have bit := congrArg (BitVec.getLsbD · i) same
    have low : i < w := by omega
    simpa [low, hi] using bit

/-- Bytes enter at the top byte, and eight shifts towards the top follow. -/
def highEntry (poly : BitVec w) (bottom : poly.getLsbD 0 = true) (wide : 8 ≤ w) : Register w where
  advance := (up poly)^[8]
  feed b := b.toBitVec.setWidth w <<< (w - 8)
  back x := x >>> 8
  linear := (up_linear poly).iterate 8
  injective := (up_injective bottom).iterate 8
  separate b b' x x' same := by
    refine UInt8.toBitVec_inj.mp (BitVec.eq_of_getLsbD_eq ?_)
    intro i hi
    have bit := congrArg (BitVec.getLsbD · (w - 8 + i)) same
    have place : w - 8 + i < w := by omega
    have above : w ≤ 8 + (w - 8 + i) := by omega
    have low : i < w := by omega
    have high : ¬ w - 8 + i < w - 8 := by omega
    simpa [place, low, high, BitVec.getLsbD_of_ge x _ above, BitVec.getLsbD_of_ge x' _ above]
      using bit

theorem lowEntry_holds {poly : BitVec w} {top : poly.msb = true} {wide : 8 ≤ w} {n : Nat}
    (room : 8 * n ≤ w) : (lowEntry poly top wide).Holds n := by
  have clear (bs : List UInt8) (i : Nat) (above : 8 * bs.length ≤ i) :
      ((lowEntry poly top wide).pack bs).getLsbD i = false := by
    induction bs generalizing i with
    | nil => exact BitVec.getLsbD_zero
    | cons b bs ih =>
      rw [List.length_cons] at above
      have byte := BitVec.getLsbD_of_ge b.toBitVec i (by omega)
      have rest := ih (i - 8) (by omega)
      simp [Register.pack, lowEntry] at rest ⊢
      simp [byte, rest]
  intro bs fits
  show (down poly)^[8] ((lowEntry poly top wide).pack bs <<< 8) = _
  rw [iterate_down_of_clear (by intro i hi; simp [hi])]
  apply BitVec.eq_of_getLsbD_eq
  intro i hi
  rw [BitVec.getLsbD_ushiftRight, BitVec.getLsbD_shiftLeft, Nat.add_sub_cancel_left]
  by_cases inside : 8 + i < w
  · simp [inside]
  · rw [clear bs i (by omega), Bool.and_false]

theorem highEntry_holds {poly : BitVec w} {bottom : poly.getLsbD 0 = true} {wide : 8 ≤ w}
    {n : Nat} (room : 8 * n ≤ w) : (highEntry poly bottom wide).Holds n := by
  -- bytes are packed from the top, so the low bits stay free for eight shifts
  have clear (bs : List UInt8) (i : Nat) (below : i + 8 * bs.length < w) :
      ((highEntry poly bottom wide).pack bs).getLsbD i = false := by
    induction bs generalizing i with
    | nil => exact BitVec.getLsbD_zero
    | cons b bs ih =>
      rw [List.length_cons] at below
      have rest := ih (8 + i) (by omega)
      have low : i < w - 8 := by omega
      simp [Register.pack, highEntry] at rest ⊢
      simp [low, rest]
  intro bs fits
  show (up poly)^[8] ((highEntry poly bottom wide).pack bs >>> 8) = _
  have top (i : Nat) (hi : i < 8) :
      ((highEntry poly bottom wide).pack bs >>> 8).getMsbD i = false := by
    rw [BitVec.getMsbD_ushiftRight]
    simp [hi]
  rw [iterate_up_of_clear top]
  apply BitVec.eq_of_getLsbD_eq
  intro i hi
  rw [BitVec.getLsbD_shiftLeft, BitVec.getLsbD_ushiftRight]
  by_cases inside : i < 8
  · rw [clear bs i (by omega)]
    simp [inside]
  · have place : 8 + (i - 8) = i := by omega
    simp [inside, hi, place]

end LivoxMid360.Foundation.ShiftRegister
