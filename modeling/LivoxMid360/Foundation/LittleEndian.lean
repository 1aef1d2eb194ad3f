/- digest: Fixed-width little-endian words, their byte layout, and fields of a byte string. -/

import Mathlib.Data.Nat.Digits.Lemmas
import Mathlib.Tactic.Ring

set_option autoImplicit false
set_option relaxedAutoImplicit false

namespace LivoxMid360.Foundation.LittleEndian

abbrev Bytes := List UInt8

/-- The number whose base-256 digits, least significant first, are the bytes. -/
def natOfBytes (bs : Bytes) : Nat := Nat.ofDigits 256 (bs.map UInt8.toNat)

/-- The `w` low base-256 digits of a number, least significant first. -/
def bytesOfNat : Nat → Nat → Bytes
  | 0, _ => []
  | w + 1, n => UInt8.ofNat n :: bytesOfNat w (n / 256)

@[simp] theorem natOfBytes_nil : natOfBytes [] = 0 := rfl

theorem natOfBytes_cons (b : UInt8) (bs : Bytes) :
    natOfBytes (b :: bs) = b.toNat + 256 * natOfBytes bs := by
  simp [natOfBytes, Nat.ofDigits_cons]

@[simp] theorem length_bytesOfNat (w n : Nat) : (bytesOfNat w n).length = w := by
  induction w generalizing n with
  | zero => rfl
  | succ w ih => simp [bytesOfNat, ih]

theorem natOfBytes_lt (bs : Bytes) : natOfBytes bs < 256 ^ bs.length := by
  have digits : ∀ d ∈ bs.map UInt8.toNat, d < 256 := by
    intro d hd
    obtain ⟨b, _, rfl⟩ := List.mem_map.mp hd
    exact b.toNat_lt
  simpa [natOfBytes] using Nat.ofDigits_lt_base_pow_length (by decide) digits

theorem natOfBytes_bytesOfNat (w n : Nat) : natOfBytes (bytesOfNat w n) = n % 256 ^ w := by
  induction w generalizing n with
  | zero => simp [bytesOfNat, Nat.mod_one]
  | succ w ih =>
    have low : (UInt8.ofNat n).toNat = n % 256 := UInt8.toNat_ofNat'
    rw [bytesOfNat, natOfBytes_cons, ih, low, pow_succ', Nat.mod_mul]

theorem bytesOfNat_natOfBytes (bs : Bytes) : bytesOfNat bs.length (natOfBytes bs) = bs := by
  induction bs with
  | nil => rfl
  | cons b bs ih =>
    have hb : b.toNat < 256 := b.toNat_lt
    have low : UInt8.ofNat (b.toNat + 256 * natOfBytes bs) = b := by
      apply UInt8.toNat_inj.mp
      rw [UInt8.toNat_ofNat']
      omega
    have high : (b.toNat + 256 * natOfBytes bs) / 256 = natOfBytes bs := by omega
    rw [List.length_cons, natOfBytes_cons, bytesOfNat, low, high, ih]

/-- A type of words with a fixed-width byte layout: `toLe` is `to_le_bytes`, `ofLe`
is `from_le_bytes`. Both are inverse on byte strings of the right length. -/
class LeWord (α : Type) where
  width : Nat
  toLe : α → Bytes
  ofLe : Bytes → α
  length_toLe : ∀ a, (toLe a).length = width
  ofLe_toLe : ∀ a, ofLe (toLe a) = a
  toLe_ofLe : ∀ bs, bs.length = width → toLe (ofLe bs) = bs

export LeWord (toLe ofLe length_toLe ofLe_toLe)

attribute [simp] length_toLe ofLe_toLe

instance : LeWord UInt8 where
  width := 1
  toLe b := [b]
  ofLe bs := bs.headD 0
  length_toLe _ := rfl
  ofLe_toLe _ := rfl
  toLe_ofLe bs h := by
    obtain ⟨b, rfl⟩ := List.length_eq_one_iff.mp h
    rfl

instance : LeWord UInt16 where
  width := 2
  toLe x := bytesOfNat 2 x.toNat
  ofLe bs := UInt16.ofNat (natOfBytes bs)
  length_toLe _ := length_bytesOfNat 2 _
  ofLe_toLe x := by
    rw [natOfBytes_bytesOfNat, Nat.mod_eq_of_lt (by simpa using x.toNat_lt), UInt16.ofNat_toNat]
  toLe_ofLe bs h := by
    have bound : natOfBytes bs < 2 ^ 16 := by simpa [h] using natOfBytes_lt bs
    rw [UInt16.toNat_ofNat', Nat.mod_eq_of_lt bound, ← h, bytesOfNat_natOfBytes]

instance : LeWord UInt32 where
  width := 4
  toLe x := bytesOfNat 4 x.toNat
  ofLe bs := UInt32.ofNat (natOfBytes bs)
  length_toLe _ := length_bytesOfNat 4 _
  ofLe_toLe x := by
    rw [natOfBytes_bytesOfNat, Nat.mod_eq_of_lt (by simpa using x.toNat_lt), UInt32.ofNat_toNat]
  toLe_ofLe bs h := by
    have bound : natOfBytes bs < 2 ^ 32 := by simpa [h] using natOfBytes_lt bs
    rw [UInt32.toNat_ofNat', Nat.mod_eq_of_lt bound, ← h, bytesOfNat_natOfBytes]

instance : LeWord UInt64 where
  width := 8
  toLe x := bytesOfNat 8 x.toNat
  ofLe bs := UInt64.ofNat (natOfBytes bs)
  length_toLe _ := length_bytesOfNat 8 _
  ofLe_toLe x := by
    rw [natOfBytes_bytesOfNat, Nat.mod_eq_of_lt (by simpa using x.toNat_lt), UInt64.ofNat_toNat]
  toLe_ofLe bs h := by
    have bound : natOfBytes bs < 2 ^ 64 := by simpa [h] using natOfBytes_lt bs
    rw [UInt64.toNat_ofNat', Nat.mod_eq_of_lt bound, ← h, bytesOfNat_natOfBytes]

/-- Carry a layout along a bijection; signed integers and floats reuse the layout of the
unsigned word with the same bits. -/
@[reducible] def LeWord.ofEquiv {α β : Type} [LeWord α] (toWord : β → α)
    (ofWord : α → β) (left : ∀ b, ofWord (toWord b) = b) (right : ∀ a, toWord (ofWord a) = a) :
    LeWord β where
  width := LeWord.width α
  toLe b := toLe (toWord b)
  ofLe bs := ofWord (ofLe bs)
  length_toLe b := length_toLe (toWord b)
  ofLe_toLe b := by rw [ofLe_toLe, left]
  toLe_ofLe bs h := by rw [right, LeWord.toLe_ofLe bs h]

instance : LeWord Int16 :=
  LeWord.ofEquiv Int16.toUInt16 UInt16.toInt16 (fun _ => rfl) (fun _ => rfl)

instance : LeWord Int32 :=
  LeWord.ofEquiv Int32.toUInt32 UInt32.toInt32 (fun _ => rfl) (fun _ => rfl)

/-- Two words in a row. -/
instance {α β : Type} [LeWord α] [LeWord β] : LeWord (α × β) where
  width := LeWord.width α + LeWord.width β
  toLe p := toLe p.1 ++ toLe p.2
  ofLe bs := (ofLe (bs.take (LeWord.width α)), ofLe (bs.drop (LeWord.width α)))
  length_toLe p := by rw [List.length_append, length_toLe, length_toLe]
  ofLe_toLe p := by
    rw [← length_toLe p.1, List.take_left, List.drop_left, ofLe_toLe, ofLe_toLe]
  toLe_ofLe bs h := by
    rw [LeWord.toLe_ofLe (bs.take _) (by rw [List.length_take]; omega)]
    rw [LeWord.toLe_ofLe (bs.drop _) (by rw [List.length_drop]; omega), List.take_append_drop]

instance (n : Nat) : LeWord (Vector UInt8 n) where
  width := n
  toLe v := v.toList
  ofLe bs := Vector.ofFn fun i => bs.getD i 0
  length_toLe v := by simp
  ofLe_toLe v := by
    apply Vector.ext
    intro i _
    simp [List.getD]
  toLe_ofLe bs h := by
    apply List.ext_getElem
    · simp [h]
    · intro i hi _
      simp [List.getD, h]

@[simp] theorem width_prod {α β : Type} [LeWord α] [LeWord β] :
    LeWord.width (α × β) = LeWord.width α + LeWord.width β := rfl

theorem toLe_prod {α β : Type} [LeWord α] [LeWord β] (a : α) (b : β) :
    toLe (a, b) = toLe a ++ toLe b := rfl

@[simp] theorem width_vector (n : Nat) : LeWord.width (Vector UInt8 n) = n := rfl

@[simp] theorem width_u8 : LeWord.width UInt8 = 1 := rfl
@[simp] theorem width_u16 : LeWord.width UInt16 = 2 := rfl
@[simp] theorem width_u32 : LeWord.width UInt32 = 4 := rfl
@[simp] theorem width_u64 : LeWord.width UInt64 = 8 := rfl
@[simp] theorem width_i16 : LeWord.width Int16 = 2 := rfl
@[simp] theorem width_i32 : LeWord.width Int32 = 4 := rfl

section Field

variable {α : Type} [LeWord α]

/-- The word stored at an offset of a byte string. -/
def field (α : Type) [LeWord α] (off : Nat) (bs : Bytes) : α :=
  ofLe ((bs.drop off).take (LeWord.width α))

theorem field_toLe_append (x : α) (ys : Bytes) : field α 0 (toLe x ++ ys) = x := by
  rw [field, List.drop_zero, ← length_toLe x, List.take_left, ofLe_toLe]

/-- A word that ends before the cut is still there. -/
theorem field_take {off n : Nat} (within : off + LeWord.width α ≤ n) (bs : Bytes) :
    field α off (bs.take n) = field α off bs := by
  rw [field, field, List.drop_take, List.take_take, Nat.min_eq_left (by omega)]

theorem field_append_right {off : Nat} (xs ys : Bytes) (h : xs.length ≤ off) :
    field α off (xs ++ ys) = field α (off - xs.length) ys := by
  rw [field, field, List.drop_append, List.drop_of_length_le h, List.nil_append]

theorem field_prod {β : Type} [LeWord β] (off : Nat) (bs : Bytes) :
    field (α × β) off bs = (field α off bs, field β (off + LeWord.width α) bs) := by
  have first : ((bs.drop off).take (LeWord.width (α × β))).take (LeWord.width α) =
      (bs.drop off).take (LeWord.width α) := by
    rw [List.take_take, width_prod, Nat.min_eq_left (Nat.le_add_right _ _)]
  have second : ((bs.drop off).take (LeWord.width (α × β))).drop (LeWord.width α) =
      (bs.drop (off + LeWord.width α)).take (LeWord.width β) := by
    rw [List.drop_take, width_prod, Nat.add_sub_cancel_left, List.drop_drop]
  show (ofLe _, ofLe _) = _
  rw [first, second]
  rfl

theorem field_at {off : Nat} (pre post : Bytes) (x : α) (h : pre.length = off) :
    field α off (pre ++ (toLe x ++ post)) = x := by
  rw [field_append_right pre _ (le_of_eq h), h, Nat.sub_self, field_toLe_append]

theorem toLe_field {off : Nat} {bs : Bytes} (h : off + LeWord.width α ≤ bs.length) :
    toLe (field α off bs) = (bs.drop off).take (LeWord.width α) := by
  apply LeWord.toLe_ofLe
  rw [List.length_take, List.length_drop]
  omega

/-- Reading a field splits the rest of the string at the field's end. -/
theorem toLe_field_append_drop {off : Nat} {bs : Bytes}
    (h : off + LeWord.width α ≤ bs.length) :
    toLe (field α off bs) ++ bs.drop (off + LeWord.width α) = bs.drop off := by
  rw [toLe_field h, ← List.drop_drop, List.take_append_drop]

end Field

end LivoxMid360.Foundation.LittleEndian
