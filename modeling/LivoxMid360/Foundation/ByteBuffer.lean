/- digest: Bounds-checked reads of byte slices and writes through a mutable slice. -/

import LivoxMid360.Foundation.LittleEndian
import LivoxMid360.Foundation.RustOutcome

set_option autoImplicit false
set_option relaxedAutoImplicit false

namespace LivoxMid360.Foundation.ByteBuffer

open RustOutcome (Panic Outcome)
open LittleEndian

universe u

variable {ε : Type u}

def index (buf : Bytes) (i : Nat) : Outcome ε UInt8 :=
  match buf[i]? with
  | some b => .ok b
  | none => .panic .indexOutOfBounds

/-- `[buf[off], .., buf[off + n - 1]]`, each index checked in turn. -/
def indices (buf : Bytes) (off : Nat) : Nat → Outcome ε Bytes
  | 0 => .ok []
  | n + 1 => do
    let b ← index buf off
    let bs ← indices buf (off + 1) n
    return b :: bs

/-- `T::from_le_bytes([buf[off], ..])` -/
def readLe (α : Type) [LeWord α] (buf : Bytes) (off : Nat) : Outcome ε α :=
  ofLe <$> indices buf off (LeWord.width α)

/-- `&buf[lo..hi]` -/
def slice (buf : Bytes) (lo hi : Nat) : Outcome ε Bytes :=
  if lo ≤ hi ∧ hi ≤ buf.length then .ok ((buf.drop lo).take (hi - lo))
  else .panic .sliceOutOfBounds

def sliceFrom (buf : Bytes) (lo : Nat) : Outcome ε Bytes :=
  if lo ≤ buf.length then .ok (buf.drop lo) else .panic .sliceOutOfBounds

theorem index_ok {buf : Bytes} {i : Nat} (h : i < buf.length) :
    (index buf i : Outcome ε UInt8) = .ok (field UInt8 i buf) := by
  have split : buf.drop i = buf[i] :: buf.drop (i + 1) := List.drop_eq_getElem_cons h
  simp only [index, List.getElem?_eq_getElem h, field, split, width_u8]
  rfl

theorem indices_ok {buf : Bytes} {off n : Nat} (h : off + n ≤ buf.length) :
    (indices buf off n : Outcome ε Bytes) = .ok ((buf.drop off).take n) := by
  induction n generalizing off with
  | zero => simp [indices]
  | succ n ih =>
    have hoff : off < buf.length := by omega
    have split : buf.drop off = buf[off] :: buf.drop (off + 1) := List.drop_eq_getElem_cons hoff
    simp only [indices, index, List.getElem?_eq_getElem hoff, Outcome.ok_bind]
    rw [ih (by omega), split]
    rfl

theorem readLe_ok {α : Type} [LeWord α] {buf : Bytes} {off : Nat}
    (h : off + LeWord.width α ≤ buf.length) :
    (readLe α buf off : Outcome ε α) = .ok (field α off buf) := by
  rw [readLe, indices_ok h]
  rfl

theorem slice_ok {buf : Bytes} {lo hi : Nat} (hlo : lo ≤ hi) (hhi : hi ≤ buf.length) :
    (slice buf lo hi : Outcome ε Bytes) = .ok ((buf.drop lo).take (hi - lo)) :=
  if_pos ⟨hlo, hhi⟩

theorem slice_inverted {buf : Bytes} {lo hi : Nat} (h : hi < lo) :
    (slice buf lo hi : Outcome ε Bytes) = .panic .sliceOutOfBounds :=
  if_neg (by omega)

theorem sliceFrom_ok {buf : Bytes} {lo : Nat} (h : lo ≤ buf.length) :
    (sliceFrom buf lo : Outcome ε Bytes) = .ok (buf.drop lo) :=
  if_pos h

/-- Equal lengths, and equal bytes outside `lo..hi`. -/
def EqOutside (lo hi : Nat) (xs ys : Bytes) : Prop :=
  xs.length = ys.length ∧ xs.take lo = ys.take lo ∧ xs.drop hi = ys.drop hi

theorem eqOutside_middle {pre mid mid' post : Bytes} {lo hi : Nat} (hpre : pre.length = lo)
    (hmid : lo + mid.length = hi) (same : mid'.length = mid.length) :
    EqOutside lo hi (pre ++ (mid ++ post)) (pre ++ (mid' ++ post)) := by
  subst hpre
  refine ⟨?_, ?_, ?_⟩
  · simp only [List.length_append, same]
  · rw [List.take_left, List.take_left]
  · rw [← List.append_assoc, ← List.append_assoc]
    rw [List.drop_left' (by rw [List.length_append]; exact hmid)]
    rw [List.drop_left' (by rw [List.length_append, same]; exact hmid)]

theorem EqOutside.take_eq {lo hi n : Nat} {xs ys : Bytes} (same : EqOutside lo hi xs ys)
    (before : n ≤ lo) : xs.take n = ys.take n := by
  have cut := congrArg (List.take n) same.2.1
  rwa [List.take_take, List.take_take, Nat.min_eq_left before] at cut

theorem EqOutside.drop_eq {lo hi n : Nat} {xs ys : Bytes} (same : EqOutside lo hi xs ys)
    (after : hi ≤ n) : xs.drop n = ys.drop n := by
  have cut := congrArg (List.drop (n - hi)) same.2.2
  rwa [List.drop_drop, List.drop_drop, Nat.add_sub_cancel' after] at cut

theorem EqOutside.field_before {α : Type} [LeWord α] {lo hi off : Nat} {xs ys : Bytes}
    (same : EqOutside lo hi xs ys) (before : off + LeWord.width α ≤ lo) :
    field α off xs = field α off ys := by
  have cut := congrArg (List.drop off) (same.take_eq before)
  rw [List.drop_take, List.drop_take, Nat.add_sub_cancel_left] at cut
  rw [field, field, cut]

theorem EqOutside.field_after {α : Type} [LeWord α] {lo hi off : Nat} {xs ys : Bytes}
    (same : EqOutside lo hi xs ys) (after : hi ≤ off) : field α off xs = field α off ys := by
  rw [field, field, same.drop_eq after]

theorem EqOutside.split {lo n a b : Nat} {xs ys : Bytes} (same : EqOutside lo (lo + n) xs ys)
    (left : a ≤ lo) (right : lo + n ≤ b) (within : b ≤ xs.length) :
    ∃ pre mid mid' post, (xs.drop a).take (b - a) = pre ++ mid ++ post ∧
      (ys.drop a).take (b - a) = pre ++ mid' ++ post ∧ mid.length = n ∧ mid'.length = n ∧
      (xs ≠ ys → mid ≠ mid') := by
  have cut (zs : Bytes) : (zs.drop a).take (b - a) = (zs.take lo).drop a ++
      (zs.drop lo).take n ++ (zs.drop (lo + n)).take (b - (lo + n)) := by
    have first : b - a = (lo - a) + (n + (b - (lo + n))) := by omega
    rw [first, List.take_add, List.take_add, List.drop_drop, List.drop_drop,
      Nat.add_sub_cancel' left, ← List.drop_take, List.append_assoc]
  refine ⟨(xs.take lo).drop a, (xs.drop lo).take n, (ys.drop lo).take n,
    (xs.drop (lo + n)).take (b - (lo + n)), cut xs, ?_, ?_, ?_, ?_⟩
  · rw [cut ys, ← same.2.1, ← same.2.2]
  · rw [List.length_take, List.length_drop]
    omega
  · rw [List.length_take, List.length_drop, ← same.1]
    omega
  · intro differ inside
    apply differ
    have whole (zs : Bytes) :
        zs = zs.take lo ++ ((zs.drop lo).take n ++ zs.drop (lo + n)) := by
      rw [← List.drop_drop, List.take_append_drop, List.take_append_drop]
    rw [whole xs, whole ys, same.2.1, same.2.2, inside]

/-- Code holding a `&mut [u8]`: the result, and what the slice holds afterwards whatever
the result is. -/
structure Edit (ε : Type u) (α : Type) : Type u where
  run : Bytes → Outcome ε α × Bytes

namespace Edit

variable {α β : Type}

protected def pure (a : α) : Edit ε α := ⟨fun buf => (.ok a, buf)⟩

protected def bind (x : Edit ε α) (f : α → Edit ε β) : Edit ε β := ⟨fun buf =>
  match x.run buf with
  | (.ok a, buf') => (f a).run buf'
  | (.err e, buf') => (.err e, buf')
  | (.panic c, buf') => (.panic c, buf')⟩

instance : Monad (Edit ε) where
  pure := Edit.pure
  bind := Edit.bind

def read (f : Bytes → Outcome ε α) : Edit ε α := ⟨fun buf => (f buf, buf)⟩

def len : Edit ε Nat := read fun buf => .ok buf.length

def fail (e : ε) : Edit ε α := read fun _ => .err e

def setIndex (i : Nat) (b : UInt8) : Edit ε Unit := ⟨fun buf =>
  if i < buf.length then (.ok (), buf.set i b) else (.panic .indexOutOfBounds, buf)⟩

def patch (buf : Bytes) (lo : Nat) (src : Bytes) : Bytes :=
  buf.take lo ++ (src ++ buf.drop (lo + src.length))

/-- `buf[lo..hi].copy_from_slice(src)` -/
def copyFromSlice (lo hi : Nat) (src : Bytes) : Edit ε Unit := ⟨fun buf =>
  if lo ≤ hi ∧ hi ≤ buf.length then
    if src.length = hi - lo then (.ok (), patch buf lo src)
    else (.panic .sourceLengthMismatch, buf)
  else (.panic .sliceOutOfBounds, buf)⟩

def fill (lo hi : Nat) (b : UInt8) : Edit ε Unit := ⟨fun buf =>
  if lo ≤ hi ∧ hi ≤ buf.length then (.ok (), patch buf lo (List.replicate (hi - lo) b))
  else (.panic .sliceOutOfBounds, buf)⟩

/-- Hand `&mut buf[lo..]` to a callee. -/
def suffix (lo : Nat) (x : Edit ε α) : Edit ε α := ⟨fun buf =>
  if lo ≤ buf.length then ((x.run (buf.drop lo)).1, buf.take lo ++ (x.run (buf.drop lo)).2)
  else (.panic .sliceOutOfBounds, buf)⟩

@[simp] theorem pure_run (a : α) (buf : Bytes) :
    (pure a : Edit ε α).run buf = (.ok a, buf) := rfl

theorem bind_run (x : Edit ε α) (f : α → Edit ε β) (buf : Bytes) :
    (x >>= f).run buf =
      match x.run buf with
      | (.ok a, buf') => (f a).run buf'
      | (.err e, buf') => (.err e, buf')
      | (.panic c, buf') => (.panic c, buf') := rfl

theorem bind_run_ok {x : Edit ε α} {f : α → Edit ε β} {buf buf' : Bytes} {a : α}
    (h : x.run buf = (.ok a, buf')) : (x >>= f).run buf = (f a).run buf' := by
  rw [bind_run, h]

theorem bind_run_ok_inv {x : Edit ε α} {f : α → Edit ε β} {buf out : Bytes} {b : β}
    (h : (x >>= f).run buf = (.ok b, out)) :
    ∃ a mid, x.run buf = (.ok a, mid) ∧ (f a).run mid = (.ok b, out) := by
  rw [bind_run] at h
  cases hx : x.run buf with
  | mk r mid =>
    rw [hx] at h
    cases r with
    | ok a => exact ⟨a, mid, rfl, h⟩
    | err e => cases h
    | panic c => cases h

@[simp] theorem read_run (f : Bytes → Outcome ε α) (buf : Bytes) :
    (read f).run buf = (f buf, buf) := rfl

@[simp] theorem len_run (buf : Bytes) : (len : Edit ε Nat).run buf = (.ok buf.length, buf) := rfl

@[simp] theorem fail_run (e : ε) (buf : Bytes) :
    (fail e : Edit ε α).run buf = (.err e, buf) := rfl

theorem suffix_run {lo : Nat} {x : Edit ε α} {buf : Bytes} (h : lo ≤ buf.length) :
    (suffix lo x).run buf = ((x.run (buf.drop lo)).1, buf.take lo ++ (x.run (buf.drop lo)).2) :=
  if_pos h

theorem copyFromSlice_ok_inv {lo hi : Nat} {src buf out : Bytes}
    (h : (copyFromSlice lo hi src : Edit ε Unit).run buf = (.ok (), out)) :
    lo ≤ hi ∧ hi ≤ buf.length ∧ src.length = hi - lo := by
  rw [copyFromSlice] at h
  by_cases bounds : lo ≤ hi ∧ hi ≤ buf.length
  · by_cases same : src.length = hi - lo
    · exact ⟨bounds.1, bounds.2, same⟩
    · simp [bounds, same] at h
  · simp [bounds] at h

/-- The edit succeeds or panics, whatever the slice is. -/
def ErrFree (x : Edit ε α) : Prop := ∀ buf e out, x.run buf ≠ (.err e, out)

theorem ErrFree.bind {x : Edit ε α} {f : α → Edit ε β} (hx : ErrFree x)
    (hf : ∀ a, ErrFree (f a)) : ErrFree (x >>= f) := by
  intro buf e out
  rw [bind_run]
  cases hrun : x.run buf with
  | mk r mid =>
    cases r with
    | ok a => exact hf a mid e out
    | err e' => exact absurd hrun (hx buf e' mid)
    | panic c =>
      intro h
      cases h

theorem errFree_read {f : Bytes → Outcome ε α} (h : ∀ buf e, f buf ≠ .err e) :
    ErrFree (read f) := fun buf e _ failed => h buf e (congrArg Prod.fst failed)

theorem errFree_setIndex (i : Nat) (b : UInt8) : ErrFree (setIndex i b : Edit ε Unit) := by
  intro buf e out
  rw [setIndex]
  dsimp only
  split <;> exact fun h => nomatch h

theorem errFree_copyFromSlice (lo hi : Nat) (src : Bytes) :
    ErrFree (copyFromSlice lo hi src : Edit ε Unit) := by
  intro buf e out
  rw [copyFromSlice]
  dsimp only
  split
  · split <;> exact fun h => nomatch h
  · exact fun h => nomatch h

theorem errFree_fill (lo hi : Nat) (b : UInt8) : ErrFree (fill lo hi b : Edit ε Unit) := by
  intro buf e out
  rw [fill]
  dsimp only
  split <;> exact fun h => nomatch h

/-! A serializer that writes its fields from left to right leaves the concatenation of the
fields' bytes. `Fills` is that statement about one edit, and it composes. -/

/-- Wherever there is room at `off`, the edit succeeds and overwrites exactly the bytes
from `off` on with `xs`. -/
def Fills (x : Edit ε Unit) (off : Nat) (xs : Bytes) : Prop :=
  ∀ pre rest, pre.length = off → xs.length ≤ rest.length →
    x.run (pre ++ rest) = (.ok (), pre ++ (xs ++ rest.drop xs.length))

theorem patch_at {pre rest src : Bytes} {lo : Nat} (h : pre.length = lo) :
    patch (pre ++ rest) lo src = pre ++ (src ++ rest.drop src.length) := by
  subst h
  rw [patch, List.take_left, List.drop_append, List.drop_of_length_le (by omega),
    List.nil_append, Nat.add_sub_cancel_left]

theorem fills_copyFromSlice {lo hi : Nat} {src : Bytes} (h : lo + src.length = hi) :
    Fills (copyFromSlice lo hi src : Edit ε Unit) lo src := by
  intro pre rest hpre hroom
  have bounds : lo ≤ hi ∧ hi ≤ (pre ++ rest).length := by
    rw [List.length_append]
    omega
  have same : src.length = hi - lo := by omega
  simp only [copyFromSlice, if_pos bounds, if_pos same, patch_at hpre]

theorem fills_fill {lo hi : Nat} {b : UInt8} (h : lo ≤ hi) :
    Fills (fill lo hi b : Edit ε Unit) lo (List.replicate (hi - lo) b) := by
  intro pre rest hpre hroom
  rw [List.length_replicate] at hroom
  have bounds : lo ≤ hi ∧ hi ≤ (pre ++ rest).length := by
    rw [List.length_append]
    omega
  simp only [fill, if_pos bounds, patch_at hpre]

theorem fills_setIndex (i : Nat) (b : UInt8) :
    Fills (setIndex i b : Edit ε Unit) i (toLe b) := by
  intro pre rest hpre hroom
  cases rest with
  | nil => simp at hroom
  | cons c rest =>
    have bound : i < (pre ++ c :: rest).length := by
      rw [List.length_append, List.length_cons]
      omega
    subst hpre
    simp only [setIndex, if_pos bound, List.set_append_right _ _ (le_refl _), Nat.sub_self,
      List.set_cons_zero, length_toLe, width_u8, List.drop_succ_cons, List.drop_zero]
    rfl

theorem fills_pure (off : Nat) : Fills (pure () : Edit ε Unit) off [] := by
  intro pre rest _ _
  rfl

theorem Fills.seq {x : Edit ε Unit} {f : Unit → Edit ε Unit} {off off' : Nat} {xs ys : Bytes}
    (hx : Fills x off xs) (hoff : off + xs.length = off') (hf : Fills (f ()) off' ys) :
    Fills (x >>= f) off (xs ++ ys) := by
  intro pre rest hpre hroom
  rw [List.length_append] at hroom
  rw [bind_run_ok (hx pre rest hpre (by omega)), ← List.append_assoc]
  rw [hf (pre ++ xs) (rest.drop xs.length) (by rw [List.length_append]; omega)
    (by rw [List.length_drop]; omega)]
  rw [List.drop_drop, List.length_append, List.append_assoc, List.append_assoc]

/-- One step of a left-to-right writer that has already produced `pre`. -/
theorem Fills.advance {x : Edit ε Unit} {f : Unit → Edit ε Unit} {off : Nat}
    {xs pre buf : Bytes} (hx : Fills x off xs) (off' : Nat) (hpre : pre.length = off)
    (hoff : off + xs.length = off') (room : off' ≤ buf.length) :
    (x >>= f).run (pre ++ buf.drop off) = (f ()).run ((pre ++ xs) ++ buf.drop off') := by
  subst hoff
  rw [bind_run_ok (hx pre (buf.drop off) hpre (by rw [List.length_drop]; omega)),
    List.drop_drop, List.append_assoc]

theorem Fills.suffix {x : Edit ε Unit} {xs : Bytes} (hx : Fills x 0 xs) (lo : Nat) :
    Fills (Edit.suffix lo x) lo xs := by
  intro pre rest hpre hroom
  subst hpre
  have run := hx [] rest rfl hroom
  rw [List.nil_append, List.nil_append] at run
  rw [suffix_run (by rw [List.length_append]; omega), List.drop_left, List.take_left, run]

theorem Fills.run_eq {x : Edit ε Unit} {xs buf : Bytes} (hx : Fills x 0 xs)
    (hroom : xs.length ≤ buf.length) : x.run buf = (.ok (), xs ++ buf.drop xs.length) :=
  hx [] buf rfl hroom

/-! A writer that checks sizes only and never shrinks the slice succeeds on exactly the slices
whose length satisfies a predicate. -/

structure Gated (x : Edit ε Unit) (P : Nat → Prop) : Prop where
  sound : ∀ buf out, x.run buf = (.ok (), out) → P buf.length ∧ out.length = buf.length
  complete : ∀ buf, P buf.length → ∃ out, x.run buf = (.ok (), out)

theorem Gated.bind {x : Edit ε Unit} {f : Unit → Edit ε Unit} {P Q : Nat → Prop}
    (hx : Gated x P) (hf : Gated (f ()) Q) : Gated (x >>= f) (fun n => P n ∧ Q n) where
  sound buf out h := by
    obtain ⟨_, mid, first, second⟩ := bind_run_ok_inv h
    obtain ⟨hP, hmid⟩ := hx.sound buf mid first
    obtain ⟨hQ, hout⟩ := hf.sound mid out second
    exact ⟨⟨hP, hmid ▸ hQ⟩, hout.trans hmid⟩
  complete buf h := by
    obtain ⟨mid, first⟩ := hx.complete buf h.1
    have hmid := (hx.sound buf mid first).2
    obtain ⟨out, second⟩ := hf.complete mid (hmid.symm ▸ h.2)
    exact ⟨out, by rw [bind_run_ok first, second]⟩

theorem Gated.forM {ι : Type} {f : ι → Edit ε Unit} {P : ι → Nat → Prop} {l : List ι}
    (step : ∀ i ∈ l, Gated (f i) (P i)) : Gated (l.forM f) (fun n => ∀ i ∈ l, P i n) := by
  induction l with
  | nil =>
    refine ⟨?_, ?_⟩
    · intro buf out h
      cases h
      exact ⟨fun i hi => absurd hi List.not_mem_nil, rfl⟩
    · intro buf _
      exact ⟨buf, rfl⟩
  | cons i l ih =>
    have whole := (step i List.mem_cons_self).bind (f := fun _ => l.forM f)
      (ih fun j hj => step j (List.mem_cons_of_mem i hj))
    refine ⟨?_, ?_⟩
    · intro buf out h
      obtain ⟨both, same⟩ := whole.sound buf out h
      exact ⟨List.forall_mem_cons.mpr both, same⟩
    · intro buf h
      exact whole.complete buf (List.forall_mem_cons.mp h)

theorem Gated.suffix {x : Edit ε Unit} {P : Nat → Prop} (hx : Gated x P) (lo : Nat) :
    Gated (Edit.suffix lo x) (fun n => lo ≤ n ∧ P (n - lo)) where
  sound buf out h := by
    by_cases hlo : lo ≤ buf.length
    · rw [suffix_run hlo] at h
      cases hrun : x.run (buf.drop lo) with
      | mk r rest =>
        rw [hrun] at h
        obtain ⟨rfl, rfl⟩ := Prod.mk.inj h
        obtain ⟨hP, same⟩ := hx.sound _ _ hrun
        rw [List.length_drop] at hP same
        refine ⟨⟨hlo, hP⟩, ?_⟩
        rw [List.length_append, List.length_take]
        dsimp only
        omega
    · rw [Edit.suffix] at h
      simp [hlo] at h
  complete buf h := by
    obtain ⟨rest, hrun⟩ := hx.complete (buf.drop lo) (by rw [List.length_drop]; exact h.2)
    exact ⟨_, by rw [suffix_run h.1, hrun]⟩

theorem Gated.mono {x : Edit ε Unit} {P Q : Nat → Prop} (hx : Gated x P)
    (same : ∀ n, P n ↔ Q n) : Gated x Q where
  sound buf out h := ⟨(same _).mp (hx.sound buf out h).1, (hx.sound buf out h).2⟩
  complete buf h := hx.complete buf ((same _).mpr h)

theorem Fills.gated {x : Edit ε Unit} {xs : Bytes} (hx : Fills x 0 xs)
    (short : ∀ buf, buf.length < xs.length → ∀ out, x.run buf ≠ (.ok (), out)) :
    Gated x (fun n => xs.length ≤ n) where
  sound buf out h := by
    by_cases room : xs.length ≤ buf.length
    · rw [hx.run_eq room] at h
      cases h
      refine ⟨room, ?_⟩
      rw [List.length_append, List.length_drop]
      omega
    · exact absurd h (short buf (by omega) out)
  complete buf h := ⟨_, hx.run_eq h⟩

end Edit

end LivoxMid360.Foundation.ByteBuffer
