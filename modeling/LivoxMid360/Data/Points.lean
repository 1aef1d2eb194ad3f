/- digest: Point and inertial samples, and the one shape their four codecs share. -/

import LivoxMid360.Foundation.ByteBuffer
import LivoxMid360.Protocol.Vocabulary

set_option autoImplicit false
set_option relaxedAutoImplicit false

namespace LivoxMid360.Data.Points

open Foundation.RustOutcome
open Foundation.LittleEndian
open Foundation.ByteBuffer
open Protocol.Vocabulary

/-- An `f32`, kept as its bit pattern. -/
structure F32 where
  bits : UInt32
  deriving DecidableEq, Repr

structure Tag where
  raw : UInt8
  deriving DecidableEq, Repr

structure Cartesian32Point where
  xMm : Int32
  yMm : Int32
  zMm : Int32
  reflectivity : UInt8
  tag : Tag
  deriving DecidableEq

structure Cartesian16Point where
  x10mm : Int16
  y10mm : Int16
  z10mm : Int16
  reflectivity : UInt8
  tag : Tag
  deriving DecidableEq

structure SphericalPoint where
  depthMm : UInt32
  theta001Deg : UInt16
  phi001Deg : UInt16
  reflectivity : UInt8
  tag : Tag
  deriving DecidableEq

structure ImuSample where
  gyroX : F32
  gyroY : F32
  gyroZ : F32
  accX : F32
  accY : F32
  accZ : F32
  deriving DecidableEq

instance : LeWord F32 := LeWord.ofEquiv F32.bits F32.mk (fun _ => rfl) (fun _ => rfl)

instance : LeWord Tag := LeWord.ofEquiv Tag.raw Tag.mk (fun _ => rfl) (fun _ => rfl)

instance : LeWord Cartesian32Point :=
  LeWord.ofEquiv (fun p => (p.xMm, p.yMm, p.zMm, p.reflectivity, p.tag))
    (fun (x, y, z, r, t) => ⟨x, y, z, r, t⟩) (fun _ => rfl) (fun _ => rfl)

instance : LeWord Cartesian16Point :=
  LeWord.ofEquiv (fun p => (p.x10mm, p.y10mm, p.z10mm, p.reflectivity, p.tag))
    (fun (x, y, z, r, t) => ⟨x, y, z, r, t⟩) (fun _ => rfl) (fun _ => rfl)

instance : LeWord SphericalPoint :=
  LeWord.ofEquiv (fun p => (p.depthMm, p.theta001Deg, p.phi001Deg, p.reflectivity, p.tag))
    (fun (d, θ, φ, r, t) => ⟨d, θ, φ, r, t⟩) (fun _ => rfl) (fun _ => rfl)

instance : LeWord ImuSample :=
  LeWord.ofEquiv (fun s => (s.gyroX, s.gyroY, s.gyroZ, s.accX, s.accY, s.accZ))
    (fun (gx, gy, gz, ax, ay, az) => ⟨gx, gy, gz, ax, ay, az⟩) (fun _ => rfl) (fun _ => rfl)

@[simp] theorem width_f32 : LeWord.width F32 = 4 := rfl
@[simp] theorem width_tag : LeWord.width Tag = 1 := rfl

/-- The parser shape of every sample: one size check, then the fields. -/
def parseSized {α : Type} (size : Nat) (fields : Bytes → Result α) (buf : Bytes) : Result α :=
  if buf.length < size then .err (.packetTooShort size buf.length) else fields buf

/-- The writer shape of every sample. -/
def writeSized (size : Nat) (fields : Edit LidarError Unit) : Edit LidarError Unit := do
  if (← Edit.len) < size then Edit.fail .bufferTooSmall else fields

def Cartesian32Point.size : Nat := 14

def Cartesian32Point.parse : Bytes → Result Cartesian32Point :=
  parseSized size fun buf => do
    return {
      xMm := ← readLe Int32 buf 0
      yMm := ← readLe Int32 buf 4
      zMm := ← readLe Int32 buf 8
      reflectivity := ← index buf 12
      tag := ⟨← index buf 13⟩ }

def Cartesian32Point.write (self : Cartesian32Point) : Edit LidarError Unit :=
  writeSized size do
    Edit.copyFromSlice 0 4 (toLe self.xMm)
    Edit.copyFromSlice 4 8 (toLe self.yMm)
    Edit.copyFromSlice 8 12 (toLe self.zMm)
    Edit.setIndex 12 self.reflectivity
    Edit.setIndex 13 self.tag.raw

def Cartesian16Point.size : Nat := 8

def Cartesian16Point.parse : Bytes → Result Cartesian16Point :=
  parseSized size fun buf => do
    return {
      x10mm := ← readLe Int16 buf 0
      y10mm := ← readLe Int16 buf 2
      z10mm := ← readLe Int16 buf 4
      reflectivity := ← index buf 6
      tag := ⟨← index buf 7⟩ }

def Cartesian16Point.write (self : Cartesian16Point) : Edit LidarError Unit :=
  writeSized size do
    Edit.copyFromSlice 0 2 (toLe self.x10mm)
    Edit.copyFromSlice 2 4 (toLe self.y10mm)
    Edit.copyFromSlice 4 6 (toLe self.z10mm)
    Edit.setIndex 6 self.reflectivity
    Edit.setIndex 7 self.tag.raw

def SphericalPoint.size : Nat := 10

def SphericalPoint.parse : Bytes → Result SphericalPoint :=
  parseSized size fun buf => do
    return {
      depthMm := ← readLe UInt32 buf 0
      theta001Deg := ← readLe UInt16 buf 4
      phi001Deg := ← readLe UInt16 buf 6
      reflectivity := ← index buf 8
      tag := ⟨← index buf 9⟩ }

def SphericalPoint.write (self : SphericalPoint) : Edit LidarError Unit :=
  writeSized size do
    Edit.copyFromSlice 0 4 (toLe self.depthMm)
    Edit.copyFromSlice 4 6 (toLe self.theta001Deg)
    Edit.copyFromSlice 6 8 (toLe self.phi001Deg)
    Edit.setIndex 8 self.reflectivity
    Edit.setIndex 9 self.tag.raw

def ImuSample.size : Nat := 24

def ImuSample.parse : Bytes → Result ImuSample :=
  parseSized size fun buf => do
    return {
      gyroX := ← readLe F32 buf 0
      gyroY := ← readLe F32 buf 4
      gyroZ := ← readLe F32 buf 8
      accX := ← readLe F32 buf 12
      accY := ← readLe F32 buf 16
      accZ := ← readLe F32 buf 20 }

def ImuSample.write (self : ImuSample) : Edit LidarError Unit :=
  writeSized size do
    Edit.copyFromSlice 0 4 (toLe self.gyroX)
    Edit.copyFromSlice 4 8 (toLe self.gyroY)
    Edit.copyFromSlice 8 12 (toLe self.gyroZ)
    Edit.copyFromSlice 12 16 (toLe self.accX)
    Edit.copyFromSlice 16 20 (toLe self.accY)
    Edit.copyFromSlice 20 24 (toLe self.accZ)

inductive Point
  | cartesian32 (p : Cartesian32Point)
  | cartesian16 (p : Cartesian16Point)
  | spherical (p : SphericalPoint)
  deriving DecidableEq

def Point.parse (dataType : DataType) (buf : Bytes) : Result Point :=
  match dataType with
  | .pointCloudCartesian32 => .cartesian32 <$> Cartesian32Point.parse buf
  | .pointCloudCartesian16 => .cartesian16 <$> Cartesian16Point.parse buf
  | .pointCloudSpherical => .spherical <$> SphericalPoint.parse buf
  | .imu => .err (.invalidDataType 0)

/-- The `match point` of the packet writer. -/
def Point.write : Point → Edit LidarError Unit
  | .cartesian32 p => p.write
  | .cartesian16 p => p.write
  | .spherical p => p.write

/-- A sample type whose parser and writer implement its byte layout behind a size check. -/
class Sample (α : Type) [LeWord α] where
  parse : Bytes → Result α
  write : α → Edit LidarError Unit
  parse_short : ∀ buf, buf.length < LeWord.width α →
    parse buf = .err (.packetTooShort (LeWord.width α) buf.length)
  parse_ok : ∀ buf, LeWord.width α ≤ buf.length → parse buf = .ok (field α 0 buf)
  write_short : ∀ a buf, buf.length < LeWord.width α →
    (write a).run buf = (.err .bufferTooSmall, buf)
  fills_write : ∀ a, Edit.Fills (write a) 0 (toLe a)

theorem parseSized_short {α : Type} {size : Nat} {fields : Bytes → Result α} {buf : Bytes}
    (h : buf.length < size) :
    parseSized size fields buf = .err (.packetTooShort size buf.length) := if_pos h

theorem parseSized_ok {α : Type} {size : Nat} {fields : Bytes → Result α} {buf : Bytes}
    (h : size ≤ buf.length) : parseSized size fields buf = fields buf := if_neg (by omega)

theorem writeSized_short {size : Nat} {fields : Edit LidarError Unit} {buf : Bytes}
    (h : buf.length < size) : (writeSized size fields).run buf = (.err .bufferTooSmall, buf) := by
  rw [writeSized, Edit.bind_run_ok (Edit.len_run buf), if_pos h, Edit.fail_run]

theorem fills_writeSized {size : Nat} {fields : Edit LidarError Unit} {xs : Bytes}
    (hsize : xs.length = size) (h : Edit.Fills fields 0 xs) :
    Edit.Fills (writeSized size fields) 0 xs := by
  intro pre rest hpre hroom
  have whole : size ≤ (pre ++ rest).length := by
    rw [List.length_append]
    omega
  rw [writeSized, Edit.bind_run_ok (Edit.len_run _), if_neg (by omega)]
  exact h pre rest hpre hroom

section Reads

variable {α β : Type} [LeWord α] {buf : Bytes}

/-- One field of a sample read in place, and the offset of the next. -/
theorem readLe_bind {off : Nat} (h : off + LeWord.width α ≤ buf.length)
    (f : α → Result β) : (readLe α buf off >>= f) = f (field α off buf) := by
  rw [readLe_ok h, Outcome.ok_bind]

theorem index_bind {off : Nat} (h : off + 1 ≤ buf.length) (f : UInt8 → Result β) :
    (index buf off >>= f) = f (field UInt8 off buf) := by
  rw [index_ok (by omega), Outcome.ok_bind]

end Reads

theorem field_tag (off : Nat) (bs : Bytes) : field Tag off bs = ⟨field UInt8 off bs⟩ := rfl

theorem field_cartesian32 (off : Nat) (bs : Bytes) :
    field Cartesian32Point off bs =
      ⟨field Int32 off bs, field Int32 (off + 4) bs, field Int32 (off + 8) bs,
        field UInt8 (off + 12) bs, field Tag (off + 13) bs⟩ := by
  show (fun (x, y, z, r, t) => (⟨x, y, z, r, t⟩ : Cartesian32Point))
    (field (Int32 × Int32 × Int32 × UInt8 × Tag) off bs) = _
  simp only [field_prod, width_i32, width_u8, Nat.add_assoc, Nat.reduceAdd]

theorem field_cartesian16 (off : Nat) (bs : Bytes) :
    field Cartesian16Point off bs =
      ⟨field Int16 off bs, field Int16 (off + 2) bs, field Int16 (off + 4) bs,
        field UInt8 (off + 6) bs, field Tag (off + 7) bs⟩ := by
  show (fun (x, y, z, r, t) => (⟨x, y, z, r, t⟩ : Cartesian16Point))
    (field (Int16 × Int16 × Int16 × UInt8 × Tag) off bs) = _
  simp only [field_prod, width_i16, width_u8, Nat.add_assoc, Nat.reduceAdd]

theorem field_spherical (off : Nat) (bs : Bytes) :
    field SphericalPoint off bs =
      ⟨field UInt32 off bs, field UInt16 (off + 4) bs, field UInt16 (off + 6) bs,
        field UInt8 (off + 8) bs, field Tag (off + 9) bs⟩ := by
  show (fun (d, θ, φ, r, t) => (⟨d, θ, φ, r, t⟩ : SphericalPoint))
    (field (UInt32 × UInt16 × UInt16 × UInt8 × Tag) off bs) = _
  simp only [field_prod, width_u32, width_u16, width_u8, Nat.add_assoc, Nat.reduceAdd]

theorem field_imu (off : Nat) (bs : Bytes) :
    field ImuSample off bs =
      ⟨field F32 off bs, field F32 (off + 4) bs, field F32 (off + 8) bs,
        field F32 (off + 12) bs, field F32 (off + 16) bs, field F32 (off + 20) bs⟩ := by
  show (fun (gx, gy, gz, ax, ay, az) => (⟨gx, gy, gz, ax, ay, az⟩ : ImuSample))
    (field (F32 × F32 × F32 × F32 × F32 × F32) off bs) = _
  simp only [field_prod, width_f32, Nat.add_assoc, Nat.reduceAdd]

@[simp] theorem width_cartesian32 : LeWord.width Cartesian32Point = 14 := rfl
@[simp] theorem width_cartesian16 : LeWord.width Cartesian16Point = 8 := rfl
@[simp] theorem width_spherical : LeWord.width SphericalPoint = 10 := rfl
@[simp] theorem width_imu : LeWord.width ImuSample = 24 := rfl

instance : Sample Cartesian32Point where
  parse := Cartesian32Point.parse
  write := Cartesian32Point.write
  parse_short _ h := parseSized_short h
  parse_ok buf h := by
    apply (parseSized_ok h).trans
    rw [width_cartesian32] at h
    rw [readLe_bind (by rw [width_i32]; omega),
      readLe_bind (by rw [width_i32]; omega), readLe_bind (by rw [width_i32]; omega),
      index_bind (by omega), index_bind (by omega), field_cartesian32, field_tag]
    rfl
  write_short _ _ h := writeSized_short h
  fills_write p := by
    apply fills_writeSized (length_toLe p)
    exact (Edit.fills_copyFromSlice (by simp)).seq (by simp) <|
      (Edit.fills_copyFromSlice (by simp)).seq (by simp) <|
      (Edit.fills_copyFromSlice (by simp)).seq (by simp) <|
      (Edit.fills_setIndex 12 p.reflectivity).seq (by simp) (Edit.fills_setIndex 13 p.tag.raw)

instance : Sample Cartesian16Point where
  parse := Cartesian16Point.parse
  write := Cartesian16Point.write
  parse_short _ h := parseSized_short h
  parse_ok buf h := by
    apply (parseSized_ok h).trans
    rw [width_cartesian16] at h
    rw [readLe_bind (by rw [width_i16]; omega),
      readLe_bind (by rw [width_i16]; omega), readLe_bind (by rw [width_i16]; omega),
      index_bind (by omega), index_bind (by omega), field_cartesian16, field_tag]
    rfl
  write_short _ _ h := writeSized_short h
  fills_write p := by
    apply fills_writeSized (length_toLe p)
    exact (Edit.fills_copyFromSlice (by simp)).seq (by simp) <|
      (Edit.fills_copyFromSlice (by simp)).seq (by simp) <|
      (Edit.fills_copyFromSlice (by simp)).seq (by simp) <|
      (Edit.fills_setIndex 6 p.reflectivity).seq (by simp) (Edit.fills_setIndex 7 p.tag.raw)

instance : Sample SphericalPoint where
  parse := SphericalPoint.parse
  write := SphericalPoint.write
  parse_short _ h := parseSized_short h
  parse_ok buf h := by
    apply (parseSized_ok h).trans
    rw [width_spherical] at h
    rw [readLe_bind (by rw [width_u32]; omega),
      readLe_bind (by rw [width_u16]; omega), readLe_bind (by rw [width_u16]; omega),
      index_bind (by omega), index_bind (by omega), field_spherical, field_tag]
    rfl
  write_short _ _ h := writeSized_short h
  fills_write p := by
    apply fills_writeSized (length_toLe p)
    exact (Edit.fills_copyFromSlice (by simp)).seq (by simp) <|
      (Edit.fills_copyFromSlice (by simp)).seq (by simp) <|
      (Edit.fills_copyFromSlice (by simp)).seq (by simp) <|
      (Edit.fills_setIndex 8 p.reflectivity).seq (by simp) (Edit.fills_setIndex 9 p.tag.raw)

instance : Sample ImuSample where
  parse := ImuSample.parse
  write := ImuSample.write
  parse_short _ h := parseSized_short h
  parse_ok buf h := by
    apply (parseSized_ok h).trans
    rw [width_imu] at h
    rw [readLe_bind (by rw [width_f32]; omega),
      readLe_bind (by rw [width_f32]; omega), readLe_bind (by rw [width_f32]; omega),
      readLe_bind (by rw [width_f32]; omega), readLe_bind (by rw [width_f32]; omega),
      readLe_bind (by rw [width_f32]; omega), field_imu]
    rfl
  write_short _ _ h := writeSized_short h
  fills_write s := by
    apply fills_writeSized (length_toLe s)
    exact (Edit.fills_copyFromSlice (by simp)).seq (by simp) <|
      (Edit.fills_copyFromSlice (by simp)).seq (by simp) <|
      (Edit.fills_copyFromSlice (by simp)).seq (by simp) <|
      (Edit.fills_copyFromSlice (by simp)).seq (by simp) <|
      (Edit.fills_copyFromSlice (by simp)).seq (by simp) (Edit.fills_copyFromSlice (by simp))

section Laws

variable {α : Type} [LeWord α] [Sample α]

theorem parse_returns (buf : Bytes) : (Sample.parse buf : Result α).Returns := by
  rcases Nat.lt_or_ge buf.length (LeWord.width α) with short | room
  · rw [Sample.parse_short buf short]
    exact Outcome.returns_err _
  · rw [Sample.parse_ok buf room]
    exact Outcome.returns_ok _

theorem gated_write (a : α) : Edit.Gated (Sample.write a) (fun n => LeWord.width α ≤ n) := by
  have gate := (Sample.fills_write a).gated ?_
  · rwa [length_toLe] at gate
  · intro buf short out h
    rw [length_toLe] at short
    rw [Sample.write_short a buf short] at h
    cases h

end Laws

namespace Point

/-- The data type that a point's variant belongs to. -/
def dataType : Point → DataType
  | .cartesian32 _ => .pointCloudCartesian32
  | .cartesian16 _ => .pointCloudCartesian16
  | .spherical _ => .pointCloudSpherical

def bytes : Point → Bytes
  | .cartesian32 p => toLe p
  | .cartesian16 p => toLe p
  | .spherical p => toLe p

theorem length_bytes (p : Point) : p.bytes.length = p.dataType.pointSize := by
  cases p with
  | cartesian32 p => exact length_toLe p
  | cartesian16 p => exact length_toLe p
  | spherical p => exact length_toLe p

theorem dataType_ne_imu (p : Point) : p.dataType ≠ .imu := by
  cases p <;> exact fun h => DataType.noConfusion h

theorem fills_write (p : Point) : Edit.Fills p.write 0 p.bytes := by
  cases p with
  | cartesian32 p => exact Sample.fills_write p
  | cartesian16 p => exact Sample.fills_write p
  | spherical p => exact Sample.fills_write p

theorem gated_write (p : Point) :
    Edit.Gated p.write (fun n => p.dataType.pointSize ≤ n) := by
  cases p with
  | cartesian32 p => exact Points.gated_write p
  | cartesian16 p => exact Points.gated_write p
  | spherical p => exact Points.gated_write p

theorem parse_returns (t : DataType) (buf : Bytes) : (Point.parse t buf).Returns := by
  cases t with
  | imu => exact Outcome.returns_err _
  | pointCloudCartesian32 =>
    exact (Points.parse_returns (α := Cartesian32Point) buf).bind fun _ _ => Outcome.returns_ok _
  | pointCloudCartesian16 =>
    exact (Points.parse_returns (α := Cartesian16Point) buf).bind fun _ _ => Outcome.returns_ok _
  | pointCloudSpherical =>
    exact (Points.parse_returns (α := SphericalPoint) buf).bind fun _ _ => Outcome.returns_ok _

private theorem parse_variant {α : Type} [LeWord α] [Sample α] {bs : Bytes} {wrap : α → Point}
    (sized : bs.length = LeWord.width α) (layout : ∀ a, (wrap a).bytes = toLe a)
    (p : Point) :
    wrap <$> (Sample.parse bs : Result α) = .ok p ↔ (∃ a, p = wrap a) ∧ p.bytes = bs := by
  rw [Sample.parse_ok bs (by omega), Outcome.map_ok]
  have back : toLe (field α 0 bs) = bs := by
    rw [toLe_field (by omega), List.drop_zero, List.take_of_length_le (by omega)]
  constructor
  · intro h
    cases h
    exact ⟨⟨_, rfl⟩, (layout _).trans back⟩
  · rintro ⟨⟨a, rfl⟩, hbytes⟩
    rw [layout] at hbytes
    have same : field α 0 bs = a := by
      have whole := field_toLe_append a []
      rwa [List.append_nil, hbytes] at whole
    rw [same]

/-- On a slice of exactly the format's size, parsing inverts the byte layout. -/
theorem parse_eq_ok_iff {t : DataType} {bs : Bytes} (sized : bs.length = t.pointSize)
    (p : Point) : Point.parse t bs = .ok p ↔ p.dataType = t ∧ p.bytes = bs := by
  cases t with
  | imu =>
    refine iff_of_false (fun h => ?_) (fun h => p.dataType_ne_imu h.1)
    cases h
  | pointCloudCartesian32 =>
    refine (parse_variant (α := Cartesian32Point) sized (fun _ => rfl) p).trans
      (and_congr_left fun _ => ?_)
    cases p <;> simp [dataType]
  | pointCloudCartesian16 =>
    refine (parse_variant (α := Cartesian16Point) sized (fun _ => rfl) p).trans
      (and_congr_left fun _ => ?_)
    cases p <;> simp [dataType]
  | pointCloudSpherical =>
    refine (parse_variant (α := SphericalPoint) sized (fun _ => rfl) p).trans
      (and_congr_left fun _ => ?_)
    cases p <;> simp [dataType]

theorem parse_ok {t : DataType} (ht : t ≠ .imu) {buf : Bytes} (h : t.pointSize ≤ buf.length) :
    ∃ p, Point.parse t buf = .ok p := by
  cases t with
  | imu => exact absurd rfl ht
  | pointCloudCartesian32 =>
    exact ⟨_, congrArg (Point.cartesian32 <$> ·) (Sample.parse_ok (α := Cartesian32Point) buf h)⟩
  | pointCloudCartesian16 =>
    exact ⟨_, congrArg (Point.cartesian16 <$> ·) (Sample.parse_ok (α := Cartesian16Point) buf h)⟩
  | pointCloudSpherical =>
    exact ⟨_, congrArg (Point.spherical <$> ·) (Sample.parse_ok (α := SphericalPoint) buf h)⟩

end Point

end LivoxMid360.Data.Points
