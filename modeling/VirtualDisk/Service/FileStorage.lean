import VirtualDisk.Service.Contents

/-!
# Service/FileStorage — the arithmetic of `CFileStorage` in its own types

`Init`, `ReadBlocks` and `WriteBlocks` with the widths and the signs they are written in.  The size
is a `LARGE_INTEGER`: its upper half is compared as a signed number, its quotient is narrowed.  The
address is widened before it is multiplied, the length is not.  None of it wraps, so the service may
compute with `fileStorageInit`, `ioPosition` and `ioLength`.
-/

namespace VirtualDisk

open Machinery Machinery.Bytes

/-! ## Large integers -/

/-- `LARGE_INTEGER`, by its `QuadPart`. -/
structure LargeInteger where
  quadPart : Int64
  deriving DecidableEq

namespace LargeInteger

/-- `HighPart`: the upper half, a `LONG`. -/
def highPart (x : LargeInteger) : Int32 := (x.quadPart.toUInt64 >>> 32).toUInt32.toInt32

/-- An unsigned number whose sign bit is clear is itself when it is read as a signed one. -/
theorem toInt_toInt32_of_lt {x : UInt32} (h : x.toNat < 2 ^ 31) : x.toInt32.toInt = x.toNat :=
  BitVec.toInt_eq_toNat_of_lt (by show 2 * x.toNat < 2 ^ 32; omega)

theorem toInt_toInt64_of_lt {x : UInt64} (h : x.toNat < 2 ^ 63) : x.toInt64.toInt = x.toNat :=
  BitVec.toInt_eq_toNat_of_lt (by show 2 * x.toNat < 2 ^ 64; omega)

end LargeInteger

/-- **The size of a file**, as `GetFileSizeEx` reports it. -/
structure FileSize extends LargeInteger where
  nonneg : 0 ≤ quadPart.toInt

namespace FileSize

/-- The size in bytes. -/
def bytes (size : FileSize) : ℕ := size.quadPart.toInt.toNat

variable (size : FileSize)

theorem toInt_quadPart : size.quadPart.toInt = size.bytes := (Int.toNat_of_nonneg size.nonneg).symm

theorem bytes_lt : size.bytes < 2 ^ 63 := size.quadPart.toNatClampNeg_lt

theorem toNat_toUInt64 : size.quadPart.toUInt64.toNat = size.bytes :=
  Int64.toNat_toUInt64_of_le (Int64.le_iff_toInt_le.mpr size.nonneg)

/-- The upper half of a size counts its multiples of `2 ^ 32`. -/
theorem toInt_highPart : size.highPart.toInt = (size.bytes / 2 ^ 32 : ℕ) := by
  have hlt : size.bytes / 2 ^ 32 < 2 ^ 31 := by
    have := size.bytes_lt
    omega
  have hhigh : (size.quadPart.toUInt64 >>> 32).toUInt32.toNat = size.bytes / 2 ^ 32 := by
    rw [UInt64.toNat_toUInt32, UInt64.toNat_shiftRight, toNat_toUInt64]
    show size.bytes >>> 32 % 2 ^ 32 = size.bytes / 2 ^ 32
    rw [Nat.shiftRight_eq_div_pow]
    exact Nat.mod_eq_of_lt (by omega)
  rw [LargeInteger.highPart, LargeInteger.toInt_toInt32_of_lt (by rw [hhigh]; exact hlt), hhigh]

/-- Its quotient by the size of a block. -/
theorem toInt_div : (size.quadPart / 512).toInt = (size.bytes / 512 : ℕ) := by
  have hmin : size.quadPart ≠ Int64.minValue := by
    intro h
    have hneg := size.nonneg
    rw [h] at hneg
    exact absurd hneg (by decide)
  rw [Int64.toInt_div_of_ne_left _ _ hmin, toInt_quadPart]
  rfl

/-- Nothing is lost when the quotient is read as an unsigned number. -/
theorem toNat_toUInt64_div : (size.quadPart / 512).toUInt64.toNat = size.bytes / 512 := by
  have hnonneg : (0 : Int64) ≤ size.quadPart / 512 := by
    rw [Int64.le_iff_toInt_le, size.toInt_div]
    exact Int.natCast_nonneg _
  rw [Int64.toNat_toUInt64_of_le hnonneg, ← Int64.toNat_toInt, size.toInt_div]
  rfl

end FileSize

/-! ## The storage -/

namespace CFileStorage

/-- `CFileStorage::Init`: `opened` and `fileSize` are the results of `CreateFileW` and
`GetFileSizeEx`. -/
def init (opened : Bool) (fileSize : Option FileSize) : Option Geometry :=
  if opened = false then none
  else match fileSize with
    | none => none
    | some fileSize =>
      if 512 ≤ fileSize.highPart then none
      else some { nBlocks := (fileSize.quadPart / 512).toUInt64.toUInt32, blockSize := 512 }

/-- `length`, in `ReadBlocks` and `WriteBlocks`. -/
def length (g : Geometry) (transferBlocks : ULONG) : ULONG := transferBlocks * g.blockSize

/-- `pos`, in `ReadBlocks` and `WriteBlocks`. -/
def pos (g : Geometry) (logicalBlockAddress : ULONG) : LargeInteger where
  quadPart := logicalBlockAddress.toUInt64.toInt64 * g.blockSize.toUInt64.toInt64

/-- `CFileStorage::ReadBlocks`, its calls successful: the result and `*nBytes`, and the buffer. -/
def readBlocks (g : Geometry) (logicalBlockAddress transferBlocks : ULONG) (buffer : Bytes)
    (f : File) : (Bool × Option ULONG) × Bytes :=
  let r := f.read (pos g logicalBlockAddress).quadPart.toInt.toNat
    (length g transferBlocks).toNat buffer
  ((true, some (UInt32.ofNat r.2)), r.1)

/-- `CFileStorage::WriteBlocks`, its calls successful: the result and `*nBytes`, and the file. -/
def writeBlocks (g : Geometry) (logicalBlockAddress transferBlocks : ULONG) (buffer : Bytes)
    (f : File) : (Bool × Option ULONG) × File :=
  ((true, some (length g transferBlocks)),
    f.write (pos g logicalBlockAddress).quadPart.toInt.toNat (length g transferBlocks).toNat buffer)

section Init

variable {fileSize : FileSize} {g : Geometry}

/-- **`Init` computes the geometry of a file of so many bytes.** -/
theorem init_eq (fileSize : FileSize) :
    init true (some fileSize) = fileStorageInit fileSize.bytes := by
  have hguard : 512 ≤ fileSize.highPart ↔ 512 ≤ fileSize.bytes / 2 ^ 32 := by
    rw [Int32.le_iff_toInt_le, fileSize.toInt_highPart]
    exact Int.ofNat_le
  have hblocks : (fileSize.quadPart / 512).toUInt64.toUInt32 =
      UInt32.ofNat (fileSize.bytes / 512) := by
    rw [← fileSize.toNat_toUInt64_div, UInt32.ofNat_uInt64ToNat]
  simp only [init, fileStorageInit, hguard, hblocks, Bool.true_eq_false, if_false]

/-- An accepted size is the size of a storage. -/
theorem backing_of_init (h : init true (some fileSize) = some g) :
    (Backing.file fileSize.bytes).init = some g := by
  rwa [init_eq] at h

theorem toNat_blockSize (h : init true (some fileSize) = some g) : g.blockSize.toNat = 512 :=
  (Backing.toNat_of_init (backing_of_init h)).2

end Init

section Operations

variable {g : Geometry} {lba transferBlocks : ULONG}

/-- `pos` holds the bits of `ioPosition`. -/
theorem quadPart_pos : (pos g lba).quadPart = (ioPosition lba g.blockSize).toInt64 := rfl

/-- **The address is widened before it is multiplied**: the position is that of the integers. -/
theorem toInt_pos (hg : g.blockSize.toNat = 512) :
    (pos g lba).quadPart.toInt = (lba.toNat * 512 : ℕ) := by
  have hlt := lba.toNat_lt
  have hpos := toNat_ioPosition lba g.blockSize
  rw [hg] at hpos
  rw [quadPart_pos, LargeInteger.toInt_toInt64_of_lt (by rw [hpos]; omega), hpos]

/-- The position the service uses. -/
theorem toNat_pos (hg : g.blockSize.toNat = 512) :
    (pos g lba).quadPart.toInt.toNat = (ioPosition lba g.blockSize).toNat := by
  rw [toInt_pos hg, toNat_ioPosition, hg]
  rfl

/-- **The 16 bits of a CDB are enough for the length**: it is that of the integers. -/
theorem toNat_length (hg : g.blockSize.toNat = 512) (ht : transferBlocks.toNat < 2 ^ 16) :
    (length g transferBlocks).toNat = transferBlocks.toNat * 512 := by
  have h := @toNat_ioLength transferBlocks g.blockSize (by rw [hg]; omega)
  rwa [hg] at h

/-- **`ReadBlocks` and `WriteBlocks` work on this position and this length.** -/
theorem blocks_exact (hg : g.blockSize.toNat = 512) (ht : transferBlocks.toNat < 2 ^ 16)
    (buffer : Bytes) (f : File) :
    readBlocks g lba transferBlocks buffer f =
      (let r := f.read (lba.toNat * 512) (transferBlocks.toNat * 512) buffer
       ((true, some (UInt32.ofNat r.2)), r.1)) ∧
    writeBlocks g lba transferBlocks buffer f =
      ((true, some (UInt32.ofNat (transferBlocks.toNat * 512))),
        f.write (lba.toNat * 512) (transferBlocks.toNat * 512) buffer) := by
  have hlength : length g transferBlocks = UInt32.ofNat (transferBlocks.toNat * 512) := by
    rw [← toNat_length hg ht, UInt32.ofNat_toNat]
  have hpos : (pos g lba).quadPart.toInt.toNat = lba.toNat * 512 := by
    rw [toInt_pos hg, Int.toNat_natCast]
  constructor
  · rw [readBlocks, hpos, toNat_length hg ht]
  · rw [writeBlocks, hpos, toNat_length hg ht, hlength]

end Operations

/-- The blocks of a request fit in 16 bits. -/
theorem transferBlocks_lt (pdo : PdoDeviceData) (srb : ScsiRequestBlock) :
    (busSetupRequest pdo srb).transferBlocks.toNat < 2 ^ 16 := by
  rw [busSetupRequest, UInt16.toNat_toUInt32]
  exact srb.cdb.transferBlocks.toNat_lt

/-- **A storage operation of the service is this one**, for a request for a file. -/
theorem perform_eq {req : BusenumRequest} {g : Geometry} (hg : g.blockSize.toNat = 512)
    (buffer : Bytes) (f : File) : IoOutcome.complete.perform req g buffer f =
      if req.code = scsiopRead.toUInt32 then
        let r := readBlocks g req.logicalBlockAddress req.transferBlocks buffer f
        (r.1, r.2, f)
      else
        let r := writeBlocks g req.logicalBlockAddress req.transferBlocks buffer f
        (r.1, buffer, r.2) := by
  rw [readBlocks, writeBlocks, toNat_pos hg]
  rfl

/-- **Storage arithmetic never wraps**, and `ReadBlocks` and `WriteBlocks` work on its results. -/
theorem arithmetic_exact {fileSize : FileSize} {g : Geometry}
    (h : init true (some fileSize) = some g) :
    (g.nBlocks.toNat : ℤ) = fileSize.quadPart.toInt / 512 ∧
    (∀ pdo srb, (busSetupRequest pdo srb).transferBlocks.toNat < 2 ^ 16) ∧
    ∀ lba transferBlocks : ULONG, transferBlocks.toNat < 2 ^ 16 →
      (pos g lba).quadPart.toInt = lba.toNat * 512 ∧
      (length g transferBlocks).toNat = transferBlocks.toNat * 512 ∧
      (lba.toNat + transferBlocks.toNat ≤ g.nBlocks.toNat →
        (pos g lba).quadPart.toInt + (length g transferBlocks).toNat ≤
          fileSize.quadPart.toInt) ∧
      ∀ (buffer : Bytes) (f : File),
        readBlocks g lba transferBlocks buffer f =
          (let r := f.read (lba.toNat * 512) (transferBlocks.toNat * 512) buffer
           ((true, some (UInt32.ofNat r.2)), r.1)) ∧
        writeBlocks g lba transferBlocks buffer f =
          ((true, some (UInt32.ofNat (transferBlocks.toNat * 512))),
            f.write (lba.toNat * 512) (transferBlocks.toNat * 512) buffer) := by
  have hblocks : g.nBlocks.toNat = fileSize.bytes / 512 :=
    (Backing.toNat_of_init (backing_of_init h)).1
  have hg := toNat_blockSize h
  refine ⟨?_, transferBlocks_lt, fun lba transferBlocks ht => ?_⟩
  · rw [fileSize.toInt_quadPart, hblocks]
    rfl
  · rw [toInt_pos hg, toNat_length hg ht, fileSize.toInt_quadPart, hblocks]
    refine ⟨by push_cast; rfl, rfl, fun hle => ?_, blocks_exact hg ht⟩
    -- what lies beyond the last whole block is not addressed
    have hbytes : fileSize.bytes / 512 * 512 ≤ fileSize.bytes := Nat.div_mul_le_self _ _
    omega

/-- The largest file accepted. -/
def largestFile : FileSize := ⟨⟨0x1FFFFFFFFFF⟩, by decide⟩

/-- The last block of it. -/
theorem arithmetic_exact_largest :
    init true (some largestFile) = some ⟨0xFFFFFFFF, 512⟩ ∧
    (pos ⟨0xFFFFFFFF, 512⟩ 0xFFFFFFFE).quadPart.toInt = 0xFFFFFFFE * 512 := by
  have h : init true (some largestFile) = some ⟨0xFFFFFFFF, 512⟩ := by decide
  exact ⟨h, ((arithmetic_exact h).2.2 0xFFFFFFFE 1 (by decide)).1⟩

end CFileStorage

end VirtualDisk
