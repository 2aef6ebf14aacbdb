import VirtualDisk.Driver.Types

/-!
# Service/Storage — what backs a disk

`CFileStorage` and `CVmdkStorage`: the geometry their `Init` computes, the registration that hands
it to the driver, and the file operations of `CFileStorage`.  A `Storage` is one whose `Init`
returned TRUE, so its geometry is the one computed.
-/

namespace VirtualDisk

open Machinery Machinery.Bytes

/-! ## Geometry -/

/-- `m_nBlocks` and `m_BlockSize`. -/
structure Geometry where
  nBlocks : ULONG
  blockSize : ULONG
  deriving DecidableEq, Repr

/-- What backs a disk: a file of so many bytes, or a virtual disk of so many sectors of the
library's `VIXDISKLIB_SECTOR_SIZE`. -/
inductive Backing
  | file (fileSize : ℕ)
  | vmdk (capacity : ℕ) (sectorSize : ULONG)
  deriving DecidableEq, Repr

/-- `CFileStorage::Init`, the file opened and its size read. -/
def fileStorageInit (fileSize : ℕ) : Option Geometry :=
  if 512 ≤ fileSize / 2 ^ 32 then none
  else some { nBlocks := UInt32.ofNat (fileSize / 512), blockSize := 512 }

/-- `MAX_UINT32`. -/
def maxUint32 : ℕ := 0xFFFFFFFF

/-- `CVmdkStorage::Init`, the disk opened and its information read. -/
def vmdkStorageInit (capacity : ℕ) (sectorSize : ULONG) : Option Geometry :=
  if maxUint32 < capacity then none
  else some { nBlocks := UInt32.ofNat capacity, blockSize := sectorSize }

namespace Backing

/-- `IDiskStorage::Init`. -/
def init : Backing → Option Geometry
  | .file fileSize => fileStorageInit fileSize
  | .vmdk capacity sectorSize => vmdkStorageInit capacity sectorSize

/-- The whole blocks it holds. -/
def blocks : Backing → ℕ
  | .file fileSize => fileSize / 512
  | .vmdk capacity _ => capacity

/-- The size of a block. -/
def blockSize : Backing → ℕ
  | .file _ => 512
  | .vmdk _ sectorSize => sectorSize.toNat

/-- **The geometry computed is the geometry of the backing**: nothing is lost in 32 bits. -/
theorem toNat_of_init {b : Backing} {g : Geometry} (h : b.init = some g) :
    g.nBlocks.toNat = b.blocks ∧ g.blockSize.toNat = b.blockSize := by
  cases b with
  | file fileSize =>
    simp only [init, fileStorageInit] at h
    split at h
    · cases h
    · next hs =>
      obtain rfl := Option.some.inj h
      refine ⟨?_, rfl⟩
      show (UInt32.ofNat (fileSize / 512)).toNat = fileSize / 512
      rw [UInt32.toNat_ofNat']
      exact Nat.mod_eq_of_lt (by omega)
  | vmdk capacity sectorSize =>
    rcases Nat.lt_or_ge maxUint32 capacity with hs | hs
    · rw [init, vmdkStorageInit, if_pos hs] at h
      cases h
    · rw [init, vmdkStorageInit, if_neg (Nat.not_lt.mpr hs)] at h
      obtain rfl := Option.some.inj h
      refine ⟨?_, rfl⟩
      show (UInt32.ofNat capacity).toNat = capacity
      rw [UInt32.toNat_ofNat']
      exact Nat.mod_eq_of_lt (Nat.lt_succ_of_le hs)

end Backing

/-- **A storage whose `Init` returned TRUE.** -/
structure Storage where
  backing : Backing
  geometry : Geometry
  init_eq : backing.init = some geometry

namespace Storage

theorem toNat_nBlocks (st : Storage) : st.geometry.nBlocks.toNat = st.backing.blocks :=
  (Backing.toNat_of_init st.init_eq).1

theorem toNat_blockSize (st : Storage) : st.geometry.blockSize.toNat = st.backing.blockSize :=
  (Backing.toNat_of_init st.init_eq).2

end Storage

/-- `CDiskServer::RegisterWithDriver`: what it asks the driver to add.  `buffer` and `removeEvent`
are the processor's `m_Buffer` and `m_hRemoveEvent`. -/
def registerWithDriver (diskId : ULONG) (g : Geometry) (buffer : BufferId) (removeEvent : EventId) :
    BusenumAddDisk where
  handle := diskId
  nBlocks := g.nBlocks
  blockSize := g.blockSize
  buffer := buffer
  removeEvent := removeEvent

/-! ## File operations -/

/-- A file: its size and its bytes. -/
structure File where
  size : ℕ
  bytes : Bytes

namespace File

/-- `ReadFile` at a position: the bytes up to the end of the file are copied to the start of the
buffer, and counted. -/
def read (f : File) (pos length : ℕ) (buffer : Bytes) : Bytes × ℕ :=
  (overwrite buffer 0 (min length (f.size - pos)) (window f.bytes pos), min length (f.size - pos))

/-- `WriteFile` at a position: a file that is too short is extended. -/
def write (f : File) (pos length : ℕ) (buffer : Bytes) : File where
  size := max f.size (pos + length)
  bytes := overwrite f.bytes pos length buffer

/-- A read inside the file gets all its bytes. -/
theorem read_of_le {f : File} {pos length : ℕ} {buffer : Bytes} (h : pos + length ≤ f.size) :
    f.read pos length buffer = (overwrite buffer 0 length (window f.bytes pos), length) := by
  have hmin : min length (f.size - pos) = length := Nat.min_eq_left (by omega)
  rw [read, hmin]

/-- A write inside the file leaves its size alone. -/
theorem size_write_of_le {f : File} {pos length : ℕ} {buffer : Bytes}
    (h : pos + length ≤ f.size) : (f.write pos length buffer).size = f.size :=
  Nat.max_eq_left h

end File

/-- The length `CFileStorage::ReadBlocks` and `WriteBlocks` pass to the file, in 32 bits. -/
def ioLength (transferBlocks blockSize : ULONG) : ULONG := transferBlocks * blockSize

/-- The position they seek to, in 64 bits. -/
def ioPosition (logicalBlockAddress blockSize : ULONG) : UInt64 :=
  logicalBlockAddress.toUInt64 * blockSize.toUInt64

/-- A product of two 32-bit numbers fits in 64 bits. -/
theorem toNat_ioPosition (lba blockSize : ULONG) :
    (ioPosition lba blockSize).toNat = lba.toNat * blockSize.toNat := by
  have hl := lba.toNat_lt
  have hs := blockSize.toNat_lt
  rw [ioPosition, UInt64.toNat_mul, UInt32.toNat_toUInt64, UInt32.toNat_toUInt64]
  refine Nat.mod_eq_of_lt ?_
  calc lba.toNat * blockSize.toNat
      < 2 ^ 32 * 2 ^ 32 := Nat.mul_lt_mul'' hl hs
    _ = 2 ^ 64 := rfl

theorem toNat_ioLength {blocks blockSize : ULONG} (h : blocks.toNat * blockSize.toNat < 2 ^ 32) :
    (ioLength blocks blockSize).toNat = blocks.toNat * blockSize.toNat := by
  rw [ioLength, UInt32.toNat_mul]
  exact Nat.mod_eq_of_lt h

end VirtualDisk
