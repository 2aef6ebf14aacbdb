import VirtualDisk.Driver.Children
import VirtualDisk.Driver.Ioctl
import VirtualDisk.Service.Storage

/-!
# Service/Limits — advertised capacity and transfer lengths

Two numbers cross from the storage to the initiator and back: the number of blocks, which goes out
through ADD_DISK, the PDO and the READ_CAPACITY reply, or the cylinders of the drive geometry; and
the lengths of a transfer, of which the driver, the service and the driver again each use their own.
-/

namespace VirtualDisk

open Machinery Machinery.Bytes

variable {b b' : Bus} {p : PdoId}

/-! ## Capacity -/

/-- The last logical block address in a READ_CAPACITY reply, as the initiator decodes it. -/
def lastBlockAddress (data : Bytes) : ℕ :=
  (data 0).toNat * 2 ^ 24 + (data 1).toNat * 2 ^ 16 + (data 2).toNat * 2 ^ 8 + (data 3).toNat

/-- The block length in a READ_CAPACITY reply. -/
def blockLength (data : Bytes) : ℕ :=
  (data 4).toNat * 2 ^ 24 + (data 5).toNat * 2 ^ 16 + (data 6).toNat * 2 ^ 8 + (data 7).toNat

/-- The big-endian integer of the reversed bytes is the integer. -/
theorem toNat_reverseLong (x : ULONG) :
    (FourByte.ofULong x).reverseLong.byte0.toNat * 2 ^ 24
      + (FourByte.ofULong x).reverseLong.byte1.toNat * 2 ^ 16
      + (FourByte.ofULong x).reverseLong.byte2.toNat * 2 ^ 8
      + (FourByte.ofULong x).reverseLong.byte3.toNat = x.toNat := by
  have h := FourByte.toNat_toULong (FourByte.ofULong x)
  rw [FourByte.toULong_ofULong] at h
  rw [h]
  dsimp only [FourByte.reverseLong]
  omega

/-- **The READ_CAPACITY reply** spells the PDO's `nBlocks` and `BlockSize`. -/
theorem readCapacity_answer (pdo : PdoDeviceData) {srb : ScsiRequestBlock}
    (hop : srb.cdb.operationCode = scsiopReadCapacity) :
    ∃ pdo' srb' info, busExecuteCommand pdo srb = .answered statusSuccess pdo' srb' info ∧
      lastBlockAddress srb'.dataBuffer = pdo.nBlocks.toNat ∧
      blockLength srb'.dataBuffer = pdo.blockSize.toNat := by
  have hne : ¬ (scsiopReadCapacity = scsiopTestUnitReady ∨ scsiopReadCapacity = scsiopVerify) := by
    decide
  have h : busExecuteCommand pdo srb = .answered statusSuccess
      (setSenseInfo pdo srb.senseInfoBuffer scsiSenseNoSense scsiAdsenseNoSense 0).1
      { srb with
        dataBuffer := overwrite srb.dataBuffer 0 8 (readCapacityData pdo).bytes
        senseInfoBuffer :=
          (setSenseInfo pdo srb.senseInfoBuffer scsiSenseNoSense scsiAdsenseNoSense 0).2
        srbStatus := srbStatusSuccess
        scsiStatus := scsistatGood } (some srb.dataTransferLength) := by
    simp only [busExecuteCommand, hop, if_neg hne, if_true]
  exact ⟨_, _, _, h, toNat_reverseLong pdo.nBlocks, toNat_reverseLong pdo.blockSize⟩

namespace Backing

/-- The size in bytes. -/
def size : Backing → ℕ
  | .file fileSize => fileSize
  | .vmdk capacity sectorSize => capacity * sectorSize.toNat

/-- **The reply advertises this storage**: its blocks are those up to the last address, and every
block it lets the initiator address lies in the storage. -/
structure Advertised (st : Backing) (data : Bytes) : Prop where
  last : lastBlockAddress data + 1 = st.blocks
  length : blockLength data = st.blockSize
  inside : ∀ lba ≤ lastBlockAddress data, (lba + 1) * st.blockSize ≤ st.size

/-- One block more than a storage holds is more than it holds. -/
theorem size_lt (st : Backing) (hs : 0 < st.blockSize) :
    st.size < (st.blocks + 1) * st.blockSize := by
  cases st with
  | file fileSize =>
    show fileSize < (fileSize / 512 + 1) * 512
    omega
  | vmdk capacity sectorSize => exact Nat.mul_lt_mul_of_pos_right (Nat.lt_succ_self _) hs

end Backing

/-- The command was answered at once with data that advertise the storage. -/
def CommandResult.Advertises (r : CommandResult) (st : Backing) : Prop :=
  ∃ pdo srb info, r = .answered statusSuccess pdo srb info ∧ st.Advertised srb.dataBuffer

namespace Driver

variable {s : Driver}

/-- **The disks are the service's**: the ADD_DISK that creates the PDO `p` is the registration of
the storage `reg p`. -/
def Registers (reg : PdoId → Storage) (s : Driver) : Action → Prop
  | .step t true => ∀ dd, s.calls t = .addCreate dd → ∃ diskId buffer removeEvent,
      dd = registerWithDriver diskId (reg s.bus.pdoCount).geometry buffer removeEvent
  | _ => True

/-- A PDO has the geometry of its storage. -/
def Geometries (reg : PdoId → Storage) (s : Driver) : Prop :=
  ∀ p < s.bus.pdoCount, (s.bus.pdos p).nBlocks = (reg p).geometry.nBlocks ∧
    (s.bus.pdos p).blockSize = (reg p).geometry.blockSize

variable {reg : PdoId → Storage}

/-- **Every PDO has the geometry of its storage**, in every run that meets the condition. -/
theorem geometries (h : lts.Reach (Registers reg) s) : s.Geometries reg := by
  refine h.invariant (I := Geometries reg) ?_ fun s a s' hr hi hC hs => ?_
  · intro p hp
    exact absurd hp (Nat.not_lt_zero p)
  rcases step_moves hs with ⟨t, b', pc', m, rfl⟩ | ⟨m, f, -, rfl⟩ | ⟨e, -, -, rfl⟩
  · intro p hp
    rcases Nat.lt_or_ge p s.bus.pdoCount with hlt | hge
    · obtain ⟨-, hn, hb, -⟩ := m.identity hlt
      exact ⟨hn.trans (hi p hlt).1, hb.trans (hi p hlt).2⟩
    · obtain ⟨rfl, dd, hpc, rfl, -, hd⟩ := m.creates hp hge
      obtain ⟨diskId, buffer, removeEvent, rfl⟩ := hC dd hpc
      rw [put_bus, hd]
      exact ⟨rfl, rfl⟩
  · exact hi
  · exact hi

/-- **The capacity advertised is one block more than the storage has**: the last address in the
reply is the number of blocks, and a block there does not lie in the storage. -/
theorem capacity_overstated (h : lts.Reach (Registers reg) s) (hp : p < s.bus.pdoCount)
    {srb : ScsiRequestBlock} (hop : srb.cdb.operationCode = scsiopReadCapacity) :
    ¬ (busExecuteCommand (s.bus.pdos p) srb).Advertises (reg p).backing ∧
    ∃ pdo' srb' info,
      busExecuteCommand (s.bus.pdos p) srb = .answered statusSuccess pdo' srb' info ∧
      lastBlockAddress srb'.dataBuffer = (reg p).backing.blocks ∧
      blockLength srb'.dataBuffer = (reg p).backing.blockSize ∧
      (0 < (reg p).backing.blockSize → (reg p).backing.size <
        (lastBlockAddress srb'.dataBuffer + 1) * (reg p).backing.blockSize) := by
  obtain ⟨pdo', srb', info, hr, hlast, hlen⟩ := readCapacity_answer (s.bus.pdos p) hop
  obtain ⟨hn, hb⟩ := geometries h p hp
  rw [hn, Storage.toNat_nBlocks] at hlast
  rw [hb, Storage.toNat_blockSize] at hlen
  refine ⟨?_, pdo', srb', info, hr, hlast, hlen, fun hs => hlast ▸ (reg p).backing.size_lt hs⟩
  rintro ⟨pdo₂, srb₂, info₂, hr₂, had⟩
  obtain ⟨-, -, rfl, -⟩ := CommandResult.answered.inj (hr.symm.trans hr₂)
  have hsucc := had.last
  rw [hlast] at hsucc
  exact absurd hsucc (Nat.succ_ne_self _)

/-- A file of eight blocks. -/
def smallFile : Storage := ⟨.file 4096, ⟨8, 512⟩, rfl⟩

/-- A READ_CAPACITY. -/
def readCapacitySrb : ScsiRequestBlock where
  cdb := { operationCode := scsiopReadCapacity }
  dataTransferLength := 8

/-- The registrations of one storage. -/
def registersOnly (st : Storage) (s : Driver) : Action → Bool
  | .step t true => match s.calls t with
    | .addCreate dd => dd = registerWithDriver 1 st.geometry 0 0
    | _ => true
  | _ => true

theorem registers_of_only {st : Storage} (s : Driver) (a : Action)
    (h : registersOnly st s a = true) : Registers (fun _ => st) s a := by
  cases a with
  | step t ok =>
    cases ok with
    | true =>
      intro dd hdd
      simp only [registersOnly, hdd, decide_eq_true_eq] at h
      exact ⟨1, 0, 0, h⟩
    | false => trivial
  | _ => trivial

/-- A disk registered for a file. -/
theorem exists_registered : ∃ s, lts.Reach (Registers fun _ => smallFile) s ∧
    s.bus.pdoCount = 1 :=
  lts.exists_reach registers_of_only
    (routine (.sys 0) (.addDisk (registerWithDriver 1 smallFile.geometry 0 0)) 3)
    (fun s => s.bus.pdoCount = 1) (by decide +kernel)

/-- The capacity advertised for a file of eight blocks. -/
theorem capacity_overstated_file : ∃ s : Driver, s.bus.pdoCount = 1 ∧
    ¬ (busExecuteCommand (s.bus.pdos 0) readCapacitySrb).Advertises (.file 4096) := by
  obtain ⟨s, hs, hcount⟩ := exists_registered
  exact ⟨s, hcount, (capacity_overstated hs (by rw [hcount]; exact Nat.one_pos) rfl).1⟩

/-- **The capacity is not the storage's** for a file of eight blocks: its reply has 8 as the last
address. -/
theorem not_capacity : ¬ ∀ (reg : PdoId → Storage) (s : Driver) (p : PdoId)
    (srb : ScsiRequestBlock), lts.Reach (Registers reg) s → p < s.bus.pdoCount →
    1 ≤ (reg p).backing.blocks → srb.cdb.operationCode = scsiopReadCapacity →
    (busExecuteCommand (s.bus.pdos p) srb).Advertises (reg p).backing := by
  intro h
  obtain ⟨s, hs, hcount⟩ := exists_registered
  obtain ⟨pdo, srb, info, hr, had⟩ := h (fun _ => smallFile) s 0 readCapacitySrb hs
    (by rw [hcount]; exact Nat.one_pos) (by decide) rfl
  obtain ⟨pdo', srb', info', hr', hlast, -⟩ := readCapacity_answer (s.bus.pdos 0)
    (show readCapacitySrb.cdb.operationCode = scsiopReadCapacity from rfl)
  obtain ⟨-, -, rfl, -⟩ := CommandResult.answered.inj (hr.symm.trans hr')
  have hsucc := had.last
  rw [hlast, (geometries hs 0 (by rw [hcount]; exact Nat.one_pos)).1] at hsucc
  exact absurd hsucc (by decide)

end Driver

/-! ## Drive geometry -/

/-- **The cylinders describe a disk of so many bytes**: the largest number of whole cylinders. -/
def DiskGeometry.Describes (g : DiskGeometry) (bytes : ℕ) : Prop :=
  g.cylinders * 255 * 63 * 512 ≤ bytes ∧ (bytes : ℤ) < (g.cylinders + 1) * 255 * 63 * 512

/-- The bytes `diskGeometry` divides are those of the disk, short of multiples of `2 ^ 32`. -/
theorem diskGeometry_cylinders (pdo : PdoDeviceData) : (diskGeometry pdo).cylinders =
    ((pdo.nBlocks.toNat * pdo.blockSize.toNat % 2 ^ 32 / 8225280 : ℕ) : ℤ) := by
  rw [diskGeometry, UInt32.toNat_mul, Nat.mul_comm]
  rfl

/-- **The geometry describes the whole disk exactly when** its size does not wrap. -/
theorem diskGeometry_describes_iff (pdo : PdoDeviceData) :
    (diskGeometry pdo).Describes (pdo.nBlocks.toNat * pdo.blockSize.toNat) ↔
      pdo.nBlocks.toNat * pdo.blockSize.toNat < 2 ^ 32 := by
  rw [DiskGeometry.Describes, diskGeometry_cylinders]
  generalize pdo.nBlocks.toNat * pdo.blockSize.toNat = bytes
  constructor
  · rintro ⟨-, hlt⟩
    -- a whole multiple of 2 ^ 32 is lost, and a cylinder has less
    by_contra hge
    have hdiv : bytes % 2 ^ 32 / 8225280 * 8225280 ≤ bytes % 2 ^ 32 := Nat.div_mul_le_self _ _
    omega
  · intro hlt
    rw [Nat.mod_eq_of_lt hlt]
    omega

namespace Driver

variable {s : Driver} {reg : PdoId → Storage} {c : DeviceIoControl}

/-- **The drive geometry of a registered disk describes its storage exactly when** the storage is
smaller than 4 GiB: its size is computed in 32 bits. -/
theorem driveGeometry_iff (h : lts.Reach (Registers reg) s) (hp : p < s.bus.pdoCount)
    (lock : NTSTATUS) (info : ULONG) (hlock : ntSuccess lock = true)
    (hc : c.ioControlCode = ioctlDiskGetDriveGeometry)
    (hout : sizeofDiskGeometry ≤ c.outputBufferLength) :
    ∃ g, busPdoIoCtl lock info (s.bus.pdos p) c =
        { status := statusSuccess, information := sizeofDiskGeometry,
          output := some (.geometry g) } ∧
      (g.Describes ((reg p).backing.blocks * (reg p).backing.blockSize) ↔
        (reg p).backing.blocks * (reg p).backing.blockSize < 2 ^ 32) := by
  obtain ⟨hn, hb⟩ := geometries h p hp
  refine ⟨diskGeometry (s.bus.pdos p), ?_, ?_⟩
  · rw [busPdoIoCtl_of_lock hlock, busPdoAnswer_geometry hc hout]
  · have hiff := diskGeometry_describes_iff (s.bus.pdos p)
    rwa [hn, hb, Storage.toNat_nBlocks, Storage.toNat_blockSize] at hiff

/-- A query for the drive geometry. -/
def geometryQuery : DeviceIoControl where
  ioControlCode := ioctlDiskGetDriveGeometry
  outputBufferLength := sizeofDiskGeometry

/-- The drive geometry of a file of eight blocks. -/
theorem driveGeometry_file : ∃ (s : Driver) (g : DiskGeometry), s.bus.pdoCount = 1 ∧
    busPdoIoCtl statusSuccess 0 (s.bus.pdos 0) geometryQuery =
      { status := statusSuccess, information := sizeofDiskGeometry, output := some (.geometry g) } ∧
    (g.Describes (8 * 512) ↔ 8 * 512 < 2 ^ 32) := by
  obtain ⟨s, hs, hcount⟩ := exists_registered
  obtain ⟨g, hr, hg⟩ := driveGeometry_iff (p := 0) (c := geometryQuery) hs
    (by rw [hcount]; exact Nat.one_pos) statusSuccess 0 rfl rfl (by decide)
  exact ⟨s, g, hcount, hr, hg⟩

/-- A file of 4 GiB. -/
def largeFile : Storage := ⟨.file (2 ^ 32), ⟨0x800000, 512⟩, rfl⟩

/-- A disk registered for it. -/
theorem exists_registered_large : ∃ s, lts.Reach (Registers fun _ => largeFile) s ∧
    s.bus.pdoCount = 1 :=
  lts.exists_reach registers_of_only
    (routine (.sys 0) (.addDisk (registerWithDriver 1 largeFile.geometry 0 0)) 3)
    (fun s => s.bus.pdoCount = 1) (by decide +kernel)

/-- **The geometry of a large disk is not its own**: a file of 4 GiB has no cylinders. -/
theorem not_driveGeometry : ¬ ∀ (reg : PdoId → Storage) (s : Driver) (p : PdoId) (lock : NTSTATUS)
    (info : ULONG) (c : DeviceIoControl) (g : DiskGeometry), lts.Reach (Registers reg) s →
    p < s.bus.pdoCount → (busPdoIoCtl lock info (s.bus.pdos p) c).output = some (.geometry g) →
    g.Describes ((reg p).backing.blocks * (reg p).backing.blockSize) := by
  intro h
  obtain ⟨s, hs, hcount⟩ := exists_registered_large
  have hp : 0 < s.bus.pdoCount := by rw [hcount]; exact Nat.one_pos
  have hd := h _ s 0 statusSuccess 0 geometryQuery (diskGeometry (s.bus.pdos 0)) hs hp (by
    rw [busPdoIoCtl_of_lock rfl, busPdoAnswer_geometry rfl (by decide)])
  obtain ⟨hn, hb⟩ := geometries hs 0 hp
  have hlt := (diskGeometry_describes_iff (s.bus.pdos 0)).mp (by
    rw [hn, hb, Storage.toNat_nBlocks, Storage.toNat_blockSize]
    exact hd)
  rw [hn, hb] at hlt
  exact absurd hlt (by decide)

end Driver

/-! ## Transfer lengths -/

/-- How many bytes the storage moves between itself and `m_Buffer` for a request: the length
`CFileStorage` computes, or the sectors the library is asked for. -/
def Backing.transfer (st : Backing) (req : BusenumRequest) : ℕ :=
  match st with
  | .file _ => (ioLength req.transferBlocks 512).toNat
  | .vmdk _ sectorSize => req.transferBlocks.toNat * sectorSize.toNat

/-- The blocks of a CDB, in bytes: the 32-bit product does not wrap. -/
theorem Backing.transfer_busSetupRequest (st : Backing) (pdo : PdoDeviceData)
    (srb : ScsiRequestBlock) :
    st.transfer (busSetupRequest pdo srb) = srb.cdb.transferBlocks.toNat * st.blockSize := by
  have hblocks : (busSetupRequest pdo srb).transferBlocks.toNat = srb.cdb.transferBlocks.toNat :=
    UInt16.toNat_toUInt32 ..
  cases st with
  | file fileSize =>
    have hlt := srb.cdb.transferBlocks.toNat_lt
    have h512 : (512 : ULONG).toNat = 512 := rfl
    rw [transfer, toNat_ioLength, hblocks]
    · rfl
    · rw [hblocks, h512]
      omega
  | vmdk capacity sectorSize => rw [transfer, hblocks]; rfl

/-- What a step adds to the trace. -/
def logged (b b' : Bus) : List Event := b'.trace.take (b'.trace.length - b.trace.length)

theorem logged_of_trace {es : List Event} (h : b'.trace = es ++ b.trace) : logged b b' = es := by
  rw [logged, h, List.length_append, Nat.add_sub_cancel]
  exact List.take_left' rfl

variable {r : RqId} {i : IrpId} {rep : Tagged BusenumReply}

/-- What `BusSetupRequest` copies and delivers. -/
theorem logged_startIrp :
    logged b (b.startIrp p r i) =
      .deliver p r i (busSetupRequest (b.pdos p) (b.irps i).srb) (b.irps i).srb.dataBuffer ::
        if (b.irps i).srb.cdb.operationCode = scsiopWrite then
          [.copyIn p i (b.irps i).srb.dataTransferLength.toNat]
        else [] := by
  refine logged_of_trace ?_
  rw [Bus.startIrp_trace]
  by_cases hw : (b.irps i).srb.cdb.operationCode = scsiopWrite
  · simp only [if_pos hw, setupCopy, List.cons_append]
  · simp only [if_neg hw, List.cons_append]

/-- What `Bus_ProcessReply` copies for a current IRP. -/
theorem logged_acceptReply :
    logged b (b.acceptReply p i rep) =
      .accept p i rep ::
        if (b.irps i).cancel = false ∧ (b.irps i).srb.cdb.operationCode = scsiopRead then
          [.copyOut p i rep.val.numBytes.toNat]
        else [] := by
  refine logged_of_trace ?_
  rw [Bus.acceptReply]
  by_cases hc : (b.irps i).cancel = true
  · rw [if_pos hc, if_neg (by simp [hc])]
    rfl
  · rw [if_neg hc, Bus.acceptAnswer_trace]
    by_cases hr : (b.irps i).srb.cdb.operationCode = scsiopRead
    · simp only [Bool.not_eq_true] at hc
      simp only [replyCopy, hc, hr, and_self, if_true, List.cons_append]
    · simp only [hr, and_false, if_false, List.cons_append]

/-- **All transfers for an IRP stay inside their buffers**: what `BusSetupRequest` copies in the
state `b` and delivers to the storage `st`, and what `Bus_ProcessReply` copies back in `b'`. -/
structure TransfersFit (st : Backing) (p : PdoId) (r : RqId) (i : IrpId)
    (rep : Tagged BusenumReply) (b b' : Bus) : Prop where
  copyIn : ∀ n, .copyIn p i n ∈ logged b (b.startIrp p r i) → n ≤ bufferSize
  transfer : ∀ q data, .deliver p r i q data ∈ logged b (b.startIrp p r i) →
    st.transfer q ≤ bufferSize
  copyOut : ∀ n, .copyOut p i n ∈ logged b' (b'.acceptReply p i rep) →
    n ≤ bufferSize ∧ n ≤ (b'.irps i).srb.dataTransferLength.toNat

/-- What the lengths in the SRB and in the reply must be. -/
structure LengthsFit (st : Backing) (srb : ScsiRequestBlock) (cancel : Bool) (rep : BusenumReply) :
    Prop where
  write : srb.cdb.operationCode = scsiopWrite → srb.dataTransferLength.toNat ≤ bufferSize
  blocks : srb.cdb.transferBlocks.toNat * st.blockSize ≤ bufferSize
  read : srb.cdb.operationCode = scsiopRead → cancel = false →
    rep.numBytes.toNat ≤ bufferSize ∧ rep.numBytes.toNat ≤ srb.dataTransferLength.toNat

/-- **The transfers for an SRB stay inside their buffers exactly when its lengths and the reply's
do**: no routine on the way compares any of them. -/
theorem transfersFit_iff {st : Backing} {srb : ScsiRequestBlock} (hb : (b.irps i).srb = srb)
    (hb' : (b'.irps i).srb = srb) :
    TransfersFit st p r i rep b b' ↔ LengthsFit st srb (b'.irps i).cancel rep.val := by
  constructor
  · rintro ⟨hin, ht, hout⟩
    rw [logged_startIrp, hb] at hin ht
    rw [logged_acceptReply, hb'] at hout
    refine ⟨fun hw => hin _ (by simp [hw]), ?_, fun hr hc => hout _ (by simp [hr, hc])⟩
    rw [← Backing.transfer_busSetupRequest st (b.pdos p)]
    exact ht _ _ List.mem_cons_self
  · rintro ⟨hw, hblocks, hr⟩
    refine ⟨fun n hn => ?_, fun q data hq => ?_, fun n hn => ?_⟩
    · rw [logged_startIrp, hb] at hn
      by_cases hop : srb.cdb.operationCode = scsiopWrite
      · obtain rfl : n = srb.dataTransferLength.toNat := by simpa [hop] using hn
        exact hw hop
      · simp [hop] at hn
    · rw [logged_startIrp, hb] at hq
      obtain rfl : q = busSetupRequest (b.pdos p) srb := by
        split at hq <;> simp at hq <;> exact hq.1
      rwa [Backing.transfer_busSetupRequest]
    · rw [logged_acceptReply, hb'] at hn
      rw [hb']
      by_cases hop : (b'.irps i).cancel = false ∧ srb.cdb.operationCode = scsiopRead
      · obtain rfl : n = rep.val.numBytes.toNat := by simpa [hop] using hn
        exact hr hop.2 hop.1
      · simp [hop] at hn

/-- The bus with a READ of one block as its only IRP. -/
def readBus : Bus where
  irps _ := { arrived := true, srb := readSrb }

/-- The transfers of a READ of one block that is answered in full. -/
theorem transfersFit_read :
    TransfersFit (.file 4096) 0 0 0 startedReply readBus readBus ↔
      LengthsFit (.file 4096) readSrb false startedReply.val :=
  transfersFit_iff rfl rfl

/-- **A reply is copied past the requester's buffer**: its `numBytes` is used as it is. -/
theorem not_transfersFit : ¬ ∀ (st : Backing) (p : PdoId) (r : RqId) (i : IrpId)
    (rep : Tagged BusenumReply) (b b' : Bus) (srb : ScsiRequestBlock),
    busExecuteCommand (b.pdos p) srb = .startPacket → (b.irps i).srb = srb →
    (b'.irps i).srb = srb → TransfersFit st p r i rep b b' := by
  intro h
  have hmem : Event.copyOut 0 0 0xFFFFFFFF ∈ logged readBus
      (readBus.acceptReply 0 0 ⟨⟨1, statusSuccess, 0x28, 0xFFFFFFFF⟩, none⟩) := by
    rw [logged_acceptReply, if_pos ⟨rfl, rfl⟩]
    exact List.mem_cons_of_mem _ List.mem_cons_self
  have hfit := (h (.file 4096) 0 0 0 ⟨⟨1, statusSuccess, 0x28, 0xFFFFFFFF⟩, none⟩ readBus readBus
    readSrb ((busExecuteCommand_eq_startPacket_iff _ _).mpr (by decide)) rfl rfl).copyOut _ hmem
  exact absurd hfit.1 (by decide)

end VirtualDisk
