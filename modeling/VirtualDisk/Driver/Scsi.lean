import VirtualDisk.Driver.Types

/-!
# Driver/Scsi — command blocks, sense data and what a SCSI request is answered with

The functions of `busenum.c` that look inside an SRB.  `busSetupRequest` turns a READ(10)/WRITE(10)
into the request the service executes, `replySrb` is what `Bus_ProcessReply` writes into the SRB
when the answer comes back, and `busExecuteCommand` answers every other command on the spot.
-/

namespace VirtualDisk

open Machinery Machinery.Bytes

/-! ## Byte order

`scsi.h` views an integer as the bytes it occupies in memory, `Byte0` first.  The machine is
little-endian, a CDB is big-endian. -/

/-- `TWO_BYTE`. -/
structure TwoByte where
  byte0 : UCHAR
  byte1 : UCHAR

/-- `FOUR_BYTE`. -/
structure FourByte where
  byte0 : UCHAR
  byte1 : UCHAR
  byte2 : UCHAR
  byte3 : UCHAR
  deriving DecidableEq

/-- The `USHORT` that occupies these bytes. -/
def TwoByte.toUShort (b : TwoByte) : USHORT := UInt16.ofNat (b.byte0.toNat + b.byte1.toNat * 2 ^ 8)

namespace FourByte

/-- The `ULONG` that occupies these bytes. -/
def toULong (b : FourByte) : ULONG :=
  UInt32.ofNat (b.byte0.toNat + b.byte1.toNat * 2 ^ 8 + b.byte2.toNat * 2 ^ 16
    + b.byte3.toNat * 2 ^ 24)

/-- The bytes a `ULONG` occupies. -/
def ofULong (x : ULONG) : FourByte where
  byte0 := UInt8.ofNat x.toNat
  byte1 := UInt8.ofNat (x.toNat / 2 ^ 8)
  byte2 := UInt8.ofNat (x.toNat / 2 ^ 16)
  byte3 := UInt8.ofNat (x.toNat / 2 ^ 24)

/-- `REVERSE_LONG`, on the bytes in memory. -/
def reverseLong (b : FourByte) : FourByte := ⟨b.byte3, b.byte2, b.byte1, b.byte0⟩

theorem toNat_toULong (b : FourByte) :
    b.toULong.toNat = b.byte0.toNat + b.byte1.toNat * 2 ^ 8 + b.byte2.toNat * 2 ^ 16
      + b.byte3.toNat * 2 ^ 24 := by
  have h0 := b.byte0.toNat_lt
  have h1 := b.byte1.toNat_lt
  have h2 := b.byte2.toNat_lt
  have h3 := b.byte3.toNat_lt
  rw [toULong, UInt32.toNat_ofNat']
  exact Nat.mod_eq_of_lt (by omega)

/-- **A `ULONG` is the integer its bytes spell.** -/
@[simp] theorem toULong_ofULong (x : ULONG) : (ofULong x).toULong = x := by
  have hx := x.toNat_lt
  apply UInt32.toNat.inj
  rw [toNat_toULong]
  simp only [ofULong, UInt8.toNat_ofNat']
  omega

@[simp] theorem reverseLong_reverseLong (b : FourByte) : b.reverseLong.reverseLong = b := rfl

end FourByte

theorem TwoByte.toNat_toUShort (b : TwoByte) :
    b.toUShort.toNat = b.byte0.toNat + b.byte1.toNat * 2 ^ 8 := by
  have h0 := b.byte0.toNat_lt
  have h1 := b.byte1.toNat_lt
  rw [toUShort, UInt16.toNat_ofNat']
  exact Nat.mod_eq_of_lt (by omega)

namespace Cdb

/-- The first block of a READ(10)/WRITE(10), as `BusSetupRequest` assembles it. -/
def logicalBlockAddress (c : Cdb) : ULONG :=
  FourByte.toULong
    { byte3 := c.logicalBlockByte0
      byte2 := c.logicalBlockByte1
      byte1 := c.logicalBlockByte2
      byte0 := c.logicalBlockByte3 }

/-- The number of blocks of a READ(10)/WRITE(10). -/
def transferBlocks (c : Cdb) : USHORT :=
  TwoByte.toUShort { byte1 := c.transferBlocksMsb, byte0 := c.transferBlocksLsb }

/-- **The logical block address is the big-endian integer of the CDB.** -/
theorem toNat_logicalBlockAddress (c : Cdb) :
    c.logicalBlockAddress.toNat = c.logicalBlockByte0.toNat * 2 ^ 24
      + c.logicalBlockByte1.toNat * 2 ^ 16 + c.logicalBlockByte2.toNat * 2 ^ 8
      + c.logicalBlockByte3.toNat := by
  rw [logicalBlockAddress, FourByte.toNat_toULong]
  dsimp only
  omega

/-- **The transfer length is the big-endian integer of the CDB.** -/
theorem toNat_transferBlocks (c : Cdb) :
    c.transferBlocks.toNat = c.transferBlocksMsb.toNat * 2 ^ 8 + c.transferBlocksLsb.toNat := by
  rw [transferBlocks, TwoByte.toNat_toUShort]
  dsimp only
  omega

/-- The commands that go to the service. -/
def isReadWrite (c : Cdb) : Bool :=
  c.operationCode = scsiopRead || c.operationCode = scsiopWrite

end Cdb

/-! ## From an SRB to a request -/

/-- The request `BusSetupRequest` fills a GET_REQUEST IRP with. -/
def busSetupRequest (pdo : PdoDeviceData) (srb : ScsiRequestBlock) : BusenumRequest where
  handle := pdo.serialNo
  code := srb.cdb.operationCode.toUInt32
  logicalBlockAddress := srb.cdb.logicalBlockAddress
  transferBlocks := srb.cdb.transferBlocks.toUInt32

/-- How many bytes `BusSetupRequest` copies from the requester into the mapped buffer. -/
def setupCopy (srb : ScsiRequestBlock) : ℕ :=
  if srb.cdb.operationCode = scsiopWrite then srb.dataTransferLength.toNat else 0

/-- The mapped buffer after `BusSetupRequest`. -/
def setupBuffer (srb : ScsiRequestBlock) (buffer : Bytes) : Bytes :=
  overwrite buffer 0 (setupCopy srb) srb.dataBuffer

/-! ## Sense data -/

def scsiSenseNoSense : UCHAR := 0x00
def scsiSenseHardwareError : UCHAR := 0x04
def scsiSenseIllegalRequest : UCHAR := 0x05
def scsiAdsenseNoSense : UCHAR := 0x00
def scsiAdsenseLunNotReady : UCHAR := 0x04
def scsiAdsenseInvalidCdb : UCHAR := 0x24
def srbStatusSuccess : UCHAR := 0x01
def srbStatusError : UCHAR := 0x04
def srbStatusAutosenseValid : UCHAR := 0x80
def scsistatGood : UCHAR := 0x00
def scsistatCheckCondition : UCHAR := 0x02

/-- The sense buffer `SetSenseInfo` leaves. -/
def senseInfo (senseCode asc asq : UCHAR) : SenseData where
  errorCode := 0x70
  valid := true
  segmentNumber := 0
  senseKey := senseCode
  additionalSenseLength := 0
  additionalSenseCode := asc
  additionalSenseCodeQualifier := asq

/-- `SetSenseInfo`: the codes are kept in the PDO, and the sense buffer is filled when there is
one. -/
def setSenseInfo (pdo : PdoDeviceData) (buffer : Option SenseData) (senseCode asc asq : UCHAR) :
    PdoDeviceData × Option SenseData :=
  ({ pdo with code := senseCode, asc := asc, asq := asq },
    buffer.map fun _ => senseInfo senseCode asc asq)

/-! ## From a reply to the SRB -/

/-- How many bytes `Bus_ProcessReply` copies from the mapped buffer to the requester. -/
def replyCopy (srb : ScsiRequestBlock) (rep : BusenumReply) : ℕ :=
  if srb.cdb.operationCode = scsiopRead then rep.numBytes.toNat else 0

/-- The data a READ hands back. -/
def replyData (srb : ScsiRequestBlock) (rep : BusenumReply) (buffer : Bytes) : ScsiRequestBlock :=
  if srb.cdb.operationCode = scsiopRead then
    { srb with
      dataBuffer := overwrite srb.dataBuffer 0 (replyCopy srb rep) buffer
      dataTransferLength := rep.numBytes }
  else srb

/-- **The SRB and the PDO after `Bus_ProcessReply`** took a reply for an IRP that was not
cancelled. -/
def replySrb (pdo : PdoDeviceData) (srb : ScsiRequestBlock) (rep : BusenumReply) (buffer : Bytes) :
    PdoDeviceData × ScsiRequestBlock :=
  let srb := replyData srb rep buffer
  if rep.status = statusSuccess then
    let sense := setSenseInfo pdo srb.senseInfoBuffer scsiSenseNoSense scsiAdsenseNoSense 0
    (sense.1, { srb with senseInfoBuffer := sense.2, srbStatus := srbStatusSuccess })
  else
    let sense := setSenseInfo pdo srb.senseInfoBuffer scsiSenseHardwareError scsiAdsenseLunNotReady 0
    (sense.1,
      { srb with
        senseInfoBuffer := sense.2
        srbStatus := srbStatusError ||| srbStatusAutosenseValid
        scsiStatus := scsistatCheckCondition })

/-- A reply changes the data of its SRB as `replyData` does. -/
@[simp] theorem replySrb_dataBuffer (pdo : PdoDeviceData) (srb : ScsiRequestBlock)
    (rep : BusenumReply) (buffer : Bytes) :
    (replySrb pdo srb rep buffer).2.dataBuffer = (replyData srb rep buffer).dataBuffer := by
  unfold replySrb
  split <;> rfl

/-- …and no other SRB's. -/
theorem replyData_of_ne {srb : ScsiRequestBlock} (h : srb.cdb.operationCode ≠ scsiopRead)
    (rep : BusenumReply) (buffer : Bytes) : replyData srb rep buffer = srb := if_neg h

@[simp] theorem replySrb_dataTransferLength (pdo : PdoDeviceData) (srb : ScsiRequestBlock)
    (rep : BusenumReply) (buffer : Bytes) : (replySrb pdo srb rep buffer).2.dataTransferLength =
      (replyData srb rep buffer).dataTransferLength := by
  unfold replySrb
  split <;> rfl

/-- A reply leaves the command alone. -/
@[simp] theorem replySrb_cdb (pdo : PdoDeviceData) (srb : ScsiRequestBlock)
    (rep : BusenumReply) (buffer : Bytes) : (replySrb pdo srb rep buffer).2.cdb = srb.cdb := by
  unfold replySrb replyData
  split <;> split <;> rfl

/-- A reply touches nothing of the PDO but the sense codes. -/
@[simp] theorem replySrb_pdo (pdo : PdoDeviceData) (srb : ScsiRequestBlock) (rep : BusenumReply)
    (buffer : Bytes) :
    (replySrb pdo srb rep buffer).1 = { pdo with
      code := if rep.status = statusSuccess then scsiSenseNoSense else scsiSenseHardwareError
      asc := if rep.status = statusSuccess then scsiAdsenseNoSense else scsiAdsenseLunNotReady
      asq := 0 } := by
  unfold replySrb
  split <;> rfl

/-! ## Commands answered by the driver -/

/-- `READ_CAPACITY_DATA`, as it lies in memory. -/
structure ReadCapacityData where
  logicalBlockAddress : FourByte
  bytesPerBlock : FourByte

/-- The bytes of a `READ_CAPACITY_DATA`. -/
def ReadCapacityData.bytes (d : ReadCapacityData) : Bytes
  | 0 => d.logicalBlockAddress.byte0
  | 1 => d.logicalBlockAddress.byte1
  | 2 => d.logicalBlockAddress.byte2
  | 3 => d.logicalBlockAddress.byte3
  | 4 => d.bytesPerBlock.byte0
  | 5 => d.bytesPerBlock.byte1
  | 6 => d.bytesPerBlock.byte2
  | 7 => d.bytesPerBlock.byte3
  | _ => 0

/-- What the READ_CAPACITY branch stores: `nBlocks` and `BlockSize`, each put through
`REVERSE_LONG`. -/
def readCapacityData (pdo : PdoDeviceData) : ReadCapacityData where
  logicalBlockAddress := (FourByte.ofULong pdo.nBlocks).reverseLong
  bytesPerBlock := (FourByte.ofULong pdo.blockSize).reverseLong

/-- How `Bus_ExecuteCommand` disposes of an SRB: it starts a packet, or it answers at once. -/
inductive CommandResult
  | startPacket
  | answered (status : NTSTATUS) (pdo : PdoDeviceData) (srb : ScsiRequestBlock)
      (information : Option ULONG)

/-- `Bus_ExecuteCommand`. -/
def busExecuteCommand (pdo : PdoDeviceData) (srb : ScsiRequestBlock) : CommandResult :=
  let op := srb.cdb.operationCode
  if op = scsiopTestUnitReady ∨ op = scsiopVerify then
    let sense := setSenseInfo pdo srb.senseInfoBuffer scsiSenseNoSense scsiAdsenseNoSense 0
    .answered statusSuccess sense.1
      { srb with
        senseInfoBuffer := sense.2
        srbStatus := srbStatusSuccess
        scsiStatus := scsistatGood } none
  else if op = scsiopReadCapacity then
    let sense := setSenseInfo pdo srb.senseInfoBuffer scsiSenseNoSense scsiAdsenseNoSense 0
    .answered statusSuccess sense.1
      { srb with
        dataBuffer := overwrite srb.dataBuffer 0 8 (readCapacityData pdo).bytes
        senseInfoBuffer := sense.2
        srbStatus := srbStatusSuccess
        scsiStatus := scsistatGood } (some srb.dataTransferLength)
  else if srb.cdb.isReadWrite then
    .startPacket
  else
    -- MODE_SENSE and every command without a case of its own
    let sense := setSenseInfo pdo srb.senseInfoBuffer scsiSenseIllegalRequest scsiAdsenseInvalidCdb 0
    .answered statusIoDeviceError sense.1
      { srb with
        senseInfoBuffer := sense.2
        srbStatus := srbStatusError
        scsiStatus := scsistatCheckCondition ||| srbStatusAutosenseValid } none

/-- **The commands that reach a disk's queue are exactly READ and WRITE.** -/
theorem busExecuteCommand_eq_startPacket_iff (pdo : PdoDeviceData) (srb : ScsiRequestBlock) :
    busExecuteCommand pdo srb = .startPacket ↔ srb.cdb.isReadWrite = true := by
  unfold busExecuteCommand
  constructor
  · intro h
    by_contra hrw
    dsimp only at h
    rw [if_neg hrw] at h
    split at h
    · cases h
    · split at h <;> cases h
  · intro h
    have hop : srb.cdb.operationCode = scsiopRead ∨ srb.cdb.operationCode = scsiopWrite := by
      simpa [Cdb.isReadWrite] using h
    dsimp only
    rw [if_neg, if_neg, if_pos h]
    · rcases hop with hop | hop <;> rw [hop] <;> decide
    · rcases hop with hop | hop <;> rw [hop] <;> decide

end VirtualDisk
