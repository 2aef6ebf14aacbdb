import Mathlib.Algebra.Group.Nat.Defs
import Mathlib.Data.Int.Notation
import VirtualDisk.Machinery.Bytes

/-!
# Driver/Types — the records shared by the driver and the service

Machine integers keep the widths of the C types.  Constants, structures and their fields carry the
names of `public.h`, `busenum.h` and the WDK headers.
-/

namespace VirtualDisk

open Machinery

abbrev UCHAR := UInt8
abbrev USHORT := UInt16
abbrev ULONG := UInt32
abbrev NTSTATUS := UInt32

def statusSuccess : NTSTATUS := 0x00000000
def statusPending : NTSTATUS := 0x00000103
def statusDeviceBusy : NTSTATUS := 0x80000011
def statusUnsuccessful : NTSTATUS := 0xC0000001
def statusInvalidParameter : NTSTATUS := 0xC000000D
def statusNoSuchDevice : NTSTATUS := 0xC000000E
def statusInvalidDeviceRequest : NTSTATUS := 0xC0000010
def statusDeletePending : NTSTATUS := 0xC0000056
def statusInsufficientResources : NTSTATUS := 0xC000009A
def statusCancelled : NTSTATUS := 0xC0000120
def statusIoDeviceError : NTSTATUS := 0xC0000185

/-- `NT_SUCCESS`: the status, as a signed number, is not negative. -/
def ntSuccess (status : NTSTATUS) : Bool := status < 0x80000000

/-- `BUFFER_SIZE` of `public.h`. -/
def bufferSize : ℕ := 256 * 1024

/-! ## Names of kernel objects -/

/-- A disk's device object, in order of creation. -/
abbrev PdoId := ℕ

/-- An IRP a class driver sends to a disk. -/
abbrev IrpId := ℕ

/-- A GET_REQUEST IRP of the service. -/
abbrev RqId := ℕ

/-- A user buffer of `BUFFER_SIZE` bytes that a disk maps. -/
abbrev BufferId := ℕ

/-- An event object handed to the driver. -/
abbrev EventId := ℕ

/-- A file object on the bus device. -/
abbrev FileObject := ℕ

/-- The device objects of the bus. -/
inductive DeviceId
  | fdo
  | pdo (p : PdoId)
  deriving DecidableEq, Repr

/-- The threads: those of the system, the service's Run loop, one thread per disk processor, and
the RPC workers. -/
inductive Tid
  | sys (n : ℕ)
  | run
  | disk (pr : ℕ)
  | rpc (k : ℕ)
  deriving DecidableEq, Repr

/-! ## `public.h` -/

/-- `BUSENUM_ADD_DISK`. -/
structure BusenumAddDisk where
  handle : ULONG
  nBlocks : ULONG
  blockSize : ULONG
  buffer : BufferId
  removeEvent : EventId
  deriving DecidableEq, Repr

/-- `BUSENUM_REQUEST`. -/
structure BusenumRequest where
  handle : ULONG
  code : ULONG
  logicalBlockAddress : ULONG
  transferBlocks : ULONG
  deriving DecidableEq, Repr, Inhabited

/-- `BUSENUM_REPLY`. -/
structure BusenumReply where
  handle : ULONG
  status : NTSTATUS
  code : ULONG
  numBytes : ULONG
  deriving DecidableEq, Repr, Inhabited

/-- A value together with the disk and the IRP it was made for.  No code reads the origin: it is
what correspondence of requests and replies is stated about. -/
structure Tagged (α : Type) where
  val : α
  origin : Option (PdoId × IrpId)
  deriving DecidableEq, Repr, Inhabited

/-! ## Command descriptor blocks -/

def scsiopTestUnitReady : UCHAR := 0x00
def scsiopModeSense : UCHAR := 0x1A
def scsiopReadCapacity : UCHAR := 0x25
def scsiopRead : UCHAR := 0x28
def scsiopWrite : UCHAR := 0x2A
def scsiopVerify : UCHAR := 0x2F

/-- The fields of `CDB10` that the driver reads. -/
structure Cdb where
  operationCode : UCHAR
  logicalBlockByte0 : UCHAR := 0
  logicalBlockByte1 : UCHAR := 0
  logicalBlockByte2 : UCHAR := 0
  logicalBlockByte3 : UCHAR := 0
  transferBlocksMsb : UCHAR := 0
  transferBlocksLsb : UCHAR := 0
  deriving DecidableEq, Repr, Inhabited

/-- `SENSE_DATA`, the fields `SetSenseInfo` fills. -/
structure SenseData where
  errorCode : UCHAR
  valid : Bool
  segmentNumber : UCHAR
  senseKey : UCHAR
  additionalSenseLength : UCHAR
  additionalSenseCode : UCHAR
  additionalSenseCodeQualifier : UCHAR
  deriving DecidableEq, Repr, Inhabited

/-- `SCSI_REQUEST_BLOCK`.  `senseInfoBuffer = none` is a NULL pointer. -/
structure ScsiRequestBlock where
  cdb : Cdb
  dataTransferLength : ULONG := 0
  dataBuffer : Bytes := fun _ => 0
  srbStatus : UCHAR := 0
  scsiStatus : UCHAR := 0
  senseInfoBuffer : Option SenseData := none

instance : Inhabited ScsiRequestBlock := ⟨{ cdb := default }⟩

/-! ## Device states -/

/-- `DEVICE_PNP_STATE`. -/
inductive DevicePnpState
  | notStarted
  | started
  | stopPending
  | stopped
  | removePending
  | surpriseRemovePending
  | deleted
  deriving DecidableEq, Repr

/-- A `LIST_ENTRY` of `ListOfPDOs`: the list head in the FDO extension, or a PDO's `Link`. -/
inductive Entry
  | head
  | pdo (p : PdoId)
  deriving DecidableEq, Repr

/-- `PDO_DEVICE_DATA`.  `flink` is what the PDO's own `Link` holds once it is off the list; while
it is on the list its successor is read off the list.  The last fields record how far the
PDO's destruction went: `drained` (the PDOLock section of `Bus_DestroyPdo` is past), `mapped`,
`signalled` and `deleted`. -/
structure PdoDeviceData where
  devicePnPState : DevicePnpState := .notStarted
  previousPnPState : DevicePnpState := .notStarted
  parentFdo : Option DeviceId := none
  serialNo : ULONG := 0
  flink : Entry := .head
  pdoLock : Option Tid := none
  removeLock : ℤ := 0
  present : Bool := false
  reportedMissing : Bool := false
  claimed : Bool := false
  code : UCHAR := 0
  asc : UCHAR := 0
  asq : UCHAR := 0
  nBlocks : ULONG := 0
  blockSize : ULONG := 0
  buffer : BufferId := 0
  currentIrp : Option IrpId := none
  irpQueue : List IrpId := []
  removeEvent : EventId := 0
  deviceInitializing : Bool := true
  drained : Bool := false
  mapped : Bool := false
  signalled : Bool := false
  deleted : Bool := false

/-- `FDO_DEVICE_DATA`.  `mutex` names the thread holding the fast mutex. -/
structure FdoDeviceData where
  devicePnPState : DevicePnpState := .started
  previousPnPState : DevicePnpState := .notStarted
  listOfPDOs : List PdoId := []
  numPDOs : ℕ := 0
  mutex : Option Tid := none
  requestQueue : List RqId := []
  cleanupReadyEvent : Bool := false

/-! ## IRPs -/

/-- The cancel routines the driver's READ and WRITE IRPs are registered with: the cancel-safe
queue's own one, or `Bus_CancelIrp`. -/
inductive CancelRoutine
  | csq (p : PdoId)
  | busCancelIrp
  deriving DecidableEq, Repr

/-- A READ or WRITE IRP sent to a disk.  `arrived` is false until it enters `Bus_Scsi`. -/
structure Irp where
  arrived : Bool := false
  srb : ScsiRequestBlock := default
  cancel : Bool := false
  cancelRoutine : Option CancelRoutine := none
  status : NTSTATUS := 0
  information : ULONG := 0

/-- A GET_REQUEST IRP.  `armed` says that the queue's cancel routine is registered, and
`systemBuffer` is what `BusSetupRequest` filled it with. -/
structure RequestIrp where
  arrived : Bool := false
  fileObject : FileObject := 0
  cancel : Bool := false
  armed : Bool := false
  systemBuffer : Option (Tagged BusenumRequest) := none
  status : NTSTATUS := 0
  completed : Bool := false

end VirtualDisk
