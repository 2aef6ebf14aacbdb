import Mathlib.Logic.Function.Basic
import Mathlib.Tactic.Simps.Basic
import VirtualDisk.Driver.Scsi

/-!
# Driver/Bus — the driver's shared state and its atomic updates

`Bus` is everything the driver's threads share: the two device extensions, the IRPs, the kernel
objects a disk holds, and a trace of what happened.  Below it are the updates a single step makes:
list operations on `ListOfPDOs`, the cancel-safe queue's insertion and removal, completion, and the
two places where a request is handed out and where its answer is taken.
-/

namespace VirtualDisk

open Machinery Machinery.Bytes

/-- What the driver did, as it is observed from outside. -/
inductive Event
  /-- A READ or WRITE IRP entered `Bus_Scsi` for the disk. -/
  | arrive (p : PdoId) (i : IrpId)
  /-- `BusSetupRequest` copied write data into the disk's buffer. -/
  | copyIn (p : PdoId) (i : IrpId) (n : ℕ)
  /-- `BusSetupRequest` filled a GET_REQUEST IRP; `data` is the requester's data at that time. -/
  | deliver (p : PdoId) (r : RqId) (i : IrpId) (q : BusenumRequest) (data : Bytes)
  /-- `Bus_ProcessReply` copied from the disk's buffer to the requester. -/
  | copyOut (p : PdoId) (i : IrpId) (n : ℕ)
  /-- `Bus_ProcessReply` found a current IRP and took the reply for it. -/
  | accept (p : PdoId) (i : IrpId) (rep : Tagged BusenumReply)
  /-- `Bus_DestroyPdo` cancelled the current IRP. -/
  | destroyCancel (p : PdoId) (i : IrpId)
  /-- `IoCompleteRequest` was called on the IRP. -/
  | complete (i : IrpId)
  /-- `Bus_RemoveDisk` called `KeResetEvent` on the disk's remove event, which was signalled or not,
  and `IoRequestDeviceEject` on the disk. -/
  | resetEvent (p : PdoId) (signalled : Bool)
  /-- A BusRelations query was answered, with these PDOs on the list. -/
  | relations (linked : List PdoId) (old answer : List DeviceId)

/-- The state the driver's threads share. -/
structure Bus where
  fdo : FdoDeviceData := {}
  pdos : PdoId → PdoDeviceData := fun _ => {}
  pdoCount : ℕ := 0
  irps : IrpId → Irp := fun _ => {}
  requests : RqId → RequestIrp := fun _ => {}
  events : EventId → Bool := fun _ => false
  memory : BufferId → Bytes := fun _ _ => 0
  trace : List Event := []

namespace Bus

/-! ## Updates -/

@[simps -fullyApplied]
def setFdo (b : Bus) (f : FdoDeviceData → FdoDeviceData) : Bus := { b with fdo := f b.fdo }

@[simps -fullyApplied]
def setPdo (b : Bus) (p : PdoId) (f : PdoDeviceData → PdoDeviceData) : Bus :=
  { b with pdos := Function.update b.pdos p (f (b.pdos p)) }

@[simps -fullyApplied]
def setIrp (b : Bus) (i : IrpId) (f : Irp → Irp) : Bus :=
  { b with irps := Function.update b.irps i (f (b.irps i)) }

@[simps -fullyApplied]
def setRequest (b : Bus) (r : RqId) (f : RequestIrp → RequestIrp) : Bus :=
  { b with requests := Function.update b.requests r (f (b.requests r)) }

@[simps -fullyApplied]
def setEvent (b : Bus) (e : EventId) (v : Bool) : Bus :=
  { b with events := Function.update b.events e v }

@[simps -fullyApplied]
def setMemory (b : Bus) (m : BufferId) (f : Bytes) : Bus :=
  { b with memory := Function.update b.memory m f }

@[simps -fullyApplied]
def log (b : Bus) (e : Event) : Bus := { b with trace := e :: b.trace }

/-! ## `ListOfPDOs` -/

/-- The entry behind `p` on the list, the head when `p` is last. -/
def next (l : List PdoId) (p : PdoId) : Entry :=
  match l.dropWhile (· ≠ p) with
  | _ :: q :: _ => .pdo q
  | _ => .head

/-- The `Flink` of an entry. -/
def flink (b : Bus) : Entry → Entry
  | .head => match b.fdo.listOfPDOs with
    | q :: _ => .pdo q
    | [] => .head
  | .pdo p => if p ∈ b.fdo.listOfPDOs then next b.fdo.listOfPDOs p else (b.pdos p).flink

/-- `RemoveEntryList`: the entry keeps its own links.  An entry that is off the list stays off, as
one that is linked to itself does; any other puts its old neighbours back (`Driver.ListEntries`). -/
@[simps! -fullyApplied]
def removeEntryList (b : Bus) (p : PdoId) : Bus :=
  (b.setPdo p fun d => { d with flink := b.flink (.pdo p) }).setFdo fun f =>
    { f with listOfPDOs := f.listOfPDOs.erase p }

/-- What the FDO's handlers do to a child they leave undestroyed: the link is made to point to
itself, the parent pointer is cleared. -/
@[simps]
def orphan (d : PdoDeviceData) (p : PdoId) : PdoDeviceData :=
  { d with flink := .pdo p, parentFdo := none, reportedMissing := true }

/-- `InsertTailList` and the count, as `Bus_InitializePdo` does them. -/
@[simps! -fullyApplied]
def insertTailList (b : Bus) (p : PdoId) : Bus :=
  b.setFdo fun f => { f with listOfPDOs := f.listOfPDOs ++ [p], numPDOs := f.numPDOs + 1 }

/-- The PDO with this serial number that the searches of `Bus_ProcessReply` and `Bus_RemoveDisk`
find: the first on the list. -/
def findPdo (b : Bus) (handle : ULONG) : Option PdoId :=
  b.fdo.listOfPDOs.find? fun p => (b.pdos p).serialNo = handle

/-- `Bus_AddDisk`'s test: no PDO on the list has this serial number, those that were
surprise-removed aside. -/
def unique (b : Bus) (handle : ULONG) : Bool :=
  b.fdo.listOfPDOs.all fun p =>
    !((b.pdos p).serialNo = handle && (b.pdos p).devicePnPState ≠ .surpriseRemovePending)

/-! ## The cancel-safe queues

`IoCsqInsertIrp` registers the queue's cancel routine; for an IRP that is already cancelled it
completes it instead.  `IoCsqRemoveNextIrp` takes the first IRP that the queue's peek routine
accepts and whose cancel routine is still registered, so an IRP being cancelled is passed over. -/

/-- `IoCompleteRequest` on a READ or WRITE IRP. -/
@[simps! -fullyApplied]
def completeIrp (b : Bus) (i : IrpId) (status : NTSTATUS) : Bus :=
  (b.setIrp i fun x => { x with status }).log (.complete i)

/-- Completion with an error: `Information` is cleared. -/
@[simps! -fullyApplied]
def failIrp (b : Bus) (i : IrpId) (status : NTSTATUS) : Bus :=
  (b.setIrp i fun x => { x with status, information := 0 }).log (.complete i)

/-- `IoCompleteRequest` on a GET_REQUEST IRP. -/
@[simps! -fullyApplied]
def completeRequest (b : Bus) (r : RqId) (status : NTSTATUS) : Bus :=
  b.setRequest r fun x => { x with status, completed := true }

/-- An IRP at the end of a disk's `IrpQueue`, the queue's cancel routine registered. -/
@[simps! -fullyApplied]
def appendIrp (b : Bus) (p : PdoId) (i : IrpId) : Bus :=
  (b.setIrp i fun x => { x with cancelRoutine := some (.csq p) }).setPdo p fun d =>
    { d with irpQueue := d.irpQueue ++ [i] }

/-- `IoCsqInsertIrp` on a disk's `IrpQueue`. -/
def insertIrp (b : Bus) (p : PdoId) (i : IrpId) : Bus :=
  if (b.irps i).cancel then b.failIrp i statusCancelled else b.appendIrp p i

/-- A GET_REQUEST IRP at the end of the `RequestQueue`, the queue's cancel routine registered. -/
@[simps! -fullyApplied]
def appendRequest (b : Bus) (r : RqId) : Bus :=
  (b.setRequest r fun x => { x with armed := true }).setFdo fun f =>
    { f with requestQueue := f.requestQueue ++ [r] }

/-- `IoCsqInsertIrp` on the FDO's `RequestQueue`. -/
def insertRequest (b : Bus) (r : RqId) : Bus :=
  if (b.requests r).cancel then b.completeRequest r statusCancelled else b.appendRequest r

/-- The IRP `IoCsqRemoveNextIrp` takes from a disk's `IrpQueue`. -/
def peekIrp (b : Bus) (p : PdoId) : Option IrpId :=
  (b.pdos p).irpQueue.find? fun i => (b.irps i).cancelRoutine.isSome

/-- …and its removal. -/
@[simps! -fullyApplied]
def removeIrp (b : Bus) (p : PdoId) (i : IrpId) : Bus :=
  (b.setIrp i fun x => { x with cancelRoutine := none }).setPdo p fun d =>
    { d with irpQueue := d.irpQueue.erase i }

/-- The IRP `IoCsqRemoveNextIrp` takes from the `RequestQueue`, of one file object when the peek
context names one. -/
def peekRequest (b : Bus) (file : Option FileObject) : Option RqId :=
  b.fdo.requestQueue.find? fun r =>
    (b.requests r).armed && (file.all fun f => (b.requests r).fileObject = f)

/-- …and its removal. -/
@[simps! -fullyApplied]
def removeRequest (b : Bus) (r : RqId) : Bus :=
  (b.setRequest r fun x => { x with armed := false }).setFdo fun f =>
    { f with requestQueue := f.requestQueue.erase r }

/-! ## The locks -/

@[simps! -fullyApplied]
def acquire (b : Bus) (p : PdoId) (t : Tid) : Bus :=
  b.setPdo p fun d => { d with pdoLock := some t }

@[simps! -fullyApplied]
def release (b : Bus) (p : PdoId) : Bus := b.setPdo p fun d => { d with pdoLock := none }

@[simps! -fullyApplied]
def releaseRemoveLock (b : Bus) (p : PdoId) : Bus :=
  b.setPdo p fun d => { d with removeLock := d.removeLock - 1 }

/-! ## Handing out a request, and taking its answer -/

/-- **A packet is started**, with the PDO lock held: `BusSetupRequest`, `CurrentIrp`,
`IoSetCancelRoutine`, and the remove lock taken for the IRP; then the lock is released. -/
@[simps -fullyApplied]
def startIrp (b : Bus) (p : PdoId) (r : RqId) (i : IrpId) : Bus :=
  let d := b.pdos p
  let srb := (b.irps i).srb
  let q := busSetupRequest d srb
  let copies := if srb.cdb.operationCode = scsiopWrite then [.copyIn p i (setupCopy srb)] else []
  { b with
    memory := Function.update b.memory d.buffer (setupBuffer srb (b.memory d.buffer))
    requests := Function.update b.requests r { b.requests r with
      systemBuffer := some ⟨q, some (p, i)⟩
      status := statusSuccess }
    irps := Function.update b.irps i { b.irps i with cancelRoutine := some .busCancelIrp }
    pdos := Function.update b.pdos p { d with
      currentIrp := some i
      removeLock := d.removeLock + 1
      pdoLock := none }
    trace := .deliver p r i q srb.dataBuffer :: (copies ++ b.trace) }

/-- A reply is taken for a current IRP that was cancelled: it gets its status only. -/
@[simps -fullyApplied]
def acceptCancelled (b : Bus) (p : PdoId) (i : IrpId) (rep : Tagged BusenumReply) : Bus :=
  { b with
    pdos := Function.update b.pdos p { b.pdos p with currentIrp := none }
    irps := Function.update b.irps i { b.irps i with
      cancelRoutine := none
      status := statusCancelled
      information := 0 }
    trace := .accept p i rep :: b.trace }

/-- A reply is taken for any other current IRP: the data, the sense information and the status are
handed over. -/
@[simps -fullyApplied]
def acceptAnswer (b : Bus) (p : PdoId) (i : IrpId) (rep : Tagged BusenumReply) : Bus :=
  let srb := (b.irps i).srb
  let answer := replySrb { b.pdos p with currentIrp := none } srb rep.val
    (b.memory (b.pdos p).buffer)
  let copies := if srb.cdb.operationCode = scsiopRead then [.copyOut p i (replyCopy srb rep.val)]
    else []
  { b with
    pdos := Function.update b.pdos p answer.1
    irps := Function.update b.irps i { b.irps i with
      cancelRoutine := none
      srb := answer.2
      status := rep.val.status
      information := rep.val.numBytes }
    trace := .accept p i rep :: (copies ++ b.trace) }

/-- **A reply is taken** for the current IRP, in one PDOLock section. -/
def acceptReply (b : Bus) (p : PdoId) (i : IrpId) (rep : Tagged BusenumReply) : Bus :=
  if (b.irps i).cancel then b.acceptCancelled p i rep else b.acceptAnswer p i rep

/-- **The current IRP is cancelled** by `Bus_DestroyPdo`, in one PDOLock section. -/
@[simps! -fullyApplied]
def cancelCurrent (b : Bus) (p : PdoId) (i : IrpId) : Bus :=
  let b := b.setPdo p fun d => { d with currentIrp := none, drained := true }
  let b := b.setIrp i fun x =>
    { x with cancelRoutine := none, status := statusCancelled, information := 0 }
  b.log (.destroyCancel p i)

/-! ## PnP state -/

/-- `SET_NEW_PNP_STATE`. -/
@[simps]
def setNewPnpState (d : PdoDeviceData) (s : DevicePnpState) : PdoDeviceData :=
  { d with previousPnPState := d.devicePnPState, devicePnPState := s }

/-- `SET_NEW_PNP_STATE`, on the FDO. -/
@[simps]
def setNewFdoState (f : FdoDeviceData) (s : DevicePnpState) : FdoDeviceData :=
  { f with previousPnPState := f.devicePnPState, devicePnPState := s }

/-- The PDO of a new disk: `Bus_AddDisk` and `Bus_InitializePdo` up to the insertion on the list,
all of whose fallible steps succeeded. -/
def newPdo (dd : BusenumAddDisk) : PdoDeviceData where
  serialNo := dd.handle
  parentFdo := some .fdo
  present := true
  nBlocks := dd.nBlocks
  blockSize := dd.blockSize
  buffer := dd.buffer
  removeEvent := dd.removeEvent
  mapped := true

/-- The PDO of a new disk, in the table. -/
@[simps -fullyApplied]
def createPdo (b : Bus) (dd : BusenumAddDisk) : Bus :=
  { b with
    pdos := Function.update b.pdos b.pdoCount (newPdo dd)
    pdoCount := b.pdoCount + 1 }

/-- A PDO taken off the list and off the count, which is no zero where the PDO was counted
(`Driver.ListEntries`). -/
@[simps! -fullyApplied]
def unlinkCounted (b : Bus) (p : PdoId) : Bus :=
  (b.removeEntryList p).setFdo fun f => { f with numPDOs := f.numPDOs - 1 }

/-- A PDO taken off the list and left to its own REMOVE_DEVICE. -/
@[simps! -fullyApplied]
def orphanOne (b : Bus) (p : PdoId) : Bus := (b.removeEntryList p).setPdo p fun d => orphan d p

/-- Every PDO taken off the list and left to its own REMOVE_DEVICE; the count is left alone. -/
@[simps -fullyApplied]
def orphanAll (b : Bus) : Bus :=
  { b with
    pdos := fun p => if p ∈ b.fdo.listOfPDOs then orphan (b.pdos p) p else b.pdos p
    fdo := { b.fdo with listOfPDOs := [] } }

/-- Every PDO on the list is marked as not present. -/
@[simps -fullyApplied]
def ejectAll (b : Bus) : Bus :=
  { b with
    pdos := fun p => if p ∈ b.fdo.listOfPDOs then { b.pdos p with present := false }
      else b.pdos p }

/-- What `Bus_RemoveDisk` does to the PDO it finds. -/
@[simps! -fullyApplied]
def resetRemoveEvent (b : Bus) (p : PdoId) : Bus :=
  (b.setEvent (b.pdos p).removeEvent false).log (.resetEvent p (b.events (b.pdos p).removeEvent))

/-- `KeSetEvent` on a PDO's remove event. -/
@[simps! -fullyApplied]
def signalRemoveEvent (b : Bus) (p : PdoId) : Bus :=
  (b.setEvent (b.pdos p).removeEvent true).setPdo p fun d => { d with signalled := true }

/-- A BusRelations answer: the objects collected so far, then the PDOs present on the bus. -/
def relations (b : Bus) (old : List DeviceId) : List DeviceId :=
  old ++ (b.fdo.listOfPDOs.filter fun p => (b.pdos p).present).map .pdo

/-- The fill loop of a BusRelations query: a PDO that is not present is reported missing. -/
@[simps! -fullyApplied]
def reportMissing (b : Bus) : Bus :=
  { b with pdos := fun p =>
      if p ∈ b.fdo.listOfPDOs ∧ (b.pdos p).present = false then
        { b.pdos p with reportedMissing := true }
      else b.pdos p }

end Bus

end VirtualDisk
