import VirtualDisk.Machinery.Transition
import VirtualDisk.Driver.Bus

/-!
# Driver/Step — the driver's routines, step by step

`Pc` says where a thread is inside the driver, and `Pc.step` performs the next atomic step there.  A
step is one of: a section under the FDO's mutex, an operation on a cancel-safe queue, one API call,
or the part of a PDOLock section between two of these.  A lock held across several steps is recorded
in the device extension, and a step that needs it is disabled until it is free.

Dereferencing a NULL or uninitialised parent pointer sends the thread to `Pc.crash`, which names the
IRP it had in hand.
-/

namespace VirtualDisk

open Machinery

/-- The caller of `BusStartNextPacket`: the GET_REQUEST loop standing at a PDO, or
`Bus_ProcessReply`. -/
inductive NextCaller
  | getRequest (p : PdoId)
  | reply
  deriving DecidableEq, Repr

/-- The caller of `Bus_DestroyPdo`: the PDO's own REMOVE_DEVICE, with its parent or as an orphan,
or the FDO's. -/
inductive DestroyCaller
  | pdo
  | orphan
  | fdo
  deriving DecidableEq, Repr

/-- The PnP requests that only move a device's state or its `Present` flag. -/
inductive PnpMinor
  | start
  | stop
  | queryStop
  | cancelStop
  | queryRemove
  | cancelRemove
  | surpriseRemoval
  | eject
  deriving DecidableEq, Repr

/-- **Where a thread is.**  `p`, `i` and `r` are the routine's local variables `pdoData`, `Irp` and
`rqIrp`. -/
inductive Pc
  | idle
  | ret (status : NTSTATUS)
  | crash (irp : Option IrpId)
  -- Bus_Scsi
  | busScsi (p : PdoId) (i : IrpId)
  | scsiAcquire (p : PdoId) (i : IrpId)
  | scsiEnd (p : PdoId) (i : IrpId) (status : NTSTATUS)
  | scsiRelease (p : PdoId) (status : NTSTATUS)
  -- BusStartPacket
  | startPacket (p : PdoId) (i : IrpId)
  | startRequest (p : PdoId) (i : IrpId)
  | startInsert (p : PdoId) (i : IrpId)
  | startSetup (p : PdoId) (i : IrpId) (r : RqId)
  | startFail (p : PdoId) (i : IrpId)
  | startComplete (p : PdoId) (i : IrpId) (r : RqId)
  -- BusStartNextPacket
  | nextPacket (p : PdoId) (k : NextCaller)
  | nextRequest (p : PdoId) (k : NextCaller)
  | nextIrp (p : PdoId) (r : RqId) (k : NextCaller)
  | nextSetup (p : PdoId) (r : RqId) (i : IrpId) (k : NextCaller)
  | nextPutBack (p : PdoId) (r : RqId) (k : NextCaller)
  | nextFail (i : IrpId) (k : NextCaller)
  | nextComplete (r : RqId) (k : NextCaller)
  -- Bus_FDO_IoCtl (IOCTL_BUSENUM_GET_REQUEST)
  | getInsert (r : RqId)
  | getLoop (e : Entry)
  -- Bus_ProcessReply
  | replyFind (rep : Tagged BusenumReply)
  | replyTake (p : PdoId) (rep : Tagged BusenumReply)
  | replyComplete (p : PdoId) (i : IrpId)
  | replyRelease (p : PdoId)
  -- Bus_AddDisk, Bus_InitializePdo
  | addUnique (dd : BusenumAddDisk)
  | addCreate (dd : BusenumAddDisk)
  | addInsert (p : PdoId)
  -- Bus_RemoveDisk
  | removeDisk (handle : ULONG)
  -- Bus_PDO_PnP
  | pdoPnp (p : PdoId) (m : PnpMinor)
  | pdoRemove (p : PdoId)
  | pdoUnlink (p : PdoId)
  | pdoRemoved
  | pdoSignal
  | queryCaps (p : PdoId) (wellFormed : Bool)
  -- Bus_DestroyPdo
  | destroyTake (p : PdoId) (k : DestroyCaller)
  | destroyComplete (p : PdoId) (i : IrpId) (k : DestroyCaller)
  | destroyDrain (p : PdoId) (k : DestroyCaller)
  | destroyDrained (p : PdoId) (i : IrpId) (k : DestroyCaller)
  | destroyUnmap (p : PdoId) (k : DestroyCaller)
  | destroySignal (p : PdoId) (k : DestroyCaller)
  | destroyDelete (p : PdoId) (k : DestroyCaller)
  -- Bus_PnP, Bus_FDO_PnP
  | busPnp (old : Option (List DeviceId))
  | queryRelations (old : Option (List DeviceId))
  | fdoSurprise
  | fdoOrphan
  | fdoRemove
  | fdoLock
  | fdoLoop
  -- Bus_FDO_Cleanup
  | cleanup (file : FileObject)
  | cleanupDrain (file : FileObject)
  | cleanupDrained (r : RqId) (file : FileObject)
  | cleanupTest
  | cleanupReset
  | cleanupRemoveAll
  | cleanupWait
  -- cancel routines
  | csqCancelIrp (p : PdoId) (i : IrpId)
  | busCancelIrp (i : IrpId)
  | csqCancelRequest (r : RqId)

namespace Pc

/-- Where `BusStartNextPacket` returns to. -/
def nextReturn : NextCaller → Pc
  | .getRequest p => .getLoop (.pdo p)
  | .reply => .ret statusSuccess

/-- Where `Bus_DestroyPdo` returns to.  The handler of an orphan goes on to read `fdoData`, which
it has not assigned. -/
def destroyReturn : DestroyCaller → Pc
  | .pdo => .pdoRemoved
  | .orphan => .crash none
  | .fdo => .fdoLoop

end Pc

/-- The state machine of `Bus_PDO_PnP`: the new `DevicePnPState` and `PreviousPnPState`. -/
def PnpMinor.states (m : PnpMinor) (d : PdoDeviceData) : DevicePnpState × DevicePnpState :=
  let set (s : DevicePnpState) := (s, d.devicePnPState)
  let restoreFrom (s : DevicePnpState) :=
    (if d.devicePnPState = s then d.previousPnPState else d.devicePnPState, d.previousPnPState)
  match m with
  | .start => set .started
  | .stop => set .stopped
  | .queryStop => set .stopPending
  | .cancelStop => restoreFrom .stopPending
  | .queryRemove => set .removePending
  | .cancelRemove => restoreFrom .removePending
  | .surpriseRemoval => set .surpriseRemovePending
  | .eject => (d.devicePnPState, d.previousPnPState)

/-- What a request does to the device extension: it moves the state, and an eject clears
`Present`. -/
@[simps]
def PnpMinor.apply (m : PnpMinor) (d : PdoDeviceData) : PdoDeviceData :=
  { d with
    devicePnPState := (m.states d).1
    previousPnPState := (m.states d).2
    present := m ≠ .eject && d.present }

namespace Bus

/-! ## The steps of each routine -/

/-- `Bus_Scsi`. -/
def scsiStep (b : Bus) (ok : Bool) (p : PdoId) (i : IrpId) : Bus × Pc :=
  if ok then
    (b.setPdo p fun d => { d with removeLock := d.removeLock + 1 }, .startPacket p i)
  else
    (b.completeIrp i statusDeletePending, .ret statusDeletePending)

/-- `Bus_Scsi` from the label `END` on. -/
def scsiEndStep (b : Bus) (p : PdoId) (i : IrpId) (status : NTSTATUS) : Bus × Pc :=
  if status ≠ statusPending then (b.completeIrp i status, .scsiRelease p status)
  else (b, .scsiRelease p status)

/-- `BusStartPacket` acquires the PDO lock and tests `CurrentIrp`. -/
def startPacketStep (b : Bus) (t : Tid) (p : PdoId) (i : IrpId) : Option (Bus × Pc) :=
  if (b.pdos p).pdoLock ≠ none then none
  else if (b.pdos p).currentIrp ≠ none then some (b.acquire p t, .startInsert p i)
  else if (b.pdos p).parentFdo = none then some (b, .crash (some i))
  else some (b.acquire p t, .startRequest p i)

/-- `BusStartPacket` takes a GET_REQUEST IRP, if there is one. -/
def startRequestStep (b : Bus) (p : PdoId) (i : IrpId) : Bus × Pc :=
  match b.peekRequest none with
  | none => (b, .startInsert p i)
  | some r => (b.removeRequest r, .startSetup p i r)

/-- `BusStartPacket` with both IRPs in hand. -/
def startSetupStep (b : Bus) (ok : Bool) (p : PdoId) (i : IrpId) (r : RqId) : Bus × Pc :=
  if ok then (b.startIrp p r i, .startComplete p i r)
  else ((b.insertRequest r).release p, .startFail p i)

/-- `BusStartNextPacket` acquires the PDO lock and tests `CurrentIrp`. -/
def nextPacketStep (b : Bus) (t : Tid) (p : PdoId) (k : NextCaller) : Option (Bus × Pc) :=
  if (b.pdos p).pdoLock ≠ none then none
  else if (b.pdos p).currentIrp ≠ none then some (b, .nextReturn k)
  else if (b.pdos p).parentFdo = none then some (b, .crash none)
  else some (b.acquire p t, .nextRequest p k)

/-- `BusStartNextPacket` takes a GET_REQUEST IRP, if there is one. -/
def nextRequestStep (b : Bus) (p : PdoId) (k : NextCaller) : Bus × Pc :=
  match b.peekRequest none with
  | none => (b.release p, .nextReturn k)
  | some r => (b.removeRequest r, .nextIrp p r k)

/-- `BusStartNextPacket` looks for an IRP to go with it. -/
def nextIrpStep (b : Bus) (p : PdoId) (r : RqId) (k : NextCaller) : Bus × Pc :=
  match b.peekIrp p with
  | none => (b, .nextPutBack p r k)
  | some i => (b.removeIrp p i, .nextSetup p r i k)

/-- `BusStartNextPacket` with both IRPs in hand. -/
def nextSetupStep (b : Bus) (ok : Bool) (p : PdoId) (r : RqId) (i : IrpId) (k : NextCaller) :
    Bus × Pc :=
  if ok then (b.startIrp p r i, .nextComplete r k)
  else ((b.insertRequest r).release p, .nextFail i k)

/-- The loop of IOCTL_BUSENUM_GET_REQUEST reads the link of the entry it stands at. -/
def getLoopStep (b : Bus) (e : Entry) : Bus × Pc :=
  match b.flink e with
  | .head => (b, .ret statusPending)
  | .pdo p => (b, .nextPacket p (.getRequest p))

/-- `Bus_ProcessReply` looks its disk up, under the mutex. -/
def replyFindStep (b : Bus) (rep : Tagged BusenumReply) : Option (Bus × Pc) :=
  if b.fdo.mutex ≠ none then none
  else if b.fdo.numPDOs = 0 then some (b, .ret statusNoSuchDevice)
  else match b.findPdo rep.val.handle with
    | none => some (b, .ret statusInvalidParameter)
    | some p => some (b, .replyTake p rep)

/-- The PDOLock section of `Bus_ProcessReply`. -/
def replyTakeStep (b : Bus) (p : PdoId) (rep : Tagged BusenumReply) : Option (Bus × Pc) :=
  if (b.pdos p).pdoLock ≠ none then none
  else match (b.pdos p).currentIrp with
    | none => some (b, .ret statusSuccess)
    | some i => some (b.acceptReply p i rep, .replyComplete p i)

/-- `Bus_AddDisk` searches the list, under the mutex. -/
def addUniqueStep (b : Bus) (dd : BusenumAddDisk) : Option (Bus × Pc) :=
  if b.fdo.mutex ≠ none then none
  else if b.unique dd.handle then some (b, .addCreate dd)
  else some (b, .ret statusInvalidParameter)

/-- `Bus_AddDisk` and `Bus_InitializePdo` create the PDO; `ok` says whether every fallible call
succeeded.  Which call failed is not told apart here, so one status stands for all of theirs. -/
def addCreateStep (b : Bus) (ok : Bool) (dd : BusenumAddDisk) : Bus × Pc :=
  if ok then
    (b.createPdo dd, .addInsert b.pdoCount)
  else (b, .ret statusInsufficientResources)

/-- `Bus_InitializePdo` puts the PDO on the list, under the mutex. -/
def addInsertStep (b : Bus) (p : PdoId) : Option (Bus × Pc) :=
  if b.fdo.mutex ≠ none then none
  else some ((b.insertTailList p).setPdo p fun d => { d with deviceInitializing := false },
    .ret statusSuccess)

/-- `Bus_RemoveDisk`, under the mutex: the remove event is reset and the eject requested. -/
def removeDiskStep (b : Bus) (handle : ULONG) : Option (Bus × Pc) :=
  if b.fdo.mutex ≠ none then none
  else if b.fdo.numPDOs = 0 then some (b, .ret statusNoSuchDevice)
  else match b.findPdo handle with
    | none => some (b, .ret statusInvalidParameter)
    | some p => some (b.resetRemoveEvent p, .ret statusSuccess)

/-- `Bus_PDO_PnP` for the requests that only move the state. -/
def pdoPnpStep (b : Bus) (p : PdoId) (m : PnpMinor) : Bus × Pc :=
  if (b.pdos p).devicePnPState = .deleted then (b, .ret statusNoSuchDevice)
  else (b.setPdo p m.apply, .ret statusSuccess)

/-- `Bus_PDO_PnP` (IRP_MN_REMOVE_DEVICE) up to the removal from the list. -/
def pdoRemoveStep (b : Bus) (p : PdoId) : Bus × Pc :=
  if (b.pdos p).devicePnPState = .deleted then (b, .ret statusNoSuchDevice)
  else if (b.pdos p).reportedMissing then
    (b.setPdo p fun d => setNewPnpState { d with claimed := false } .deleted,
      if (b.pdos p).parentFdo = none then .destroyTake p .orphan else .pdoUnlink p)
  else if (b.pdos p).present then
    (b.setPdo p fun d => setNewPnpState { d with claimed := false } .notStarted, .ret statusSuccess)
  else (b.setPdo p fun d => { d with claimed := false }, .ret statusSuccess)

/-- `Bus_PDO_PnP` (IRP_MN_REMOVE_DEVICE) takes the PDO off the list, under the mutex. -/
def pdoUnlinkStep (b : Bus) (p : PdoId) : Option (Bus × Pc) :=
  if b.fdo.mutex ≠ none then none
  else some (b.unlinkCounted p, .destroyTake p .pdo)

/-- `Bus_PDO_PnP` (IRP_MN_REMOVE_DEVICE) after the destruction: the last PDO is to wake the
cleanup. -/
def pdoRemovedStep (b : Bus) : Bus × Pc :=
  (b, if b.fdo.numPDOs = 0 then .pdoSignal else .ret statusSuccess)

/-- `Bus_PDO_QueryDeviceCaps`, which asks the driver below the parent. -/
def queryCapsStep (b : Bus) (ok : Bool) (p : PdoId) (wellFormed : Bool) : Bus × Pc :=
  if (b.pdos p).devicePnPState = .deleted then (b, .ret statusNoSuchDevice)
  else if wellFormed = false then (b, .ret statusUnsuccessful)
  else if (b.pdos p).parentFdo = none then (b, .crash none)
  else (b, .ret (if ok then statusSuccess else statusUnsuccessful))

/-- The PDOLock section of `Bus_DestroyPdo`. -/
def destroyTakeStep (b : Bus) (p : PdoId) (k : DestroyCaller) : Option (Bus × Pc) :=
  if (b.pdos p).pdoLock ≠ none then none
  else match (b.pdos p).currentIrp with
    | none => some (b.setPdo p fun d => { d with drained := true }, .destroyDrain p k)
    | some i => some (b.cancelCurrent p i, .destroyComplete p i k)

/-- The drain loop of `Bus_DestroyPdo` takes the next IRP. -/
def destroyDrainStep (b : Bus) (p : PdoId) (k : DestroyCaller) : Bus × Pc :=
  match b.peekIrp p with
  | none => (b, .destroyUnmap p k)
  | some i => (b.removeIrp p i, .destroyDrained p i k)

/-- `Bus_FDO_PnP` (IRP_MN_QUERY_DEVICE_RELATIONS), under the mutex; `ok` says whether the pool
allocation succeeds. -/
def queryRelationsStep (b : Bus) (ok : Bool) (old : Option (List DeviceId)) : Option (Bus × Pc) :=
  if b.fdo.mutex ≠ none then none
  else if old.isSome ∧ b.fdo.numPDOs = 0 then some (b, .ret statusSuccess)
  else if ok then
    some (b.reportMissing.log
      (.relations b.fdo.listOfPDOs (old.getD []) (b.relations (old.getD []))), .ret statusSuccess)
  else some (b, .ret statusInsufficientResources)

/-- `Bus_FDO_PnP` (IRP_MN_SURPRISE_REMOVAL) unlinks every PDO, under the mutex, and leaves the
count alone. -/
def fdoOrphanStep (b : Bus) : Option (Bus × Pc) :=
  if b.fdo.mutex ≠ none then none
  else some (b.orphanAll, .ret statusSuccess)

/-- The loop of `Bus_FDO_PnP` (IRP_MN_REMOVE_DEVICE), which holds the mutex: a surprise-removed
child is orphaned, any other is counted off and destroyed.  The wait for the remove lock, behind the
loop, is the dispatch routine's (`Driver.Dispatch`). -/
def fdoLoopStep (b : Bus) : Bus × Pc :=
  match b.fdo.listOfPDOs with
  | [] => (b.setFdo fun f => { f with mutex := none }, .ret statusSuccess)
  | p :: _ =>
    if (b.pdos p).devicePnPState = .surpriseRemovePending then
      (b.orphanOne p, .fdoLoop)
    else (b.unlinkCounted p, .destroyTake p .fdo)

/-- `Bus_RemoveAllDisks`, under the mutex. -/
def removeAllDisksStep (b : Bus) : Option (Bus × Pc) :=
  if b.fdo.mutex ≠ none then none
  else if b.fdo.numPDOs = 0 then some (b, .cleanupWait)
  else some (b.ejectAll, .cleanupWait)

/-- The drain loop of `Bus_FDO_Cleanup` takes the next GET_REQUEST IRP of its file object. -/
def cleanupDrainStep (b : Bus) (file : FileObject) : Bus × Pc :=
  match b.peekRequest (some file) with
  | none => (b, .cleanupTest)
  | some r => (b.removeRequest r, .cleanupDrained r file)

end Bus

/-- **The next atomic step of a thread.**  `ok` is the outcome of a fallible call the step makes:
`IoAcquireRemoveLock` on a PDO, or an allocation. -/
def Pc.step (t : Tid) (ok : Bool) (b : Bus) : Pc → Option (Bus × Pc)
  | .idle => none
  | .ret _ => none
  | .crash _ => none
  | .busScsi p i =>
    if (b.pdos p).devicePnPState = .deleted then some (b, .scsiEnd p i statusNoSuchDevice)
    else some (b, .scsiAcquire p i)
  | .scsiAcquire p i => some (b.scsiStep ok p i)
  | .scsiEnd p i status => some (b.scsiEndStep p i status)
  | .scsiRelease p status => some (b.releaseRemoveLock p, .ret status)
  | .startPacket p i => b.startPacketStep t p i
  | .startRequest p i => some (b.startRequestStep p i)
  | .startInsert p i => some ((b.insertIrp p i).release p, .scsiEnd p i statusPending)
  | .startSetup p i r => some (b.startSetupStep ok p i r)
  | .startFail p i => some (b.failIrp i statusDeletePending, .scsiEnd p i statusDeletePending)
  | .startComplete p i r => some (b.completeRequest r statusSuccess, .scsiEnd p i statusPending)
  | .nextPacket p k => b.nextPacketStep t p k
  | .nextRequest p k => some (b.nextRequestStep p k)
  | .nextIrp p r k => some (b.nextIrpStep p r k)
  | .nextSetup p r i k => some (b.nextSetupStep ok p r i k)
  | .nextPutBack p r k => some ((b.insertRequest r).release p, nextReturn k)
  | .nextFail i k => some (b.failIrp i statusDeletePending, nextReturn k)
  | .nextComplete r k => some (b.completeRequest r statusSuccess, nextReturn k)
  | .getInsert r =>
    if b.fdo.devicePnPState = .deleted then
      some (b.completeRequest r statusNoSuchDevice, .ret statusNoSuchDevice)
    else some (b.insertRequest r, .getLoop .head)
  | .getLoop e => some (b.getLoopStep e)
  | .replyFind rep => b.replyFindStep rep
  | .replyTake p rep => b.replyTakeStep p rep
  | .replyComplete p i => some (b.log (.complete i), .replyRelease p)
  | .replyRelease p => some (b.releaseRemoveLock p, .nextPacket p .reply)
  | .addUnique dd => b.addUniqueStep dd
  | .addCreate dd => some (b.addCreateStep ok dd)
  | .addInsert p => b.addInsertStep p
  | .removeDisk handle => b.removeDiskStep handle
  | .pdoPnp p m => some (b.pdoPnpStep p m)
  | .pdoRemove p => some (b.pdoRemoveStep p)
  | .pdoUnlink p => b.pdoUnlinkStep p
  | .pdoRemoved => some b.pdoRemovedStep
  | .pdoSignal => some (b.setFdo fun f => { f with cleanupReadyEvent := true }, .ret statusSuccess)
  | .queryCaps p wellFormed => some (b.queryCapsStep ok p wellFormed)
  | .destroyTake p k => b.destroyTakeStep p k
  | .destroyComplete p i k => some ((b.log (.complete i)).releaseRemoveLock p, .destroyDrain p k)
  | .destroyDrain p k => some (b.destroyDrainStep p k)
  | .destroyDrained p i k => some (b.failIrp i statusCancelled, .destroyDrain p k)
  | .destroyUnmap p k => some (b.setPdo p fun d => { d with mapped := false }, .destroySignal p k)
  | .destroySignal p k =>
    some (b.signalRemoveEvent p, .destroyDelete p k)
  | .destroyDelete p k => some (b.setPdo p fun d => { d with deleted := true }, destroyReturn k)
  | .busPnp old =>
    if b.fdo.devicePnPState = .deleted then some (b, .ret statusNoSuchDevice)
    else some (b, .queryRelations old)
  | .queryRelations old => b.queryRelationsStep ok old
  | .fdoSurprise =>
    if b.fdo.devicePnPState = .deleted then some (b, .ret statusNoSuchDevice)
    else some (b.setFdo fun f => Bus.setNewFdoState f .surpriseRemovePending, .fdoOrphan)
  | .fdoOrphan => b.fdoOrphanStep
  | .fdoRemove =>
    if b.fdo.devicePnPState = .deleted then some (b, .ret statusNoSuchDevice)
    else some (b.setFdo fun f => Bus.setNewFdoState f .deleted, .fdoLock)
  | .fdoLock =>
    if b.fdo.mutex ≠ none then none
    else some (b.setFdo fun f => { f with mutex := some t }, .fdoLoop)
  | .fdoLoop => some b.fdoLoopStep
  | .cleanup file =>
    if b.fdo.devicePnPState = .deleted then some (b, .ret statusNoSuchDevice)
    else some (b, .cleanupDrain file)
  | .cleanupDrain file => some (b.cleanupDrainStep file)
  | .cleanupDrained r file => some (b.completeRequest r statusCancelled, .cleanupDrain file)
  | .cleanupTest =>
    if 0 < b.fdo.numPDOs then some (b, .cleanupReset) else some (b, .ret statusSuccess)
  | .cleanupReset =>
    some (b.setFdo fun f => { f with cleanupReadyEvent := false }, .cleanupRemoveAll)
  | .cleanupRemoveAll => b.removeAllDisksStep
  | .cleanupWait => if b.fdo.cleanupReadyEvent then some (b, .ret statusSuccess) else none
  | .csqCancelIrp p i =>
    some ((b.setPdo p fun d => { d with irpQueue := d.irpQueue.erase i }).failIrp i statusCancelled,
      .ret statusSuccess)
  | .busCancelIrp i => some (b.completeIrp i statusCancelled, .ret statusSuccess)
  | .csqCancelRequest r =>
    some ((b.setFdo fun f => { f with requestQueue := f.requestQueue.erase r }).completeRequest r
      statusCancelled, .ret statusSuccess)

/-! ## The driver as a transition system -/

/-- The driver: its shared state, and where each thread is. -/
structure Driver where
  bus : Bus := {}
  calls : Tid → Pc := fun _ => .idle

/-- A routine a thread may enter, with its arguments. -/
inductive Call
  | scsi (p : PdoId) (i : IrpId) (srb : ScsiRequestBlock)
  | getRequest (r : RqId) (file : FileObject)
  | sendReply (rep : Tagged BusenumReply)
  | addDisk (dd : BusenumAddDisk)
  | removeDisk (handle : ULONG)
  | pdoPnp (p : PdoId) (m : PnpMinor)
  | pdoRemove (p : PdoId)
  | queryCapabilities (p : PdoId) (wellFormed : Bool)
  | queryRelations (old : Option (List DeviceId))
  | fdoSurpriseRemoval
  | fdoRemove
  | cleanup (file : FileObject)

/-- What can happen: a thread enters a routine, makes its next step or leaves; the I/O manager
cancels an IRP (`IoCancelIrp`); the owner of a mapped buffer writes to it, or consumes an event it
waits for. -/
inductive Action
  | call (t : Tid) (c : Call)
  | step (t : Tid) (ok : Bool)
  | leave (t : Tid)
  | cancelIrp (t : Tid) (i : IrpId)
  | cancelRequest (t : Tid) (r : RqId)
  | userWrite (m : BufferId) (f : Bytes)
  | userWait (e : EventId)

namespace Bus

/-- A PDO that can be sent requests: its initialisation is complete and it is not deleted. -/
def exposed (b : Bus) (p : PdoId) : Bool :=
  p < b.pdoCount && !(b.pdos p).deviceInitializing && !(b.pdos p).deleted

/-- `Bus_IoCtl` sends an IOCTL on, unless the FDO is deleted. -/
def dispatch (b : Bus) (pc : Pc) : Pc :=
  if b.fdo.devicePnPState = .deleted then .ret statusNoSuchDevice else pc

/-- A thread enters a routine.  READ and WRITE IRPs and GET_REQUEST IRPs are new ones. -/
def enter (b : Bus) : Call → Option (Bus × Pc)
  | .scsi p i srb =>
    if b.exposed p ∧ srb.cdb.isReadWrite ∧ ¬ (b.irps i).arrived then
      some ((b.setIrp i fun x => { x with arrived := true, srb }).log (.arrive p i), .busScsi p i)
    else none
  | .getRequest r file =>
    if ¬ (b.requests r).arrived then
      some (b.setRequest r fun x => { x with arrived := true, fileObject := file }, .getInsert r)
    else none
  | .sendReply rep => some (b, b.dispatch (.replyFind rep))
  | .addDisk dd => some (b, b.dispatch (.addUnique dd))
  | .removeDisk handle => some (b, b.dispatch (.removeDisk handle))
  | .pdoPnp p m => if b.exposed p then some (b, .pdoPnp p m) else none
  | .pdoRemove p => if b.exposed p then some (b, .pdoRemove p) else none
  | .queryCapabilities p wellFormed =>
    if b.exposed p then some (b, .queryCaps p wellFormed) else none
  | .queryRelations old => some (b, .busPnp old)
  | .fdoSurpriseRemoval => some (b, .fdoSurprise)
  | .fdoRemove => some (b, .fdoRemove)
  | .cleanup file => some (b, .cleanup file)

/-- `IoCancelIrp` on a READ or WRITE IRP: the flag is set and the registered cancel routine, taken
out of the IRP, is called. -/
def cancel (b : Bus) (i : IrpId) : Bus × Pc :=
  (b.setIrp i fun x => { x with cancel := true, cancelRoutine := none },
    match (b.irps i).cancelRoutine with
    | none => .ret statusSuccess
    | some (.csq p) => .csqCancelIrp p i
    | some .busCancelIrp => .busCancelIrp i)

/-- `IoCancelIrp` on a GET_REQUEST IRP. -/
def cancelRq (b : Bus) (r : RqId) : Bus × Pc :=
  (b.setRequest r fun x => { x with cancel := true, armed := false },
    if (b.requests r).armed then .csqCancelRequest r else .ret statusSuccess)

/-- The IRPs completed so far, the latest first. -/
def completed (b : Bus) : List IrpId :=
  b.trace.filterMap fun
    | .complete i => some i
    | _ => none

end Bus

namespace Driver

/-- The thread `t` is at `pc`, the shared state is `b`. -/
def put (s : Driver) (t : Tid) (r : Bus × Pc) : Driver where
  bus := r.1
  calls := Function.update s.calls t r.2

@[simp] theorem put_bus (s : Driver) (t : Tid) (r : Bus × Pc) : (s.put t r).bus = r.1 := rfl

@[simp] theorem put_calls_self (s : Driver) (t : Tid) (r : Bus × Pc) :
    (s.put t r).calls t = r.2 := Function.update_self ..

theorem put_calls_of_ne (s : Driver) {t t₂ : Tid} (h : t₂ ≠ t) (r : Bus × Pc) :
    (s.put t r).calls t₂ = s.calls t₂ := Function.update_of_ne h ..

/-- **One step of the driver.** -/
def step (s : Driver) : Action → Option Driver
  | .call t c => match s.calls t with
    | .idle => (s.bus.enter c).map (s.put t)
    | _ => none
  | .step t ok => ((s.calls t).step t ok s.bus).map (s.put t)
  | .leave t => match s.calls t with
    | .ret _ => some (s.put t (s.bus, .idle))
    | _ => none
  | .cancelIrp t i => match s.calls t with
    | .idle =>
      if (s.bus.irps i).arrived ∧ i ∉ s.bus.completed then some (s.put t (s.bus.cancel i)) else none
    | _ => none
  | .cancelRequest t r => match s.calls t with
    | .idle =>
      if (s.bus.requests r).arrived ∧ ¬ (s.bus.requests r).completed then
        some (s.put t (s.bus.cancelRq r))
      else none
    | _ => none
  | .userWrite m f => some { s with bus := s.bus.setMemory m f }
  | .userWait e => if s.bus.events e then some { s with bus := s.bus.setEvent e false } else none

/-- **The driver**, started with an empty bus. -/
def lts : Lts Driver Action := ⟨{}, step⟩

end Driver

end VirtualDisk
