import VirtualDisk.Driver.Step

/-!
# Driver/Moves — what a step can do, said once

`Moves t b a pc b' pc'` relates a thread's place and the shared state before and after one action of
that thread, with one constructor for each branch of each routine.  `Driver.step_moves` inverts the
step function into it, so an invariant is proved by cases on `Moves` and no proof unfolds a routine.
-/

namespace VirtualDisk

open Machinery

/-- **One action `a` of thread `t`**, from the place `pc` in the state `b` to `pc'` in `b'`. -/
inductive Moves (t : Tid) (b : Bus) : Action → Pc → Bus → Pc → Prop
  -- entering a routine and leaving it
  | callScsi {p i srb} (hp : b.exposed p = true) (hrw : srb.cdb.isReadWrite = true)
      (hi : (b.irps i).arrived = false) :
      Moves t b (.call t (.scsi p i srb)) .idle
        ((b.setIrp i fun x => { x with arrived := true, srb }).log (.arrive p i)) (.busScsi p i)
  | callGetRequest {r file} (hr : (b.requests r).arrived = false) :
      Moves t b (.call t (.getRequest r file)) .idle
        (b.setRequest r fun x => { x with arrived := true, fileObject := file }) (.getInsert r)
  | callSendReply {rep} (hd : b.fdo.devicePnPState ≠ .deleted) :
      Moves t b (.call t (.sendReply rep)) .idle b (.replyFind rep)
  | callSendReplyDeleted {rep} (hd : b.fdo.devicePnPState = .deleted) :
      Moves t b (.call t (.sendReply rep)) .idle b (.ret statusNoSuchDevice)
  | callAddDisk {dd} (hd : b.fdo.devicePnPState ≠ .deleted) :
      Moves t b (.call t (.addDisk dd)) .idle b (.addUnique dd)
  | callAddDiskDeleted {dd} (hd : b.fdo.devicePnPState = .deleted) :
      Moves t b (.call t (.addDisk dd)) .idle b (.ret statusNoSuchDevice)
  | callRemoveDisk {handle} (hd : b.fdo.devicePnPState ≠ .deleted) :
      Moves t b (.call t (.removeDisk handle)) .idle b (.removeDisk handle)
  | callRemoveDiskDeleted {handle} (hd : b.fdo.devicePnPState = .deleted) :
      Moves t b (.call t (.removeDisk handle)) .idle b (.ret statusNoSuchDevice)
  | callPdoPnp {p m} (hp : b.exposed p = true) :
      Moves t b (.call t (.pdoPnp p m)) .idle b (.pdoPnp p m)
  | callPdoRemove {p} (hp : b.exposed p = true) :
      Moves t b (.call t (.pdoRemove p)) .idle b (.pdoRemove p)
  | callQueryCapabilities {p wellFormed} (hp : b.exposed p = true) :
      Moves t b (.call t (.queryCapabilities p wellFormed)) .idle b (.queryCaps p wellFormed)
  | callQueryRelations {old} :
      Moves t b (.call t (.queryRelations old)) .idle b (.busPnp old)
  | callFdoSurpriseRemoval : Moves t b (.call t .fdoSurpriseRemoval) .idle b .fdoSurprise
  | callFdoRemove : Moves t b (.call t .fdoRemove) .idle b .fdoRemove
  | callCleanup {file} : Moves t b (.call t (.cleanup file)) .idle b (.cleanup file)
  | leave {status} : Moves t b (.leave t) (.ret status) b .idle
  -- IoCancelIrp
  | cancelNone {i} (ha : (b.irps i).arrived = true) (hi : i ∉ b.completed)
      (hc : (b.irps i).cancelRoutine = none) :
      Moves t b (.cancelIrp t i) .idle
        (b.setIrp i fun x => { x with cancel := true, cancelRoutine := none }) (.ret statusSuccess)
  | cancelCsq {i p} (ha : (b.irps i).arrived = true) (hi : i ∉ b.completed)
      (hc : (b.irps i).cancelRoutine = some (.csq p)) :
      Moves t b (.cancelIrp t i) .idle
        (b.setIrp i fun x => { x with cancel := true, cancelRoutine := none }) (.csqCancelIrp p i)
  | cancelBus {i} (ha : (b.irps i).arrived = true) (hi : i ∉ b.completed)
      (hc : (b.irps i).cancelRoutine = some .busCancelIrp) :
      Moves t b (.cancelIrp t i) .idle
        (b.setIrp i fun x => { x with cancel := true, cancelRoutine := none }) (.busCancelIrp i)
  | cancelRequestNone {r} (ha : (b.requests r).arrived = true)
      (hr : (b.requests r).completed = false) (hc : (b.requests r).armed = false) :
      Moves t b (.cancelRequest t r) .idle
        (b.setRequest r fun x => { x with cancel := true, armed := false }) (.ret statusSuccess)
  | cancelRequestArmed {r} (ha : (b.requests r).arrived = true)
      (hr : (b.requests r).completed = false) (hc : (b.requests r).armed = true) :
      Moves t b (.cancelRequest t r) .idle
        (b.setRequest r fun x => { x with cancel := true, armed := false }) (.csqCancelRequest r)
  -- Bus_Scsi
  | busScsiDeleted {ok p i} (h : (b.pdos p).devicePnPState = .deleted) :
      Moves t b (.step t ok) (.busScsi p i) b (.scsiEnd p i statusNoSuchDevice)
  | busScsi {ok p i} (h : (b.pdos p).devicePnPState ≠ .deleted) :
      Moves t b (.step t ok) (.busScsi p i) b (.scsiAcquire p i)
  | scsiAcquire {p i} :
      Moves t b (.step t true) (.scsiAcquire p i)
        (b.setPdo p fun d => { d with removeLock := d.removeLock + 1 }) (.startPacket p i)
  | scsiAcquireFailed {p i} :
      Moves t b (.step t false) (.scsiAcquire p i) (b.completeIrp i statusDeletePending)
        (.ret statusDeletePending)
  | scsiEndPending {ok p i} :
      Moves t b (.step t ok) (.scsiEnd p i statusPending) b (.scsiRelease p statusPending)
  | scsiEnd {ok p i status} (h : status ≠ statusPending) :
      Moves t b (.step t ok) (.scsiEnd p i status) (b.completeIrp i status) (.scsiRelease p status)
  | scsiRelease {ok p status} :
      Moves t b (.step t ok) (.scsiRelease p status) (b.releaseRemoveLock p) (.ret status)
  -- BusStartPacket
  | startPacketBusy {ok p i} (hl : (b.pdos p).pdoLock = none)
      (hc : (b.pdos p).currentIrp ≠ none) :
      Moves t b (.step t ok) (.startPacket p i) (b.acquire p t) (.startInsert p i)
  | startPacketCrash {ok p i} (hl : (b.pdos p).pdoLock = none)
      (hc : (b.pdos p).currentIrp = none) (hf : (b.pdos p).parentFdo = none) :
      Moves t b (.step t ok) (.startPacket p i) b (.crash (some i))
  | startPacket {ok p i} (hl : (b.pdos p).pdoLock = none) (hc : (b.pdos p).currentIrp = none)
      (hf : (b.pdos p).parentFdo ≠ none) :
      Moves t b (.step t ok) (.startPacket p i) (b.acquire p t) (.startRequest p i)
  | startRequestNone {ok p i} (h : b.peekRequest none = none) :
      Moves t b (.step t ok) (.startRequest p i) b (.startInsert p i)
  | startRequest {ok p i r} (h : b.peekRequest none = some r) :
      Moves t b (.step t ok) (.startRequest p i) (b.removeRequest r) (.startSetup p i r)
  | startInsertCancelled {ok p i} (h : (b.irps i).cancel = true) :
      Moves t b (.step t ok) (.startInsert p i) ((b.failIrp i statusCancelled).release p)
        (.scsiEnd p i statusPending)
  | startInsert {ok p i} (h : (b.irps i).cancel = false) :
      Moves t b (.step t ok) (.startInsert p i) ((b.appendIrp p i).release p)
        (.scsiEnd p i statusPending)
  | startSetup {p i r} :
      Moves t b (.step t true) (.startSetup p i r) (b.startIrp p r i) (.startComplete p i r)
  | startSetupFailed {p i r} (h : (b.requests r).cancel = false) :
      Moves t b (.step t false) (.startSetup p i r) ((b.appendRequest r).release p)
        (.startFail p i)
  | startSetupFailedCancelled {p i r} (h : (b.requests r).cancel = true) :
      Moves t b (.step t false) (.startSetup p i r)
        ((b.completeRequest r statusCancelled).release p) (.startFail p i)
  | startFail {ok p i} :
      Moves t b (.step t ok) (.startFail p i) (b.failIrp i statusDeletePending)
        (.scsiEnd p i statusDeletePending)
  | startComplete {ok p i r} :
      Moves t b (.step t ok) (.startComplete p i r) (b.completeRequest r statusSuccess)
        (.scsiEnd p i statusPending)
  -- BusStartNextPacket
  | nextPacketBusy {ok p k} (hl : (b.pdos p).pdoLock = none)
      (hc : (b.pdos p).currentIrp ≠ none) :
      Moves t b (.step t ok) (.nextPacket p k) b (.nextReturn k)
  | nextPacketCrash {ok p k} (hl : (b.pdos p).pdoLock = none)
      (hc : (b.pdos p).currentIrp = none) (hf : (b.pdos p).parentFdo = none) :
      Moves t b (.step t ok) (.nextPacket p k) b (.crash none)
  | nextPacket {ok p k} (hl : (b.pdos p).pdoLock = none) (hc : (b.pdos p).currentIrp = none)
      (hf : (b.pdos p).parentFdo ≠ none) :
      Moves t b (.step t ok) (.nextPacket p k) (b.acquire p t) (.nextRequest p k)
  | nextRequestNone {ok p k} (h : b.peekRequest none = none) :
      Moves t b (.step t ok) (.nextRequest p k) (b.release p) (.nextReturn k)
  | nextRequest {ok p k r} (h : b.peekRequest none = some r) :
      Moves t b (.step t ok) (.nextRequest p k) (b.removeRequest r) (.nextIrp p r k)
  | nextIrpNone {ok p r k} (h : b.peekIrp p = none) :
      Moves t b (.step t ok) (.nextIrp p r k) b (.nextPutBack p r k)
  | nextIrp {ok p r k i} (h : b.peekIrp p = some i) :
      Moves t b (.step t ok) (.nextIrp p r k) (b.removeIrp p i) (.nextSetup p r i k)
  | nextSetup {p r i k} :
      Moves t b (.step t true) (.nextSetup p r i k) (b.startIrp p r i) (.nextComplete r k)
  | nextSetupFailed {p r i k} (h : (b.requests r).cancel = false) :
      Moves t b (.step t false) (.nextSetup p r i k) ((b.appendRequest r).release p)
        (.nextFail i k)
  | nextSetupFailedCancelled {p r i k} (h : (b.requests r).cancel = true) :
      Moves t b (.step t false) (.nextSetup p r i k)
        ((b.completeRequest r statusCancelled).release p) (.nextFail i k)
  | nextPutBack {ok p r k} (h : (b.requests r).cancel = false) :
      Moves t b (.step t ok) (.nextPutBack p r k) ((b.appendRequest r).release p) (.nextReturn k)
  | nextPutBackCancelled {ok p r k} (h : (b.requests r).cancel = true) :
      Moves t b (.step t ok) (.nextPutBack p r k) ((b.completeRequest r statusCancelled).release p)
        (.nextReturn k)
  | nextFail {ok i k} :
      Moves t b (.step t ok) (.nextFail i k) (b.failIrp i statusDeletePending) (.nextReturn k)
  | nextComplete {ok r k} :
      Moves t b (.step t ok) (.nextComplete r k) (b.completeRequest r statusSuccess)
        (.nextReturn k)
  -- Bus_FDO_IoCtl (IOCTL_BUSENUM_GET_REQUEST)
  | getInsertDeleted {ok r} (h : b.fdo.devicePnPState = .deleted) :
      Moves t b (.step t ok) (.getInsert r) (b.completeRequest r statusNoSuchDevice)
        (.ret statusNoSuchDevice)
  | getInsert {ok r} (hd : b.fdo.devicePnPState ≠ .deleted) (h : (b.requests r).cancel = false) :
      Moves t b (.step t ok) (.getInsert r) (b.appendRequest r) (.getLoop .head)
  | getInsertCancelled {ok r} (hd : b.fdo.devicePnPState ≠ .deleted)
      (h : (b.requests r).cancel = true) :
      Moves t b (.step t ok) (.getInsert r) (b.completeRequest r statusCancelled) (.getLoop .head)
  | getLoopEnd {ok e} (h : b.flink e = .head) :
      Moves t b (.step t ok) (.getLoop e) b (.ret statusPending)
  | getLoop {ok e p} (h : b.flink e = .pdo p) :
      Moves t b (.step t ok) (.getLoop e) b (.nextPacket p (.getRequest p))
  -- Bus_ProcessReply
  | replyFindEmpty {ok rep} (hm : b.fdo.mutex = none) (hn : b.fdo.numPDOs = 0) :
      Moves t b (.step t ok) (.replyFind rep) b (.ret statusNoSuchDevice)
  | replyFindNone {ok rep} (hm : b.fdo.mutex = none) (h : b.findPdo rep.val.handle = none) :
      Moves t b (.step t ok) (.replyFind rep) b (.ret statusInvalidParameter)
  | replyFind {ok rep p} (hm : b.fdo.mutex = none) (h : b.findPdo rep.val.handle = some p) :
      Moves t b (.step t ok) (.replyFind rep) b (.replyTake p rep)
  | replyTakeNone {ok p rep} (hl : (b.pdos p).pdoLock = none) (hc : (b.pdos p).currentIrp = none) :
      Moves t b (.step t ok) (.replyTake p rep) b (.ret statusSuccess)
  | replyTakeCancelled {ok p rep i} (hl : (b.pdos p).pdoLock = none)
      (hc : (b.pdos p).currentIrp = some i) (h : (b.irps i).cancel = true) :
      Moves t b (.step t ok) (.replyTake p rep) (b.acceptCancelled p i rep) (.replyComplete p i)
  | replyTake {ok p rep i} (hl : (b.pdos p).pdoLock = none)
      (hc : (b.pdos p).currentIrp = some i) (h : (b.irps i).cancel = false) :
      Moves t b (.step t ok) (.replyTake p rep) (b.acceptAnswer p i rep) (.replyComplete p i)
  | replyComplete {ok p i} :
      Moves t b (.step t ok) (.replyComplete p i) (b.log (.complete i)) (.replyRelease p)
  | replyRelease {ok p} :
      Moves t b (.step t ok) (.replyRelease p) (b.releaseRemoveLock p) (.nextPacket p .reply)
  -- Bus_AddDisk
  | addUniqueTaken {ok dd} (hm : b.fdo.mutex = none) (h : b.unique dd.handle = false) :
      Moves t b (.step t ok) (.addUnique dd) b (.ret statusInvalidParameter)
  | addUnique {ok dd} (hm : b.fdo.mutex = none) (h : b.unique dd.handle = true) :
      Moves t b (.step t ok) (.addUnique dd) b (.addCreate dd)
  | addCreateFailed {dd} :
      Moves t b (.step t false) (.addCreate dd) b (.ret statusInsufficientResources)
  | addCreate {dd} :
      Moves t b (.step t true) (.addCreate dd) (b.createPdo dd) (.addInsert b.pdoCount)
  | addInsert {ok p} (hm : b.fdo.mutex = none) :
      Moves t b (.step t ok) (.addInsert p)
        ((b.insertTailList p).setPdo p fun d => { d with deviceInitializing := false })
        (.ret statusSuccess)
  -- Bus_RemoveDisk
  | removeDiskFailed {ok handle status} (hm : b.fdo.mutex = none) :
      Moves t b (.step t ok) (.removeDisk handle) b (.ret status)
  | removeDisk {ok handle p} (hm : b.fdo.mutex = none) (h : b.findPdo handle = some p) :
      Moves t b (.step t ok) (.removeDisk handle) (b.resetRemoveEvent p) (.ret statusSuccess)
  -- Bus_PDO_PnP
  | pdoPnpDeleted {ok p m} (h : (b.pdos p).devicePnPState = .deleted) :
      Moves t b (.step t ok) (.pdoPnp p m) b (.ret statusNoSuchDevice)
  | pdoPnp {ok p m} (h : (b.pdos p).devicePnPState ≠ .deleted) :
      Moves t b (.step t ok) (.pdoPnp p m) (b.setPdo p m.apply) (.ret statusSuccess)
  | pdoRemoveDeleted {ok p} (h : (b.pdos p).devicePnPState = .deleted) :
      Moves t b (.step t ok) (.pdoRemove p) b (.ret statusNoSuchDevice)
  | pdoRemoveOrphan {ok p} (h : (b.pdos p).devicePnPState ≠ .deleted)
      (hr : (b.pdos p).reportedMissing = true) (hf : (b.pdos p).parentFdo = none) :
      Moves t b (.step t ok) (.pdoRemove p)
        (b.setPdo p fun d => Bus.setNewPnpState { d with claimed := false } .deleted)
        (.destroyTake p .orphan)
  | pdoRemoveMissing {ok p} (h : (b.pdos p).devicePnPState ≠ .deleted)
      (hr : (b.pdos p).reportedMissing = true) (hf : (b.pdos p).parentFdo ≠ none) :
      Moves t b (.step t ok) (.pdoRemove p)
        (b.setPdo p fun d => Bus.setNewPnpState { d with claimed := false } .deleted) (.pdoUnlink p)
  | pdoRemovePresent {ok p} (h : (b.pdos p).devicePnPState ≠ .deleted)
      (hr : (b.pdos p).reportedMissing = false) (hp : (b.pdos p).present = true) :
      Moves t b (.step t ok) (.pdoRemove p)
        (b.setPdo p fun d => Bus.setNewPnpState { d with claimed := false } .notStarted)
        (.ret statusSuccess)
  | pdoRemoveAbsent {ok p} (h : (b.pdos p).devicePnPState ≠ .deleted)
      (hr : (b.pdos p).reportedMissing = false) (hp : (b.pdos p).present = false) :
      Moves t b (.step t ok) (.pdoRemove p) (b.setPdo p fun d => { d with claimed := false })
        (.ret statusSuccess)
  | pdoUnlink {ok p} (hm : b.fdo.mutex = none) :
      Moves t b (.step t ok) (.pdoUnlink p) (b.unlinkCounted p) (.destroyTake p .pdo)
  | pdoRemovedLast {ok} (h : b.fdo.numPDOs = 0) : Moves t b (.step t ok) .pdoRemoved b .pdoSignal
  | pdoRemoved {ok} (h : b.fdo.numPDOs ≠ 0) :
      Moves t b (.step t ok) .pdoRemoved b (.ret statusSuccess)
  | pdoSignal {ok} :
      Moves t b (.step t ok) .pdoSignal (b.setFdo fun f => { f with cleanupReadyEvent := true })
        (.ret statusSuccess)
  | queryCapsCrash {ok p} (h : (b.pdos p).devicePnPState ≠ .deleted)
      (hf : (b.pdos p).parentFdo = none) :
      Moves t b (.step t ok) (.queryCaps p true) b (.crash none)
  | queryCaps {ok p wellFormed status} : Moves t b (.step t ok) (.queryCaps p wellFormed) b (.ret status)
  -- Bus_DestroyPdo
  | destroyTakeNone {ok p k} (hl : (b.pdos p).pdoLock = none) (hc : (b.pdos p).currentIrp = none) :
      Moves t b (.step t ok) (.destroyTake p k) (b.setPdo p fun d => { d with drained := true })
        (.destroyDrain p k)
  | destroyTake {ok p k i} (hl : (b.pdos p).pdoLock = none) (hc : (b.pdos p).currentIrp = some i) :
      Moves t b (.step t ok) (.destroyTake p k) (b.cancelCurrent p i) (.destroyComplete p i k)
  | destroyComplete {ok p i k} :
      Moves t b (.step t ok) (.destroyComplete p i k) ((b.log (.complete i)).releaseRemoveLock p)
        (.destroyDrain p k)
  | destroyDrainEnd {ok p k} (h : b.peekIrp p = none) :
      Moves t b (.step t ok) (.destroyDrain p k) b (.destroyUnmap p k)
  | destroyDrain {ok p k i} (h : b.peekIrp p = some i) :
      Moves t b (.step t ok) (.destroyDrain p k) (b.removeIrp p i) (.destroyDrained p i k)
  | destroyDrained {ok p i k} :
      Moves t b (.step t ok) (.destroyDrained p i k) (b.failIrp i statusCancelled)
        (.destroyDrain p k)
  | destroyUnmap {ok p k} :
      Moves t b (.step t ok) (.destroyUnmap p k) (b.setPdo p fun d => { d with mapped := false })
        (.destroySignal p k)
  | destroySignal {ok p k} :
      Moves t b (.step t ok) (.destroySignal p k) (b.signalRemoveEvent p) (.destroyDelete p k)
  | destroyDelete {ok p k} :
      Moves t b (.step t ok) (.destroyDelete p k) (b.setPdo p fun d => { d with deleted := true })
        (.destroyReturn k)
  -- Bus_PnP, Bus_FDO_PnP
  | busPnpDeleted {ok old} (h : b.fdo.devicePnPState = .deleted) :
      Moves t b (.step t ok) (.busPnp old) b (.ret statusNoSuchDevice)
  | busPnp {ok old} (h : b.fdo.devicePnPState ≠ .deleted) :
      Moves t b (.step t ok) (.busPnp old) b (.queryRelations old)
  | queryRelationsNone {ok old} (hm : b.fdo.mutex = none) (h : old.isSome ∧ b.fdo.numPDOs = 0) :
      Moves t b (.step t ok) (.queryRelations old) b (.ret statusSuccess)
  | queryRelationsFailed {old} (hm : b.fdo.mutex = none) (h : ¬ (old.isSome ∧ b.fdo.numPDOs = 0)) :
      Moves t b (.step t false) (.queryRelations old) b (.ret statusInsufficientResources)
  | queryRelations {old} (hm : b.fdo.mutex = none) (h : ¬ (old.isSome ∧ b.fdo.numPDOs = 0)) :
      Moves t b (.step t true) (.queryRelations old)
        (b.reportMissing.log
          (.relations b.fdo.listOfPDOs (old.getD []) (b.relations (old.getD []))))
        (.ret statusSuccess)
  | fdoSurpriseDeleted {ok} (h : b.fdo.devicePnPState = .deleted) :
      Moves t b (.step t ok) .fdoSurprise b (.ret statusNoSuchDevice)
  | fdoSurprise {ok} (h : b.fdo.devicePnPState ≠ .deleted) :
      Moves t b (.step t ok) .fdoSurprise
        (b.setFdo fun f => Bus.setNewFdoState f .surpriseRemovePending) .fdoOrphan
  | fdoOrphan {ok} (hm : b.fdo.mutex = none) :
      Moves t b (.step t ok) .fdoOrphan b.orphanAll (.ret statusSuccess)
  | fdoRemoveDeleted {ok} (h : b.fdo.devicePnPState = .deleted) :
      Moves t b (.step t ok) .fdoRemove b (.ret statusNoSuchDevice)
  | fdoRemove {ok} (h : b.fdo.devicePnPState ≠ .deleted) :
      Moves t b (.step t ok) .fdoRemove (b.setFdo fun f => Bus.setNewFdoState f .deleted) .fdoLock
  | fdoLock {ok} (hm : b.fdo.mutex = none) :
      Moves t b (.step t ok) .fdoLock (b.setFdo fun f => { f with mutex := some t }) .fdoLoop
  | fdoLoopEnd {ok} (h : b.fdo.listOfPDOs = []) :
      Moves t b (.step t ok) .fdoLoop (b.setFdo fun f => { f with mutex := none })
        (.ret statusSuccess)
  | fdoLoopOrphan {ok p l} (h : b.fdo.listOfPDOs = p :: l)
      (hs : (b.pdos p).devicePnPState = .surpriseRemovePending) :
      Moves t b (.step t ok) .fdoLoop (b.orphanOne p) .fdoLoop
  | fdoLoop {ok p l} (h : b.fdo.listOfPDOs = p :: l)
      (hs : (b.pdos p).devicePnPState ≠ .surpriseRemovePending) :
      Moves t b (.step t ok) .fdoLoop (b.unlinkCounted p) (.destroyTake p .fdo)
  -- Bus_FDO_Cleanup
  | cleanupDeleted {ok file} (h : b.fdo.devicePnPState = .deleted) :
      Moves t b (.step t ok) (.cleanup file) b (.ret statusNoSuchDevice)
  | cleanup {ok file} (h : b.fdo.devicePnPState ≠ .deleted) :
      Moves t b (.step t ok) (.cleanup file) b (.cleanupDrain file)
  | cleanupDrainEnd {ok file} (h : b.peekRequest (some file) = none) :
      Moves t b (.step t ok) (.cleanupDrain file) b .cleanupTest
  | cleanupDrain {ok file r} (h : b.peekRequest (some file) = some r) :
      Moves t b (.step t ok) (.cleanupDrain file) (b.removeRequest r) (.cleanupDrained r file)
  | cleanupDrained {ok r file} :
      Moves t b (.step t ok) (.cleanupDrained r file) (b.completeRequest r statusCancelled)
        (.cleanupDrain file)
  | cleanupTestEmpty {ok} (h : ¬ 0 < b.fdo.numPDOs) :
      Moves t b (.step t ok) .cleanupTest b (.ret statusSuccess)
  | cleanupTest {ok} (h : 0 < b.fdo.numPDOs) :
      Moves t b (.step t ok) .cleanupTest b .cleanupReset
  | cleanupReset {ok} :
      Moves t b (.step t ok) .cleanupReset (b.setFdo fun f => { f with cleanupReadyEvent := false })
        .cleanupRemoveAll
  | cleanupRemoveNone {ok} (hm : b.fdo.mutex = none) (hn : b.fdo.numPDOs = 0) :
      Moves t b (.step t ok) .cleanupRemoveAll b .cleanupWait
  | cleanupRemoveAll {ok} (hm : b.fdo.mutex = none) (hn : b.fdo.numPDOs ≠ 0) :
      Moves t b (.step t ok) .cleanupRemoveAll b.ejectAll .cleanupWait
  | cleanupWait {ok} (h : b.fdo.cleanupReadyEvent = true) :
      Moves t b (.step t ok) .cleanupWait b (.ret statusSuccess)
  -- cancel routines
  | csqCancelIrp {ok p i} :
      Moves t b (.step t ok) (.csqCancelIrp p i)
        ((b.setPdo p fun d => { d with irpQueue := d.irpQueue.erase i }).failIrp i statusCancelled)
        (.ret statusSuccess)
  | busCancelIrp {ok i} :
      Moves t b (.step t ok) (.busCancelIrp i) (b.completeIrp i statusCancelled)
        (.ret statusSuccess)
  | csqCancelRequest {ok r} :
      Moves t b (.step t ok) (.csqCancelRequest r)
        ((b.setFdo fun f => { f with requestQueue := f.requestQueue.erase r }).completeRequest r
          statusCancelled) (.ret statusSuccess)

/-! ## The step function, inverted -/

variable {t : Tid} {ok : Bool} {b b' : Bus} {pc pc' : Pc}

/-- **A thread's next step is one of the moves.** -/
theorem Pc.step_moves (h : pc.step t ok b = some (b', pc')) : Moves t b (.step t ok) pc b' pc' := by
  cases pc
  all_goals
    simp only [Pc.step, Bus.scsiStep, Bus.scsiEndStep, Bus.startPacketStep, Bus.startRequestStep,
      Bus.startSetupStep, Bus.nextPacketStep, Bus.nextRequestStep, Bus.nextIrpStep,
      Bus.nextSetupStep, Bus.getLoopStep, Bus.replyFindStep, Bus.replyTakeStep, Bus.addUniqueStep,
      Bus.addCreateStep, Bus.addInsertStep, Bus.removeDiskStep, Bus.pdoPnpStep, Bus.pdoRemoveStep,
      Bus.pdoUnlinkStep, Bus.pdoRemovedStep, Bus.queryCapsStep, Bus.destroyTakeStep,
      Bus.destroyDrainStep,
      Bus.queryRelationsStep, Bus.fdoOrphanStep, Bus.fdoLoopStep, Bus.removeAllDisksStep,
      Bus.cleanupDrainStep, Bus.insertIrp, Bus.insertRequest, Bus.acceptReply] at h
  all_goals try (repeat' split at h)
  all_goals simp only [Option.some.injEq, Prod.mk.injEq, reduceCtorEq] at h
  all_goals obtain ⟨rfl, rfl⟩ := h
  all_goals try simp only [not_not, Bool.not_eq_true, Bool.not_eq_false] at *
  all_goals subst_vars
  all_goals first | (constructor; done) | (constructor <;> assumption)

/-- Entering a routine is one of the moves. -/
theorem Bus.enter_moves {c : Call} (h : b.enter c = some (b', pc')) :
    Moves t b (.call t c) .idle b' pc' := by
  cases c
  all_goals simp only [Bus.enter, Bus.dispatch, Bool.not_eq_true] at h
  all_goals try split at h
  all_goals simp only [Option.some.injEq, Prod.mk.injEq, reduceCtorEq] at h
  all_goals obtain ⟨rfl, rfl⟩ := h
  case scsi.isTrue p i srb hg => exact .callScsi hg.1 hg.2.1 hg.2.2
  all_goals first | (constructor; done) | (constructor; assumption)

/-- `IoCancelIrp` on a READ or WRITE IRP is one of the moves. -/
theorem Bus.cancel_moves {i : IrpId} (ha : (b.irps i).arrived = true) (hi : i ∉ b.completed) :
    Moves t b (.cancelIrp t i) .idle (b.cancel i).1 (b.cancel i).2 := by
  unfold Bus.cancel
  split
  · next hc => exact .cancelNone ha hi hc
  · next p hc => exact .cancelCsq ha hi hc
  · next hc => exact .cancelBus ha hi hc

/-- `IoCancelIrp` on a GET_REQUEST IRP is one of the moves. -/
theorem Bus.cancelRq_moves {r : RqId} (ha : (b.requests r).arrived = true)
    (hr : (b.requests r).completed = false) :
    Moves t b (.cancelRequest t r) .idle (b.cancelRq r).1 (b.cancelRq r).2 := by
  unfold Bus.cancelRq
  split
  · next hc => exact .cancelRequestArmed ha hr hc
  · next hc => exact .cancelRequestNone ha hr (Bool.not_eq_true _ ▸ hc)

/-- **A step of the driver is a move of one thread, or a step of the environment**: the owner of a
mapped buffer writes to it, or consumes an event. -/
theorem Driver.step_moves {s s' : Driver} {a : Action} (h : s.step a = some s') :
    (∃ t b' pc', Moves t s.bus a (s.calls t) b' pc' ∧ s' = s.put t (b', pc')) ∨
    (∃ m f, a = .userWrite m f ∧ s' = { s with bus := s.bus.setMemory m f }) ∨
    (∃ e, a = .userWait e ∧ s.bus.events e = true ∧
      s' = { s with bus := s.bus.setEvent e false }) := by
  cases a with
  | call t c =>
    left
    simp only [Driver.step] at h
    split at h
    · next hidle =>
      obtain ⟨⟨b', pc'⟩, hb, rfl⟩ := Option.map_eq_some_iff.mp h
      exact ⟨t, b', pc', hidle ▸ Bus.enter_moves hb, rfl⟩
    · cases h
  | step t ok =>
    left
    obtain ⟨⟨b', pc'⟩, hb, rfl⟩ := Option.map_eq_some_iff.mp h
    exact ⟨t, b', pc', Pc.step_moves hb, rfl⟩
  | leave t =>
    left
    simp only [Driver.step] at h
    split at h
    · next status hret =>
      obtain rfl := Option.some.inj h
      exact ⟨t, s.bus, .idle, hret ▸ .leave, rfl⟩
    · cases h
  | cancelIrp t i =>
    left
    simp only [Driver.step] at h
    split at h
    · next hidle =>
      split at h
      · next hi =>
        obtain rfl := Option.some.inj h
        exact ⟨t, _, _, hidle ▸ Bus.cancel_moves hi.1 hi.2, rfl⟩
      · cases h
    · cases h
  | cancelRequest t r =>
    left
    simp only [Driver.step] at h
    split at h
    · next hidle =>
      split at h
      · next hr =>
        obtain rfl := Option.some.inj h
        exact ⟨t, _, _, hidle ▸ Bus.cancelRq_moves hr.1 (Bool.not_eq_true _ ▸ hr.2), rfl⟩
      · cases h
    · cases h
  | userWrite m f => exact .inr (.inl ⟨m, f, rfl, (Option.some.inj h).symm⟩)
  | userWait e =>
    simp only [Driver.step] at h
    split at h
    · next he => exact .inr (.inr ⟨e, rfl, he, (Option.some.inj h).symm⟩)
    · cases h

/-! ## Runs of a few threads -/

/-- The thread that acts. -/
def Action.thread : Action → Option Tid
  | .call t _ | .step t _ | .leave t | .cancelIrp t _ | .cancelRequest t _ => some t
  | .userWrite _ _ | .userWait _ => none

/-- Only these threads act. -/
def Action.onlyBy (ts : List Tid) (a : Action) : Bool := a.thread.all (· ∈ ts)

theorem Moves.thread {a : Action} (m : Moves t b a pc b' pc') : a.thread = some t := by
  cases m <;> rfl

/-- **A thread that does not act stays outside the driver.** -/
theorem Driver.idle_of_onlyBy {C : Driver → Action → Prop} {s : Driver} {ts : List Tid}
    (h : lts.Reach C s) (hC : ∀ s a, C s a → a.onlyBy ts = true) :
    ∀ t ∉ ts, s.calls t = .idle := by
  refine h.invariant (I := fun s => ∀ t ∉ ts, s.calls t = .idle) (fun _ _ => rfl) ?_
  intro s a s' hr hi hc hs
  rcases step_moves hs with ⟨t, b', pc', m, rfl⟩ | ⟨m, f, -, rfl⟩ | ⟨e, -, -, rfl⟩
  · have ht : t ∈ ts := by simpa [Action.onlyBy, m.thread] using hC s a hc
    intro t₂ ht₂
    rw [put_calls_of_ne s (by rintro rfl; exact ht₂ ht)]
    exact hi t₂ ht₂
  · exact hi
  · exact hi

end VirtualDisk
