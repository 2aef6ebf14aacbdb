import VirtualDisk.Driver.Children

/-!
# Driver/Dispatch — the dispatch routines around the driver's work

A request to a device passes through its dispatch routine: a test of `DevicePnPState`, the device's
remove lock, the work, and the release.  `Frame` says where a thread is in such a routine; the work
on the bus is done by the routines of `Driver.Step`, which the frame starts and whose return it
waits for.  The FDO's REMOVE_DEVICE ends in `IoReleaseRemoveLockAndWait` and `IoDeleteDevice`.

READ and WRITE requests, PnP requests to a disk, cleanups and cancellations enter `Driver.Step`
directly: `Pc` holds their whole dispatch routine.
-/

namespace VirtualDisk

open Machinery

/-! ## The requests -/

/-- `srb->Function`. -/
inductive SrbFunction
  | claimDevice
  | releaseDevice
  | executeScsi (srb : ScsiRequestBlock)
  | other

/-- What `Bus_ExecuteSrb` does to the disk, for every command that is not READ or WRITE. -/
def SrbFunction.apply (g : SrbFunction) (d : PdoDeviceData) : PdoDeviceData :=
  match g with
  | .claimDevice => if d.claimed then d else { d with claimed := true }
  | .releaseDevice => { d with claimed := false }
  | .executeScsi srb => match busExecuteCommand d srb with
    | .startPacket => d
    | .answered _ d' _ _ => d'
  | .other => d

/-- The IOCTLs of the bus device.  `invalid` is any other code, or a buffer that is too small. -/
inductive FdoIoctl
  | addDisk (dd : BusenumAddDisk)
  | removeDisk (handle : ULONG)
  | getRequest (r : RqId) (file : FileObject)
  | sendReply (rep : Tagged BusenumReply)
  | invalid

/-- The PnP requests to the bus device.  `other` is passed down, as a query for relations that are
not BusRelations is. -/
inductive FdoMinor
  | startDevice
  | queryStopDevice
  | cancelStopDevice
  | stopDevice
  | queryRemoveDevice
  | cancelRemoveDevice
  | surpriseRemoval
  | removeDevice
  | queryDeviceRelations (old : Option (List DeviceId))
  | other

/-- **A request sent to a device**, by the dispatch routine it goes to. -/
inductive IoRequest
  | createClose (d : DeviceId)
  | power (d : DeviceId)
  | pdoIoctl (p : PdoId)
  | scsi (p : PdoId) (g : SrbFunction)
  | fdoIoctl (q : FdoIoctl)
  | fdoPnp (m : FdoMinor)

/-- The device a request is sent to. -/
def IoRequest.device : IoRequest → DeviceId
  | .createClose d | .power d => d
  | .pdoIoctl p | .scsi p _ => .pdo p
  | .fdoIoctl _ | .fdoPnp _ => .fdo

/-- **Where a thread is in a dispatch routine.** -/
inductive Frame
  | outside
  /-- Before the test of `DevicePnPState`. -/
  | test (j : IoRequest)
  /-- Before `IoAcquireRemoveLock`. -/
  | acquire (j : IoRequest)
  /-- With the remove lock. -/
  | body (j : IoRequest)
  /-- With the remove lock, inside a routine of `Driver.Step`. -/
  | inner (j : IoRequest)
  /-- Before `IoReleaseRemoveLock`. -/
  | release (d : DeviceId)
  /-- At the label `END` of `Bus_Scsi`, reached without the lock. -/
  | scsiEnd (p : PdoId)
  /-- In `IoReleaseRemoveLockAndWait`, the lock given up. -/
  | wait
  /-- Before `IoDeleteDevice`. -/
  | delete

/-- The bus device object: how often its remove lock is held, whether it can still be acquired, and
whether the object is deleted. -/
structure FdoDevice where
  removeLock : ℤ := 0
  removed : Bool := false
  deleted : Bool := false

namespace Bus

/-- `DevicePnPState` of a device. -/
def devicePnPState (b : Bus) : DeviceId → DevicePnpState
  | .fdo => b.fdo.devicePnPState
  | .pdo p => (b.pdos p).devicePnPState

/-- `Bus_CreateClose` finds the bus deleted, or the disk not present. -/
def gone (b : Bus) : DeviceId → Bool
  | .fdo => b.fdo.devicePnPState = .deleted
  | .pdo p => !(b.pdos p).present

@[simps! -fullyApplied]
def acquireRemoveLock (b : Bus) (p : PdoId) : Bus :=
  b.setPdo p fun d => { d with removeLock := d.removeLock + 1 }

/-- `Bus_ExecuteSrb`, for every command that is not READ or WRITE: all but an unknown function take
the PDO lock. -/
def executeSrb (b : Bus) (p : PdoId) : SrbFunction → Option Bus
  | .other => some b
  | g => if (b.pdos p).pdoLock ≠ none then none else some (b.setPdo p g.apply)

/-- `Bus_FDO_PnP` (IRP_MN_QUERY_DEVICE_RELATIONS), under the mutex; `none` is the failed
allocation. -/
def queryBusRelations (b : Bus) (ok : Bool) (old : Option (List DeviceId)) : Option Bus :=
  if old.isSome ∧ b.fdo.numPDOs = 0 then some b
  else if ok then
    some (b.reportMissing.log
      (.relations b.fdo.listOfPDOs (old.getD []) (b.relations (old.getD []))))
  else none

end Bus

/-- `SET_NEW_PNP_STATE` and `RESTORE_PREVIOUS_PNP_STATE` of `Bus_FDO_PnP`; `ok` says whether a
START_DEVICE succeeds. -/
def FdoMinor.apply (m : FdoMinor) (ok : Bool) (f : FdoDeviceData) : FdoDeviceData :=
  let restoreFrom (s : DevicePnpState) :=
    if f.devicePnPState = s then { f with devicePnPState := f.previousPnPState } else f
  match m with
  | .startDevice => if ok then Bus.setNewFdoState f .started else f
  | .queryStopDevice => Bus.setNewFdoState f .stopPending
  | .cancelStopDevice => restoreFrom .stopPending
  | .stopDevice => Bus.setNewFdoState f .stopped
  | .queryRemoveDevice => Bus.setNewFdoState f .removePending
  | .cancelRemoveDevice => restoreFrom .removePending
  | .surpriseRemoval => Bus.setNewFdoState f .surpriseRemovePending
  | .removeDevice => Bus.setNewFdoState f .deleted
  | .queryDeviceRelations _ | .other => f

/-! ## The steps of a dispatch routine -/

namespace IoRequest

/-- A request that can be sent to its device. -/
def sendable (b : Bus) (j : IoRequest) : Bool :=
  (match j.device with
    | .fdo => true
    | .pdo p => b.exposed p) &&
  match j with
  | .fdoIoctl (.getRequest r _) => !(b.requests r).arrived
  | .scsi _ (.executeScsi srb) => !srb.cdb.isReadWrite
  | _ => true

/-- The request is sent: a GET_REQUEST IRP is a new one. -/
def send (b : Bus) : IoRequest → Bus
  | .fdoIoctl (.getRequest r file) =>
    b.setRequest r fun x => { x with arrived := true, fileObject := file }
  | _ => b

/-- `Bus_CreateClose` acquires the remove lock first, the other routines test the state first. -/
def start : IoRequest → Frame
  | .createClose d => .acquire (.createClose d)
  | j => .test j

/-- The test of `DevicePnPState`.  `Bus_Scsi` goes to its end from here, where it releases the
remove lock; `Bus_PDO_Power` takes no lock. -/
def test (b : Bus) (j : IoRequest) : Frame :=
  if b.devicePnPState j.device = .deleted then
    match j with
    | .scsi p _ => .scsiEnd p
    | _ => .outside
  else
    match j with
    | .power (.pdo _) => .outside
    | _ => .acquire j

/-- `IoAcquireRemoveLock`; on a disk's lock its outcome is `ok`. -/
def acquire (ok : Bool) (b : Bus) (f : FdoDevice) (j : IoRequest) : Bus × FdoDevice × Frame :=
  match j.device with
  | .fdo =>
    if f.removed then (b, f, .outside)
    else (b, { f with removeLock := f.removeLock + 1 }, .body j)
  | .pdo p => if ok then (b.acquireRemoveLock p, f, .body j) else (b, f, .outside)

/-- The work of a dispatch routine, up to the routine of `Driver.Step` it goes on in or to the
release of the remove lock.  `Bus_CreateClose` and `Bus_FDO_PnP` each have an exit without a
release. -/
def body (ok : Bool) (b : Bus) : IoRequest → Option (Bus × Pc × Frame)
  | .createClose d => some (b, .idle, if b.gone d then .outside else .release d)
  | .power d => some (b, .idle, .release d)
  | .pdoIoctl p => some (b, .idle, .release (.pdo p))
  | .scsi p g => (b.executeSrb p g).map fun b' => (b', .idle, .release (.pdo p))
  | .fdoIoctl (.addDisk dd) => some (b, .addUnique dd, .inner (.fdoIoctl (.addDisk dd)))
  | .fdoIoctl (.removeDisk h) => some (b, .removeDisk h, .inner (.fdoIoctl (.removeDisk h)))
  | .fdoIoctl (.getRequest r file) =>
    some (b.insertRequest r, .getLoop .head, .inner (.fdoIoctl (.getRequest r file)))
  | .fdoIoctl (.sendReply rep) => some (b, .replyFind rep, .inner (.fdoIoctl (.sendReply rep)))
  | .fdoIoctl .invalid => some (b, .idle, .release .fdo)
  | .fdoPnp .surpriseRemoval =>
    some (b.setFdo (FdoMinor.surpriseRemoval.apply ok), .fdoOrphan,
      .inner (.fdoPnp .surpriseRemoval))
  | .fdoPnp .removeDevice =>
    some (b.setFdo (FdoMinor.removeDevice.apply ok), .fdoLock, .inner (.fdoPnp .removeDevice))
  | .fdoPnp (.queryDeviceRelations old) =>
    if b.fdo.mutex ≠ none then none
    else match b.queryBusRelations ok old with
      | none => some (b, .idle, .outside)
      | some b' => some (b', .idle, .release .fdo)
  | .fdoPnp m => some (b.setFdo (m.apply ok), .idle, .release .fdo)

/-- The routine of `Driver.Step` has returned: REMOVE_DEVICE gives its remove lock up, for good, and
waits. -/
def returned (f : FdoDevice) : IoRequest → FdoDevice × Frame
  | .fdoPnp .removeDevice => ({ f with removeLock := f.removeLock - 1, removed := true }, .wait)
  | j => (f, .release j.device)

end IoRequest

/-- **The next atomic step of a dispatch routine.** -/
def Frame.step (ok : Bool) (b : Bus) (f : FdoDevice) (pc : Pc) :
    Frame → Option (Bus × FdoDevice × Pc × Frame)
  | .outside => none
  | .test j => some (b, f, pc, j.test b)
  | .acquire j =>
    let r := j.acquire ok b f
    some (r.1, r.2.1, pc, r.2.2)
  | .body j => (j.body ok b).map fun r => (r.1, f, r.2.1, r.2.2)
  | .inner j => match pc with
    | .ret _ => some (b, (j.returned f).1, .idle, (j.returned f).2)
    | _ => none
  | .release .fdo => some (b, { f with removeLock := f.removeLock - 1 }, pc, .outside)
  | .release (.pdo p) => some (b.releaseRemoveLock p, f, pc, .outside)
  | .scsiEnd p => some (b.releaseRemoveLock p, f, pc, .outside)
  | .wait => if f.removeLock = 0 then some (b, f, pc, .delete) else none
  | .delete => some (b, { f with deleted := true }, pc, .outside)

/-! ## The dispatch routines as a transition system -/

/-- The driver behind its dispatch routines. -/
structure Dispatch where
  driver : Driver := {}
  device : FdoDevice := {}
  frames : Tid → Frame := fun _ => .outside

/-- What can happen: something inside the driver, a request is sent to a device, or a dispatch
routine makes its next step. -/
inductive DispatchAction
  | driver (a : Action)
  | send (t : Tid) (j : IoRequest)
  | step (t : Tid) (ok : Bool)

/-- A routine of the driver that is not entered through a frame. -/
def Call.direct : Call → Bool
  | .scsi _ _ _ | .pdoPnp _ _ | .pdoRemove _ | .queryCapabilities _ _ | .cleanup _ => true
  | _ => false

namespace Dispatch

/-- The shared state. -/
abbrev bus (s : Dispatch) : Bus := s.driver.bus

/-- Where a thread is inside the driver. -/
abbrev calls (s : Dispatch) : Tid → Pc := s.driver.calls

/-- A thread enters the driver directly, and leaves it, outside any dispatch routine. -/
def admits (s : Dispatch) : Action → Bool
  | .call t c => c.direct && match s.frames t with
    | .outside => true
    | _ => false
  | .leave t | .cancelIrp t _ | .cancelRequest t _ => match s.frames t with
    | .outside => true
    | _ => false
  | .step _ _ | .userWrite _ _ | .userWait _ => true

/-- The thread `t` is at a place of its dispatch routine. -/
def put (s : Dispatch) (t : Tid) (r : Bus × FdoDevice × Pc × Frame) : Dispatch where
  driver := s.driver.put t (r.1, r.2.2.1)
  device := r.2.1
  frames := Function.update s.frames t r.2.2.2

/-- The thread `t` is at a place inside the driver. -/
def move (s : Dispatch) (t : Tid) (r : Bus × Pc) : Dispatch :=
  { s with driver := s.driver.put t r }

section Simp

variable {t t₂ : Tid}

@[simp] theorem move_bus (s : Dispatch) (r : Bus × Pc) : (s.move t r).bus = r.1 := rfl

@[simp] theorem move_device (s : Dispatch) (r : Bus × Pc) : (s.move t r).device = s.device := rfl

@[simp] theorem move_frames (s : Dispatch) (r : Bus × Pc) : (s.move t r).frames = s.frames := rfl

@[simp] theorem move_calls_self (s : Dispatch) (r : Bus × Pc) : (s.move t r).calls t = r.2 :=
  Driver.put_calls_self ..

theorem move_calls_of_ne (s : Dispatch) (h : t₂ ≠ t) (r : Bus × Pc) :
    (s.move t r).calls t₂ = s.calls t₂ := Driver.put_calls_of_ne _ h _

@[simp] theorem put_bus (s : Dispatch) (r : Bus × FdoDevice × Pc × Frame) :
    (s.put t r).bus = r.1 := rfl

@[simp] theorem put_device (s : Dispatch) (r : Bus × FdoDevice × Pc × Frame) :
    (s.put t r).device = r.2.1 := rfl

@[simp] theorem put_calls_self (s : Dispatch) (r : Bus × FdoDevice × Pc × Frame) :
    (s.put t r).calls t = r.2.2.1 := Driver.put_calls_self ..

@[simp] theorem put_frames_self (s : Dispatch) (r : Bus × FdoDevice × Pc × Frame) :
    (s.put t r).frames t = r.2.2.2 := Function.update_self ..

theorem put_calls_of_ne (s : Dispatch) (h : t₂ ≠ t) (r : Bus × FdoDevice × Pc × Frame) :
    (s.put t r).calls t₂ = s.calls t₂ := Driver.put_calls_of_ne _ h _

theorem put_frames_of_ne (s : Dispatch) (h : t₂ ≠ t) (r : Bus × FdoDevice × Pc × Frame) :
    (s.put t r).frames t₂ = s.frames t₂ := Function.update_of_ne h ..

end Simp

/-- **One step.** -/
def step (s : Dispatch) : DispatchAction → Option Dispatch
  | .driver a => if s.admits a then (s.driver.step a).map fun d => { s with driver := d } else none
  | .send t j => match s.frames t, s.calls t with
    | .outside, .idle =>
      if j.sendable s.bus then some (s.put t (j.send s.bus, s.device, .idle, j.start)) else none
    | _, _ => none
  | .step t ok => ((s.frames t).step ok s.bus s.device (s.calls t)).map (s.put t)

/-- **The driver behind its dispatch routines**, started with an empty bus. -/
def lts : Lts Dispatch DispatchAction := ⟨{}, step⟩

end Dispatch

/-! ## What a step of a dispatch routine can do, said once -/

/-- The disks a dispatch routine has in hand. -/
def IoRequest.mentions (j : IoRequest) : List PdoId :=
  match j.device with
  | .fdo => []
  | .pdo p => [p]

/-- The disks the frame of a thread names. -/
def Frame.mentions : Frame → List PdoId
  | .test j | .acquire j | .body j | .inner j => j.mentions
  | .release (.pdo p) | .scsiEnd p => [p]
  | _ => []

/-- A dispatch routine is at its start: no disk is in hand, and no lock is held. -/
def Pc.entry : Pc → Bool
  | .idle | .addUnique _ | .removeDisk _ | .getLoop .head | .replyFind _ | .fdoOrphan | .fdoLock => true
  | _ => false

/-- **What the frames change of the shared state** beside the remove locks: nothing that the
driver's lists, locks and names are about.  Of the disks, only those in `ps` or on the list are
touched. -/
structure Aside (ps : List PdoId) (b b' : Bus) : Prop where
  listOfPDOs : b'.fdo.listOfPDOs = b.fdo.listOfPDOs
  mutex : b'.fdo.mutex = b.fdo.mutex
  pdoCount : b'.pdoCount = b.pdoCount
  irps : b'.irps = b.irps
  parentFdo : ∀ p, (b'.pdos p).parentFdo = (b.pdos p).parentFdo
  flink : ∀ p, (b'.pdos p).flink = (b.pdos p).flink
  pdoLock : ∀ p, (b'.pdos p).pdoLock = (b.pdos p).pdoLock
  currentIrp : ∀ p, (b'.pdos p).currentIrp = (b.pdos p).currentIrp
  deviceInitializing : ∀ p, (b'.pdos p).deviceInitializing = (b.pdos p).deviceInitializing
  drained : ∀ p, (b'.pdos p).drained = (b.pdos p).drained
  mapped : ∀ p, (b'.pdos p).mapped = (b.pdos p).mapped
  signalled : ∀ p, (b'.pdos p).signalled = (b.pdos p).signalled
  deleted : ∀ p, (b'.pdos p).deleted = (b.pdos p).deleted
  untouched : ∀ p, p ∉ ps → p ∉ b.fdo.listOfPDOs → b'.pdos p = b.pdos p

namespace Aside

variable {ps : List PdoId} {b : Bus}

theorem refl : Aside ps b b := by constructor <;> intros <;> rfl

/-- Fields of a disk in hand that belong to its requests. -/
theorem setPdo {p : PdoId} {g : PdoDeviceData → PdoDeviceData} (hp : p ∈ ps)
    (hg : ∀ d, ∃ n c x y z, g d = { d with
      removeLock := n, claimed := c, code := x, asc := y, asq := z }) :
    Aside ps b (b.setPdo p g) := by
  obtain ⟨n, c, x, y, z, hgd⟩ := hg (b.pdos p)
  refine ⟨rfl, rfl, rfl, rfl, ?_, ?_, ?_, ?_, ?_, ?_, ?_, ?_, ?_, ?_⟩
  case refine_10 =>
    intro q hq _
    have hne : q ≠ p := by
      rintro rfl
      exact hq hp
    simp [hne]
  all_goals
    intro q
    simp only [Bus.setPdo_pdos, Function.update_apply]
    split <;> simp_all

/-- What leaves the disks, the list, the IRPs and the locks alone. -/
theorem of_eq {b' : Bus} (hlist : b'.fdo.listOfPDOs = b.fdo.listOfPDOs)
    (hmutex : b'.fdo.mutex = b.fdo.mutex)
    (hcount : b'.pdoCount = b.pdoCount) (hirps : b'.irps = b.irps) (hpdos : b'.pdos = b.pdos) :
    Aside ps b b' := by
  refine ⟨hlist, hmutex, hcount, hirps, ?_, ?_, ?_, ?_, ?_, ?_, ?_, ?_, ?_, ?_⟩ <;> intros <;>
    rw [hpdos]

/-- A BusRelations query marks disks on the list. -/
theorem reportMissing (e : Event) : Aside ps b (b.reportMissing.log e) := by
  refine ⟨rfl, rfl, rfl, rfl, ?_, ?_, ?_, ?_, ?_, ?_, ?_, ?_, ?_, ?_⟩
  case refine_10 =>
    intro q _ hq
    simp [hq]
  all_goals
    intro q
    simp only [Bus.log_pdos, Bus.reportMissing_pdos]
    split <;> rfl

end Aside

theorem Bus.executeSrb_eq {b b' : Bus} {p : PdoId} {g : SrbFunction}
    (h : b.executeSrb p g = some b') : b' = b ∨ b' = b.setPdo p g.apply := by
  unfold executeSrb at h
  split at h
  · exact .inl (Option.some.inj h).symm
  · split at h
    · cases h
    · exact .inr (Option.some.inj h).symm

theorem SrbFunction.apply_eq (g : SrbFunction) (d : PdoDeviceData) :
    ∃ n c x y z, g.apply d = { d with
      removeLock := n, claimed := c, code := x, asc := y, asq := z } ∧ n = d.removeLock := by
  cases g with
  | claimDevice =>
    simp only [apply]
    split
    · exact ⟨_, _, _, _, _, rfl, rfl⟩
    · exact ⟨_, true, _, _, _, rfl, rfl⟩
  | releaseDevice => exact ⟨_, false, _, _, _, rfl, rfl⟩
  | executeScsi srb =>
    simp only [apply, busExecuteCommand, setSenseInfo]
    split
    · exact ⟨_, _, _, _, _, rfl, rfl⟩
    · next h =>
      repeat' split at h
      all_goals cases h
      all_goals exact ⟨_, _, _, _, _, rfl, rfl⟩
  | other => exact ⟨_, _, _, _, _, rfl, rfl⟩

theorem FdoMinor.apply_listOfPDOs (m : FdoMinor) (ok : Bool) (f : FdoDeviceData) :
    (m.apply ok f).listOfPDOs = f.listOfPDOs := by
  cases m <;> simp only [apply] <;> (try split) <;> rfl

theorem FdoMinor.apply_mutex (m : FdoMinor) (ok : Bool) (f : FdoDeviceData) :
    (m.apply ok f).mutex = f.mutex := by
  cases m <;> simp only [apply] <;> (try split) <;> rfl

theorem Aside.setFdoMinor {ps : List PdoId} (b : Bus) (m : FdoMinor) (ok : Bool) :
    Aside ps b (b.setFdo (m.apply ok)) :=
  .of_eq (m.apply_listOfPDOs ..) (m.apply_mutex ..) rfl rfl rfl

/-- **One action of thread `t` in its dispatch routine**, from the place `pc` and the frame `fr` in
the state `b`, `f`. -/
inductive Turns (t : Tid) (b : Bus) (f : FdoDevice) :
    DispatchAction → Pc → Frame → Bus → FdoDevice → Pc → Frame → Prop
  | send {j b'} (hj : ∀ p, j.device = .pdo p → b.exposed p = true) (ha : Aside [] b b')
      (hp : b'.pdos = b.pdos) :
      Turns t b f (.send t j) .idle .outside b' f .idle j.start
  | testScsi {ok pc p g} (h : (b.pdos p).devicePnPState = .deleted) :
      Turns t b f (.step t ok) pc (.test (.scsi p g)) b f pc (.scsiEnd p)
  | testFailed {ok pc j} : Turns t b f (.step t ok) pc (.test j) b f pc .outside
  | test {ok pc j} : Turns t b f (.step t ok) pc (.test j) b f pc (.acquire j)
  | acquireFailed {ok pc j} : Turns t b f (.step t ok) pc (.acquire j) b f pc .outside
  | acquireFdo {ok pc j} (hd : j.device = .fdo) (hr : f.removed = false) :
      Turns t b f (.step t ok) pc (.acquire j) b { f with removeLock := f.removeLock + 1 } pc
        (.body j)
  | acquirePdo {pc j p} (hd : j.device = .pdo p) :
      Turns t b f (.step t true) pc (.acquire j) (b.acquireRemoveLock p) f pc (.body j)
  | createGone {ok pc d} (h : b.gone d = true) :
      Turns t b f (.step t ok) pc (.body (.createClose d)) b f .idle .outside
  | relationsFailed {pc old} (hm : b.fdo.mutex = none) (hn : ¬ (old.isSome ∧ b.fdo.numPDOs = 0)) :
      Turns t b f (.step t false) pc (.body (.fdoPnp (.queryDeviceRelations old))) b f .idle .outside
  | answered {ok pc j b'} (ha : Aside j.mentions b b')
      (hl : ∀ p, (b'.pdos p).removeLock = (b.pdos p).removeLock) :
      Turns t b f (.step t ok) pc (.body j) b' f .idle (.release j.device)
  | begins {ok pc j b' pc'} (hd : j.device = .fdo) (he : pc'.entry = true) (hi : pc' ≠ .idle)
      (ha : Aside [] b b') (hp : b'.pdos = b.pdos) :
      Turns t b f (.step t ok) pc (.body j) b' f pc' (.inner j)
  | returned {ok status j} :
      Turns t b f (.step t ok) (.ret status) (.inner j) b f .idle (.release j.device)
  | removes {ok status} :
      Turns t b f (.step t ok) (.ret status) (.inner (.fdoPnp .removeDevice)) b
        { f with removeLock := f.removeLock - 1, removed := true } .idle .wait
  | releaseFdo {ok pc} :
      Turns t b f (.step t ok) pc (.release .fdo) b { f with removeLock := f.removeLock - 1 } pc
        .outside
  | releasePdo {ok pc p} :
      Turns t b f (.step t ok) pc (.release (.pdo p)) (b.releaseRemoveLock p) f pc .outside
  | scsiEnd {ok pc p} :
      Turns t b f (.step t ok) pc (.scsiEnd p) (b.releaseRemoveLock p) f pc .outside
  | wait {ok pc} (h : f.removeLock = 0) : Turns t b f (.step t ok) pc .wait b f pc .delete
  | delete {ok pc} :
      Turns t b f (.step t ok) pc .delete b { f with deleted := true } pc .outside

variable {t : Tid} {ok : Bool} {b b' : Bus} {f f' : FdoDevice} {pc pc' : Pc} {fr fr' : Frame}
variable {j : IoRequest}

/-- The work of a dispatch routine is one of the turns. -/
theorem IoRequest.body_turns (h : j.body ok b = some (b', pc', fr')) :
    Turns t b f (.step t ok) pc (.body j) b' f pc' fr' := by
  cases j with
  | createClose d =>
    obtain ⟨rfl, rfl, rfl⟩ := by simpa [body] using h
    split
    · next hg => exact .createGone hg
    · exact .answered .refl fun _ => rfl
  | power d =>
    obtain ⟨rfl, rfl, rfl⟩ := by simpa [body] using h
    exact .answered .refl fun _ => rfl
  | pdoIoctl p =>
    obtain ⟨rfl, rfl, rfl⟩ := by simpa [body] using h
    exact .answered .refl fun _ => rfl
  | scsi p g =>
    obtain ⟨b₁, hb, heq⟩ := Option.map_eq_some_iff.mp h
    obtain ⟨rfl, rfl, rfl⟩ := by simpa using heq
    rcases Bus.executeSrb_eq hb with rfl | rfl
    · exact .answered .refl fun _ => rfl
    · refine .answered (.setPdo List.mem_cons_self fun d => ?_) fun q => ?_
      · obtain ⟨n, c, x, y, z, hg, -⟩ := g.apply_eq d
        exact ⟨n, c, x, y, z, hg⟩
      · obtain ⟨n, c, x, y, z, hg, hn⟩ := g.apply_eq (b.pdos p)
        rw [Bus.setPdo_pdos, Function.update_apply]
        split
        · next heq => rw [hg, hn, heq]
        · rfl
  | fdoIoctl q =>
    cases q <;> obtain ⟨rfl, rfl, rfl⟩ := by simpa [body] using h
    case getRequest r file =>
      refine .begins rfl rfl (by simp) (.of_eq ?_ ?_ ?_ ?_ ?_) ?_ <;> unfold Bus.insertRequest <;>
        split <;> rfl
    case invalid => exact .answered .refl fun _ => rfl
    all_goals exact .begins rfl rfl (by simp) .refl rfl
  | fdoPnp m =>
    cases m
    case queryDeviceRelations old =>
      simp only [body, Bus.queryBusRelations] at h
      split at h
      · cases h
      · next hm =>
        split at h
        · next hr =>
          obtain ⟨rfl, rfl, rfl⟩ := by simpa using h
          repeat' split at hr
          all_goals cases hr
          next hn hok =>
            obtain rfl : ok = false := by simpa using hok
            exact .relationsFailed (not_not.mp hm) hn
        · next b₁ hr =>
          obtain ⟨rfl, rfl, rfl⟩ := by simpa using h
          repeat' split at hr
          all_goals cases hr
          · exact .answered .refl fun _ => rfl
          · refine .answered (.reportMissing _) fun q => ?_
            simp only [Bus.log_pdos, Bus.reportMissing_pdos]
            split <;> rfl
    all_goals obtain ⟨rfl, rfl, rfl⟩ := by simpa [body] using h
    case surpriseRemoval =>
      exact .begins rfl rfl (by simp) (.setFdoMinor ..) rfl
    case removeDevice =>
      exact .begins rfl rfl (by simp) (.setFdoMinor ..) rfl
    all_goals
      exact .answered (.setFdoMinor ..) fun _ => rfl

/-- **A step of a dispatch routine is one of the turns.** -/
theorem Frame.step_turns (h : fr.step ok b f pc = some (b', f', pc', fr')) :
    Turns t b f (.step t ok) pc fr b' f' pc' fr' := by
  cases fr with
  | outside => cases h
  | test j =>
    obtain ⟨rfl, rfl, rfl, rfl⟩ := by simpa [step] using h
    unfold IoRequest.test
    split
    · next hd =>
      cases j
      case scsi p g => exact .testScsi hd
      all_goals exact .testFailed
    · split
      · exact .testFailed
      · exact .test
  | acquire j =>
    obtain ⟨rfl, rfl, rfl, rfl⟩ := by simpa [step] using h
    unfold IoRequest.acquire
    cases hd : j.device with
    | fdo =>
      dsimp only
      split
      · exact .acquireFailed
      · next hr => exact .acquireFdo hd (by simpa using hr)
    | pdo p =>
      dsimp only
      split
      · next hok => exact hok ▸ .acquirePdo hd
      · exact .acquireFailed
  | body j =>
    obtain ⟨⟨b₁, pc₁, fr₁⟩, hb, heq⟩ := Option.map_eq_some_iff.mp h
    obtain ⟨rfl, rfl, rfl, rfl⟩ := by simpa using heq
    exact IoRequest.body_turns hb
  | inner j =>
    cases pc
    case ret status =>
      obtain ⟨rfl, rfl, rfl, rfl⟩ := by simpa [step] using h
      unfold IoRequest.returned
      split
      · exact .removes
      · exact .returned
    all_goals cases h
  | release d =>
    cases d <;> obtain ⟨rfl, rfl, rfl, rfl⟩ := by simpa [step] using h
    · exact .releaseFdo
    · exact .releasePdo
  | scsiEnd p =>
    obtain ⟨rfl, rfl, rfl, rfl⟩ := by simpa [step] using h
    exact .scsiEnd
  | wait =>
    simp only [step] at h
    split at h
    · next hw =>
      obtain ⟨rfl, rfl, rfl, rfl⟩ := by simpa using h
      exact .wait hw
    · cases h
  | delete =>
    obtain ⟨rfl, rfl, rfl, rfl⟩ := by simpa [step] using h
    exact .delete

/-- Sending a request is one of the turns. -/
theorem IoRequest.send_turns (h : j.sendable b = true) :
    Turns t b f (.send t j) .idle .outside (j.send b) f .idle j.start := by
  refine .send ?_ (.of_eq ?_ ?_ ?_ ?_ ?_) ?_
  · intro p hp
    simp only [sendable, hp, Bool.and_eq_true] at h
    exact h.1
  all_goals
    unfold IoRequest.send
    split <;> rfl

namespace Dispatch

variable {s s' : Dispatch} {a : DispatchAction}

/-- **A step of the driver behind its dispatch routines**: a thread moves inside the driver, or
takes a turn in its dispatch routine, or the owner of a buffer or an event acts. -/
theorem step_cases (h : s.step a = some s') :
    (∃ a₀ t b' pc', a = .driver a₀ ∧ s.admits a₀ = true ∧
      Moves t s.bus a₀ (s.calls t) b' pc' ∧
      s' = s.move t (b', pc')) ∨
    (∃ t b' f' pc' fr', Turns t s.bus s.device a (s.calls t) (s.frames t) b' f' pc' fr' ∧
      s' = s.put t (b', f', pc', fr')) ∨
    (∃ m g, s' = { s with driver := { s.driver with bus := s.bus.setMemory m g } }) ∨
    (∃ e, s' = { s with driver := { s.driver with bus := s.bus.setEvent e false } }) := by
  cases a with
  | driver a₀ =>
    simp only [step] at h
    split at h
    · next ha =>
      obtain ⟨d, hd, rfl⟩ := Option.map_eq_some_iff.mp h
      rcases Driver.step_moves hd with ⟨t, b', pc', m, rfl⟩ | ⟨m, g, -, rfl⟩ | ⟨e, -, -, rfl⟩
      · exact .inl ⟨a₀, t, b', pc', rfl, ha, m, rfl⟩
      · exact .inr (.inr (.inl ⟨m, g, rfl⟩))
      · exact .inr (.inr (.inr ⟨e, rfl⟩))
    · cases h
  | send t j =>
    simp only [step] at h
    split at h
    · next hfr hpc =>
      split at h
      · next hj =>
        obtain rfl := Option.some.inj h
        refine .inr (.inl ⟨t, _, _, _, _, ?_, rfl⟩)
        rw [hfr, hpc]
        exact IoRequest.send_turns hj
      · cases h
    · cases h
  | step t ok =>
    obtain ⟨⟨b', f', pc', fr'⟩, hr, rfl⟩ := Option.map_eq_some_iff.mp h
    exact .inr (.inl ⟨t, b', f', pc', fr', Frame.step_turns hr, rfl⟩)

end Dispatch

/-! ## The driver's invariants, behind the dispatch routines -/

/-- In a dispatch routine, and not in a routine of `Driver.Step`. -/
def Frame.apart : Frame → Bool
  | .outside | .inner _ => false
  | _ => true

namespace Pc

theorem mentions_of_entry (h : pc.entry = true) : pc.mentions = [] := by
  cases pc
  case getLoop e => cases e <;> first | rfl | cases h
  all_goals first | rfl | cases h

theorem destroying_of_entry (h : pc.entry = true) : pc.destroying = none := by
  cases pc <;> first | rfl | cases h

theorem locked_of_entry (h : pc.entry = true) : pc.locked = none := by
  cases pc <;> first | rfl | cases h

theorem tested_of_entry (h : pc.entry = true) : pc.tested = none := by
  cases pc <;> first | rfl | cases h

end Pc

namespace Turns

variable {a : DispatchAction}

/-- A turn changes little of the shared state. -/
theorem aside (m : Turns t b f a pc fr b' f' pc' fr') : Aside fr.mentions b b' := by
  cases m
  case send =>
    rename Aside _ _ _ => ha
    exact ha
  case answered =>
    rename Aside _ _ _ => ha
    exact ha
  case begins =>
    rename IoRequest.device _ = _ => hd
    rename Aside _ _ _ => ha
    simpa [Frame.mentions, IoRequest.mentions, hd] using ha
  case acquirePdo j p hd =>
    exact .setPdo (by simp [Frame.mentions, IoRequest.mentions, hd]) fun d => ⟨_, _, _, _, _, rfl⟩
  case releasePdo => exact .setPdo List.mem_cons_self fun d => ⟨_, _, _, _, _, rfl⟩
  case scsiEnd => exact .setPdo List.mem_cons_self fun d => ⟨_, _, _, _, _, rfl⟩
  all_goals exact .refl

/-- A turn leaves the thread's place in the driver alone, or puts it at an entry. -/
theorem pc_or_entry (m : Turns t b f a pc fr b' f' pc' fr') : pc' = pc ∨ pc'.entry = true := by
  cases m
  case begins =>
    rename Pc.entry _ = true => he
    exact .inr he
  all_goals first | exact .inl rfl | exact .inr rfl

/-- **Names are not made up**: a disk is in hand because the request was sent to it. -/
theorem mem_mentions {p : PdoId} (m : Turns t b f a pc fr b' f' pc' fr') (hp : p ∈ fr'.mentions) :
    p ∈ fr.mentions ∨ b.exposed p = true := by
  cases m
  case send j hj _ _ =>
    refine .inr (hj p ?_)
    unfold IoRequest.start at hp
    split at hp <;> cases hd : IoRequest.device _ <;>
      simp_all [Frame.mentions, IoRequest.mentions]
  case answered j hl ha =>
    refine .inl ?_
    cases hd : j.device <;> simp_all [Frame.mentions, IoRequest.mentions]
  case returned j =>
    refine .inl ?_
    cases hd : j.device <;> simp_all [Frame.mentions, IoRequest.mentions]
  all_goals first | exact .inl hp | exact absurd hp List.not_mem_nil

/-- The routines of the driver work for the bus device. -/
theorem inner (m : Turns t b f a pc fr b' f' pc' fr') (hj : fr' = .inner j) :
    j.device = .fdo ∨ fr = .inner j := by
  cases m
  case begins =>
    cases hj
    rename IoRequest.device _ = _ => hd
    exact .inl hd
  case send =>
    unfold IoRequest.start at hj
    split at hj <;> cases hj
  all_goals cases hj

/-- Apart from the driver's routines a thread is outside the driver. -/
theorem idle_of_apart (m : Turns t b f a pc fr b' f' pc' fr') (h : fr.apart = true → pc = .idle)
    (h' : fr'.apart = true) : pc' = .idle := by
  cases m
  all_goals first | rfl | exact h rfl | cases h'

end Turns

namespace Driver

variable {s : Driver} {ps : List PdoId}

/-- A thread stays where it is, or goes to an entry. -/
theorem put_or_entry (hpc : pc' = s.calls t ∨ pc'.entry = true) (r : Bus) (t₂ : Tid) :
    (s.put t (r, pc')).calls t₂ = s.calls t₂ ∨ ((s.put t (r, pc')).calls t₂).entry = true := by
  rcases eq_or_ne t₂ t with rfl | hne
  · rwa [put_calls_self]
  · exact .inl (put_calls_of_ne s hne _)

/-- **The links are kept** by what changes little of the shared state. -/
theorem Linked.aside (h : s.Linked) (ha : Aside ps s.bus b') (hps : ∀ p ∈ ps, s.bus.Known p)
    (hpc : pc' = s.calls t ∨ pc'.entry = true) : (s.put t (b', pc')).Linked := by
  have hcalls := put_or_entry hpc b'
  have hknown : ∀ p, s.bus.Known p → b'.Known p := fun p hp =>
    ⟨ha.pdoCount ▸ hp.1, (ha.deviceInitializing p).trans hp.2⟩
  have hsame : ∀ p, ¬ s.bus.Known p → b'.pdos p = s.bus.pdos p := fun p hp =>
    ha.untouched p (fun hmem => hp (hps p hmem)) fun hmem => hp (h.known hmem)
  have hadd : ∀ t₂ p, (s.put t (b', pc')).calls t₂ = .addInsert p → s.calls t₂ = .addInsert p := by
    intro t₂ p ht₂
    rcases hcalls t₂ with heq | he
    · exact heq.symm.trans ht₂
    · rw [ht₂] at he
      cases he
  refine ⟨?_, ?_, ?_, ?_, ?_, ?_, ?_, ?_⟩
  · exact (congrArg List.Nodup ha.listOfPDOs).mpr h.nodup
  · intro p hp
    have hi := h.intact p (ha.listOfPDOs ▸ hp)
    exact ⟨(ha.parentFdo p).trans hi.1, (ha.drained p).trans hi.2, (ha.mapped p).trans hi.3,
      (ha.signalled p).trans hi.4, (ha.deleted p).trans hi.5⟩
  · rintro p (hp | ⟨q, hq⟩ | ⟨i, hi⟩)
    · exact hknown p (h.known (ha.listOfPDOs ▸ hp))
    · exact hknown p (h.names p (.inr (.inl ⟨q, (ha.flink q).symm.trans hq⟩)))
    · exact hknown p (h.names p (.inr (.inr ⟨i, ha.irps ▸ hi⟩)))
  · intro t₂ p hp
    rcases hcalls t₂ with heq | he
    · exact hknown p (h.mentions t₂ p (heq ▸ hp))
    · rw [Pc.mentions_of_entry he] at hp
      cases hp
  · intro p hp
    have hp' : s.bus.pdoCount ≤ p := ha.pdoCount ▸ hp
    exact (hsame p fun hk => absurd hk.1 (Nat.not_lt.mpr hp')).trans (h.new p hp')
  · intro t₂ p ht₂
    obtain ⟨hlt, dd, hdd⟩ := h.adding t₂ p (hadd t₂ p ht₂)
    refine ⟨?_, dd, (hsame p (h.not_known (hadd t₂ p ht₂))).trans hdd⟩
    show p < b'.pdoCount
    exact ha.pdoCount ▸ hlt
  · intro t₁ t₂ p ht₁ ht₂
    exact h.addingUnique t₁ t₂ p (hadd t₁ p ht₁) (hadd t₂ p ht₂)
  · intro t₂ p hd hp
    rcases hcalls t₂ with heq | he
    · exact h.destroying t₂ p (heq ▸ hd) (ha.listOfPDOs ▸ hp)
    · rw [Pc.destroying_of_entry he] at hd
      cases hd

/-- The sections of the PDO locks are kept too. -/
theorem Locked.aside (h : s.Locked) (ha : Aside ps s.bus b')
    (hpc : pc' = s.calls t ∨ pc'.entry = true) : (s.put t (b', pc')).Locked := by
  have hcalls := put_or_entry hpc b'
  refine ⟨?_, ?_⟩
  · intro t₂ p hp
    rcases hcalls t₂ with heq | he
    · exact (ha.pdoLock p).trans (h.held t₂ p (heq ▸ hp))
    · rw [Pc.locked_of_entry he] at hp
      cases hp
  · intro t₂ p hp
    rcases hcalls t₂ with heq | he
    · exact (ha.currentIrp p).trans (h.tested t₂ p (heq ▸ hp))
    · rw [Pc.tested_of_entry he] at hp
      cases hp

end Driver

namespace Dispatch

variable {s s' : Dispatch} {C : Dispatch → DispatchAction → Prop}

/-- The driver's invariants hold, a thread apart in its dispatch routine is outside the driver, one
inside works for the bus device, and the disks in hand are known. -/
structure Framed (s : Dispatch) : Prop where
  linked : s.driver.Linked
  locked : s.driver.Locked
  idle : ∀ t, (s.frames t).apart = true → s.calls t = .idle
  inner : ∀ t j, s.frames t = .inner j → j.device = .fdo
  known : ∀ t, ∀ p ∈ (s.frames t).mentions, s.bus.Known p

/-- A thread that moves inside the driver is not apart. -/
theorem Framed.not_apart {a₀ : Action} (h : s.Framed) (ha : s.admits a₀ = true)
    (m : Moves t s.bus a₀ (s.calls t) b' pc') : (s.frames t).apart = false := by
  by_contra hap
  have hidle := h.idle t (by simpa using hap)
  rw [hidle] at m
  cases m <;> simp only [admits, Bool.and_eq_true] at ha <;> cases hfr : s.frames t <;>
    simp_all [Frame.apart]

/-- **The frames are kept by every step.** -/
theorem Framed.step {a : DispatchAction} (h : s.Framed) (hs : s.step a = some s') : s'.Framed := by
  rcases step_cases hs with ⟨a₀, t, b', pc', rfl, ha, m, rfl⟩ | ⟨t, b', f', pc', fr', m, rfl⟩ |
    ⟨x, g, rfl⟩ | ⟨e, rfl⟩
  · refine ⟨h.linked.move m, h.locked.move h.linked m, ?_, h.inner,
      fun t₂ p hp => m.known (h.known t₂ p hp)⟩
    intro t₂ hap
    rcases eq_or_ne t₂ t with rfl | hne
    · exact absurd (hap.symm.trans (h.not_apart ha m)) (by simp)
    · exact (move_calls_of_ne s hne _).trans (h.idle t₂ hap)
  · have hpc := m.pc_or_entry
    have hps := h.known t
    have hknown : ∀ p, s.bus.Known p → b'.Known p := fun p hp =>
      ⟨m.aside.pdoCount ▸ hp.1, (m.aside.deviceInitializing p).trans hp.2⟩
    refine ⟨h.linked.aside m.aside hps hpc, h.locked.aside m.aside hpc, ?_, ?_, ?_⟩
    · intro t₂ hap
      rcases eq_or_ne t₂ t with rfl | hne
      · rw [put_frames_self] at hap
        exact (put_calls_self ..).trans (m.idle_of_apart (h.idle t₂) hap)
      · rw [put_frames_of_ne s hne] at hap
        exact (put_calls_of_ne s hne _).trans (h.idle t₂ hap)
    · refine forall_update (L := fun _ (fr : Frame) => ∀ j, fr = .inner j → j.device = .fdo) ?_ ?_
      · intro j hj
        exact (m.inner hj).elim id (h.inner t j)
      · exact fun t₂ _ => h.inner t₂
    · refine forall_update (L := fun _ (fr : Frame) => ∀ p ∈ fr.mentions, b'.Known p) ?_ ?_
      · intro p hp
        rcases m.mem_mentions hp with hp | hp
        · exact hknown p (hps p hp)
        · exact hknown p (Bus.known_of_exposed hp)
      · intro t₂ _ p hp
        exact hknown p (h.known t₂ p hp)
  · exact ⟨⟨h.1.1, h.1.2, h.1.3, h.1.4, h.1.5, h.1.6, h.1.7, h.1.8⟩, ⟨h.2.1, h.2.2⟩, h.3, h.4, h.5⟩
  · exact ⟨⟨h.1.1, h.1.2, h.1.3, h.1.4, h.1.5, h.1.6, h.1.7, h.1.8⟩, ⟨h.2.1, h.2.2⟩, h.3, h.4, h.5⟩

/-! ## Runs of a few threads -/

end Dispatch

/-- Only these threads act. -/
def DispatchAction.onlyBy (ts : List Tid) : DispatchAction → Bool
  | .driver a => a.onlyBy ts
  | .send t _ | .step t _ => t ∈ ts

theorem Turns.onlyBy {a : DispatchAction} {ts : List Tid}
    (m : Turns t b f a pc fr b' f' pc' fr') (h : a.onlyBy ts = true) : t ∈ ts := by
  cases m <;> simpa [DispatchAction.onlyBy] using h

namespace Dispatch

/-- **A thread that does not act stays outside.** -/
theorem idle_of_onlyBy {ts : List Tid} (h : lts.Reach C s)
    (hC : ∀ s a, C s a → a.onlyBy ts = true) :
    ∀ t ∉ ts, s.calls t = .idle ∧ s.frames t = .outside := by
  refine h.invariant (I := fun s => ∀ t ∉ ts, s.calls t = .idle ∧ s.frames t = .outside)
    (fun _ _ => ⟨rfl, rfl⟩) ?_
  intro s a s' hr hi hc hs
  have ha := hC s a hc
  rcases step_cases hs with ⟨a₀, t, b', pc', rfl, -, m, rfl⟩ | ⟨t, b', f', pc', fr', m, rfl⟩ |
    ⟨x, g, rfl⟩ | ⟨e, rfl⟩
  · have ht : t ∈ ts := by
      simpa [DispatchAction.onlyBy, Action.onlyBy, m.thread] using ha
    intro t₂ ht₂
    rw [move_calls_of_ne s (by rintro rfl; exact ht₂ ht)]
    exact hi t₂ ht₂
  · have ht := m.onlyBy ha
    intro t₂ ht₂
    have hne : t₂ ≠ t := by
      rintro rfl
      exact ht₂ ht
    rw [put_calls_of_ne s hne, put_frames_of_ne s hne]
    exact hi t₂ ht₂
  · exact hi
  · exact hi

/-- A thread sends a request that is answered after `n` steps inside the driver. -/
def request (t : Tid) (j : IoRequest) (n : ℕ) : List DispatchAction :=
  .send t j :: .step t true :: .step t true :: .step t true ::
    (List.replicate n (.driver (.step t true)) ++ [.step t true, .step t true])

/-- A thread runs through a routine it enters directly. -/
def direct (t : Tid) (c : Call) (n : ℕ) : List DispatchAction := (routine t c n).map .driver

/-! ## The invariant -/

/-- No frame is entered. -/
theorem Framed.init : lts.init.Framed := by
  refine ⟨Driver.Linked.init, Driver.Locked.init, fun t ht => ?_, fun t j hj => ?_,
    fun t p hp => ?_⟩
  · cases ht
  · cases hj
  · cases hp

/-- **The frames hold in every state reached.** -/
theorem framed (h : lts.Reach C s) : s.Framed :=
  h.invariant Framed.init fun _ _ _ _ hi _ hs => hi.step hs

end Dispatch

end VirtualDisk
