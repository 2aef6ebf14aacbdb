import VirtualDisk.Machinery.Script
import VirtualDisk.Driver.Dispatch

/-!
# Driver/Disposition — every dispatch routine disposes of its IRP

A dispatch routine owns its IRP until it completes it, passes it down or queues it, and must do one
of these, once; it returns the status the IRP got.  It gives the remove lock back as often as it was
granted it, and lets the power manager send the next power IRP before it gives one away.

The routines are scripts of the calls that this is about.  What other threads and drivers do
meanwhile is in the answers: each read of the device extension may find any value.
-/

namespace VirtualDisk

open Machinery

/-- `STATUS_NOT_SUPPORTED`. -/
def statusNotSupported : NTSTATUS := 0xC00000BB

/-! ## The calls -/

/-- The routines of the driver whose status a dispatch routine makes its IRP's. -/
inductive Callee
  | busAddDisk
  | busRemoveDisk
  | busProcessReply
  | busPdoIoCtl
  | busStartFdo
  | busDestroyPdo
  | busPdoQuery
  deriving DecidableEq

/-- **The calls a dispatch routine makes** for its IRP and its device, and its reads of the device
extension. -/
inductive IrpCall
  | devicePnPState
  | present
  | reportedMissing
  | claimed
  | numPDOs
  | currentIrp
  | ioAcquireRemoveLock
  | ioReleaseRemoveLock
  | ioReleaseRemoveLockAndWait
  | setIoStatus (status : NTSTATUS)
  | ioStatus
  | ioCompleteRequest
  | ioCallDriver
  | busSendIrpSynchronously
  | poStartNextPowerIrp
  | poCallDriver
  | ioCsqInsertIrp
  | ioMarkIrpPending
  | ioCsqRemoveNextIrp
  | exAllocatePool
  | callee (f : Callee)

/-- What a call returns; an allocation, and the removal from a queue, whether it succeeds. -/
abbrev IrpCall.Answer : IrpCall → Type
  | .devicePnPState => DevicePnpState
  | .present | .reportedMissing | .claimed | .currentIrp => Bool
  | .numPDOs => ULONG
  | .ioAcquireRemoveLock | .ioStatus => NTSTATUS
  | .ioCallDriver | .busSendIrpSynchronously | .poCallDriver | .callee _ => NTSTATUS
  | .ioCsqRemoveNextIrp | .exAllocatePool => Bool
  | _ => Unit

/-- A dispatch routine, or a part of one. -/
abbrev Routine := Script IrpCall IrpCall.Answer

namespace Routine

/-- A single call. -/
@[simp] def call (e : IrpCall) : Routine e.Answer := .perform e

/-- `Irp->IoStatus.Status = status; IoCompleteRequest (Irp, IO_NO_INCREMENT); return status`. -/
@[simp] def completeIrp (status : NTSTATUS) : Routine NTSTATUS := do
  call (.setIoStatus status)
  call .ioCompleteRequest
  return status

/-- The same with the remove lock given back at the end. -/
@[simp] def completeAndRelease (status : NTSTATUS) : Routine NTSTATUS := do
  call (.setIoStatus status)
  call .ioCompleteRequest
  call .ioReleaseRemoveLock
  return status

/-- The end of `Bus_FDO_PnP`. -/
@[simp] def passDown : Routine NTSTATUS := do
  let status : NTSTATUS ← call .ioCallDriver
  call .ioReleaseRemoveLock
  return status

end Routine

/-! ## The dispatch routines -/

/-- The minor functions of a PnP IRP that `Bus_PDO_PnP` distinguishes.  `query` stands for those
that have a routine of their own. -/
inductive PdoMinor
  | pnp (m : PnpMinor)
  | removeDevice
  | query
  | deviceUsageNotification
  | other

/-- The minor functions of a power IRP. -/
inductive PowerMinor
  | setPower
  | queryPower
  | waitWake
  | powerSequence
  | other

/-- `Parameters.Power.Type`. -/
inductive PowerStateType
  | systemPowerState
  | devicePowerState
  | other

/-- `IoControlCode`, as `Bus_FDO_IoCtl` distinguishes them. -/
inductive FdoControlCode
  | addDisk
  | removeDisk
  | getRequest
  | sendReply
  | other

/-- **An IRP that the I/O manager sends to a device of the driver.**  `short` says that the buffer
of a control request is too small. -/
inductive DeviceIrp
  | createClose (isFdo : Bool)
  | cleanup (isFdo : Bool)
  | fdoPnp (m : FdoMinor)
  | pdoPnp (m : PdoMinor)
  | fdoPower (m : PowerMinor)
  | pdoPower (m : PowerMinor) (type : PowerStateType)
  | fdoIoctl (c : FdoControlCode) (short : Bool)
  | pdoIoctl
  | fdoScsi
  | pdoScsi (pdo : PdoDeviceData) (g : SrbFunction)

open Routine

/-- `Bus_CreateClose`. -/
def busCreateClose (isFdo : Bool) : Routine NTSTATUS := do
  let status : NTSTATUS ← call .ioAcquireRemoveLock
  if !ntSuccess status then completeIrp status
  else if isFdo then
    let state : DevicePnpState ← call .devicePnPState
    if state = .deleted then completeIrp statusNoSuchDevice else completeAndRelease statusSuccess
  else
    let present : Bool ← call .present
    if !present then completeIrp statusNoSuchDevice else completeAndRelease statusSuccess

/-- `Bus_FDO_Cleanup`, what it does to other IRPs aside. -/
def busFdoCleanup : Routine NTSTATUS := do
  let state : DevicePnpState ← call .devicePnPState
  if state = .deleted then completeIrp statusNoSuchDevice else completeIrp statusSuccess

/-- `Bus_PDO_Cleanup`. -/
def busPdoCleanup : Routine NTSTATUS := do
  let present : Bool ← call .present
  if !present then completeIrp statusNoSuchDevice else completeIrp statusSuccess

/-- The relations are put together, in `Bus_FDO_PnP`. -/
def reportRelations : Routine NTSTATUS := do
  let allocated : Bool ← call .exAllocatePool
  if !allocated then completeIrp statusInsufficientResources
  else
    call (.setIoStatus statusSuccess)
    passDown

/-- `Bus_FDO_PnP`. -/
def busFdoPnP (m : FdoMinor) : Routine NTSTATUS := do
  let status : NTSTATUS ← call .ioAcquireRemoveLock
  if !ntSuccess status then completeIrp status
  else match m with
  | .startDevice => do
    let status : NTSTATUS ← call .busSendIrpSynchronously
    let status : NTSTATUS ← if ntSuccess status then call (.callee .busStartFdo) else pure status
    completeAndRelease status
  | .queryStopDevice | .cancelStopDevice | .stopDevice | .queryRemoveDevice | .cancelRemoveDevice
  | .surpriseRemoval => do
    call (.setIoStatus statusSuccess)
    passDown
  | .removeDevice => do
    call .ioReleaseRemoveLockAndWait
    call (.setIoStatus statusSuccess)
    call .ioCallDriver
  | .queryDeviceRelations (some _) => do
    let numPDOs : ULONG ← call .numPDOs
    if numPDOs = 0 then passDown else reportRelations
  | .queryDeviceRelations none => reportRelations
  | .other => passDown

/-- `Bus_PDO_PnP`. -/
def busPdoPnP (m : PdoMinor) : Routine NTSTATUS := do
  let status : NTSTATUS ← match m with
    | .pnp _ => pure statusSuccess
    | .removeDevice => do
      let reportedMissing : Bool ← call .reportedMissing
      if reportedMissing then call (.callee .busDestroyPdo)
      else
        let _ ← call .present
        pure statusSuccess
    | .query => call (.callee .busPdoQuery)
    | .deviceUsageNotification => pure statusUnsuccessful
    | .other => call .ioStatus
  completeIrp status

/-- `Bus_PnP`. -/
def busPnP (pnp : Routine NTSTATUS) : Routine NTSTATUS := do
  let state : DevicePnpState ← call .devicePnPState
  if state = .deleted then completeIrp statusNoSuchDevice else pnp

/-- `Bus_FDO_Power`.  Both of its exits below the remove lock do the same. -/
def busFdoPower : Routine NTSTATUS := do
  let status : NTSTATUS ← call .ioAcquireRemoveLock
  if !ntSuccess status then completeIrp status
  else
    let _ ← call .devicePnPState
    call .poStartNextPowerIrp
    let status : NTSTATUS ← call .poCallDriver
    call .ioReleaseRemoveLock
    return status

/-- `Bus_PDO_Power`. -/
def busPdoPower (m : PowerMinor) (type : PowerStateType) : Routine NTSTATUS := do
  let status := match m, type with
    | .setPower, .devicePowerState | .setPower, .systemPowerState => statusSuccess
    | .queryPower, _ => statusSuccess
    | _, _ => statusNotSupported
  if status ≠ statusNotSupported then call (.setIoStatus status)
  call .poStartNextPowerIrp
  let status : NTSTATUS ← call .ioStatus
  call .ioCompleteRequest
  return status

/-- `Bus_Power`. -/
def busPower (power : Routine NTSTATUS) : Routine NTSTATUS := do
  let state : DevicePnpState ← call .devicePnPState
  if state = .deleted then
    call .poStartNextPowerIrp
    completeIrp statusNoSuchDevice
  else power

/-- `Bus_FDO_IoCtl`, what a GET_REQUEST starts aside. -/
def busFdoIoCtl (c : FdoControlCode) (short : Bool) : Routine NTSTATUS := do
  let status : NTSTATUS ← call .ioAcquireRemoveLock
  if !ntSuccess status then completeIrp status
  else match c, short with
  | .other, _ => completeAndRelease statusInvalidDeviceRequest
  | _, true => completeAndRelease statusInvalidParameter
  | .addDisk, false => do completeAndRelease (← call (.callee .busAddDisk))
  | .removeDisk, false => do completeAndRelease (← call (.callee .busRemoveDisk))
  | .sendReply, false => do completeAndRelease (← call (.callee .busProcessReply))
  | .getRequest, false => do
    call .ioCsqInsertIrp
    call .ioReleaseRemoveLock
    return statusPending

/-- `Bus_PDO_IoCtl`. -/
def busPdoIoCtlRoutine : Routine NTSTATUS := do
  let status : NTSTATUS ← call .ioAcquireRemoveLock
  if !ntSuccess status then completeIrp status
  else completeAndRelease (← call (.callee .busPdoIoCtl))

/-- `Bus_IoCtl`. -/
def busIoCtl (ioctl : Routine NTSTATUS) : Routine NTSTATUS := do
  let state : DevicePnpState ← call .devicePnPState
  if state = .deleted then completeIrp statusNoSuchDevice else ioctl

/-- `BusStartPacket`. -/
def busStartPacket : Routine NTSTATUS := do
  let current : Bool ← call .currentIrp
  if current then
    call .ioCsqInsertIrp
    return statusPending
  else
    let rqIrp : Bool ← call .ioCsqRemoveNextIrp
    if !rqIrp then
      call .ioCsqInsertIrp
      return statusPending
    else
      let status : NTSTATUS ← call .ioAcquireRemoveLock
      if !ntSuccess status then completeIrp status
      else
        call .ioMarkIrpPending
        return statusPending

/-- `Bus_ExecuteSrb`, with `Bus_ExecuteCommand`. -/
def busExecuteSrb (pdo : PdoDeviceData) : SrbFunction → Routine NTSTATUS
  | .claimDevice => do
    let claimed : Bool ← call .claimed
    return if claimed then statusDeviceBusy else statusSuccess
  | .releaseDevice => return statusSuccess
  | .executeScsi srb => match busExecuteCommand pdo srb with
    | .startPacket => busStartPacket
    | .answered status _ _ _ => return status
  | .other => return statusInvalidDeviceRequest

/-- `Bus_Scsi` from the label `END`. -/
@[simp] def busScsiEnd (status : NTSTATUS) : Routine NTSTATUS :=
  if status ≠ statusPending then completeAndRelease status
  else do
    call .ioReleaseRemoveLock
    return status

/-- `Bus_Scsi` for a PDO. -/
def busPdoScsi (pdo : PdoDeviceData) (g : SrbFunction) : Routine NTSTATUS := do
  let state : DevicePnpState ← call .devicePnPState
  if state = .deleted then busScsiEnd statusNoSuchDevice
  else
    let status : NTSTATUS ← call .ioAcquireRemoveLock
    if !ntSuccess status then completeIrp status
    else
      let status ← busExecuteSrb pdo g
      busScsiEnd status

/-- **The dispatch routine of an IRP**, as `DriverEntry` sets it up. -/
def dispatch : DeviceIrp → Routine NTSTATUS
  | .createClose isFdo => busCreateClose isFdo
  | .cleanup isFdo => if isFdo then busFdoCleanup else busPdoCleanup
  | .fdoPnp m => busPnP (busFdoPnP m)
  | .pdoPnp m => busPnP (busPdoPnP m)
  | .fdoPower _ => busPower busFdoPower
  | .pdoPower m type => busPower (busPdoPower m type)
  | .fdoIoctl c short => busIoCtl (busFdoIoCtl c short)
  | .pdoIoctl => busIoCtl busPdoIoCtlRoutine
  | .fdoScsi => completeIrp statusInvalidDeviceRequest
  | .pdoScsi pdo g => busPdoScsi pdo g

/-! ## The contract -/

/-- What became of the IRP.  `current` is the packet a disk works on. -/
inductive Disposal
  | mine
  | completed (status : NTSTATUS)
  | passedDown (status : NTSTATUS)
  | queued
  | current
  deriving DecidableEq

/-- **How far a dispatch routine is with its IRP**: what became of it, its `IoStatus.Status`, how
often the remove lock is held for it, and whether the next power IRP was let go. -/
structure IrpUse where
  disposal : Disposal := .mine
  status : NTSTATUS
  locks : ℕ := 0
  started : Bool := false
  deriving DecidableEq

namespace IrpUse

/-- **The contract**: only the owner of the IRP touches it or gives it away, a power IRP after
`PoStartNextPowerIrp`, and the remove lock is given back by who holds it. -/
@[simp] def step (power : Bool) (u : IrpUse) : (e : IrpCall) → e.Answer → Option IrpUse
  | .ioAcquireRemoveLock, status =>
    some (if ntSuccess status then { u with locks := u.locks + 1 } else u)
  | .ioReleaseRemoveLock, _ | .ioReleaseRemoveLockAndWait, _ =>
    if u.locks = 0 then none else some { u with locks := u.locks - 1 }
  | .setIoStatus status, _ => if u.disposal = .mine then some { u with status } else none
  | .ioStatus, _ => if u.disposal = .mine then some u else none
  | .busSendIrpSynchronously, status =>
    if u.disposal = .mine then some { u with status } else none
  | .poStartNextPowerIrp, _ =>
    if u.disposal = .mine ∧ power ∧ !u.started then some { u with started := true } else none
  | .ioCompleteRequest, _ =>
    if u.disposal = .mine ∧ u.started = power then some { u with disposal := .completed u.status }
    else none
  | .ioCallDriver, status =>
    if u.disposal = .mine ∧ !power then some { u with disposal := .passedDown status } else none
  | .poCallDriver, status =>
    if u.disposal = .mine ∧ power ∧ u.started then some { u with disposal := .passedDown status }
    else none
  | .ioCsqInsertIrp, _ =>
    if u.disposal = .mine ∧ !power then some { u with disposal := .queued } else none
  | .ioMarkIrpPending, _ =>
    if u.disposal = .mine ∧ !power then some { u with disposal := .current } else none
  | _, _ => some u

/-- What is read from the IRP is what was written to it. -/
def reads (u : IrpUse) : (e : IrpCall) → Option e.Answer
  | .ioStatus => some u.status
  | _ => none

/-- **The protocol of an IRP.** -/
def protocol (power : Bool) : Protocol IrpCall IrpCall.Answer IrpUse :=
  .ofReads reads (step power)

/-- **The IRP was disposed of**, with the status that is returned.  The remove lock is held on for
the current packet of a disk, once, and for no other IRP. -/
@[simp] def Disposed (u : IrpUse) (status : NTSTATUS) : Prop :=
  match u.disposal with
  | .mine => False
  | .completed status' | .passedDown status' => status = status' ∧ u.locks = 0
  | .queued => status = statusPending ∧ u.locks = 0
  | .current => status = statusPending ∧ u.locks = 1

end IrpUse

/-! ## Where a routine breaks it -/

/-- What `IoAcquireRemoveLock` returned. -/
@[simp] def lockAnswers : Calls IrpCall IrpCall.Answer → List NTSTATUS
  | [] => []
  | ⟨.ioAcquireRemoveLock, status⟩ :: tr => status :: lockAnswers tr
  | _ :: tr => lockAnswers tr

/-- The device is found deleted. -/
def findsDeleted (tr : Calls IrpCall IrpCall.Answer) : Bool :=
  tr.any fun
    | ⟨.devicePnPState, state⟩ => state = .deleted
    | _ => false

/-- The disk is found not to be present. -/
def findsAbsent (tr : Calls IrpCall IrpCall.Answer) : Bool :=
  tr.any fun
    | ⟨.present, present⟩ => !present
    | _ => false

/-- An allocation fails. -/
def allocationFails (tr : Calls IrpCall IrpCall.Answer) : Bool :=
  tr.any fun
    | ⟨.exAllocatePool, allocated⟩ => !allocated
    | _ => false

namespace DeviceIrp

/-- A power IRP. -/
def isPower : DeviceIrp → Bool
  | .fdoPower _ | .pdoPower _ _ => true
  | _ => false

/-- **The calls on which a dispatch routine breaks the contract.**  `Bus_CreateClose` and
`Bus_FDO_PnP` leave with the remove lock, `Bus_FDO_Power` without `PoStartNextPowerIrp`; `Bus_Scsi`
gives back a lock it does not hold, and completes an IRP that `BusStartPacket` has completed. -/
def Faulty (j : DeviceIrp) (tr : Calls IrpCall IrpCall.Answer) : Bool :=
  match j with
  | .createClose _ => findsDeleted tr || findsAbsent tr
  | .fdoPnp _ => allocationFails tr
  | .fdoPower _ => (lockAnswers tr).any fun status => !ntSuccess status
  | .pdoScsi _ _ => findsDeleted tr || (lockAnswers tr).tail.any fun status => !ntSuccess status
  | _ => false

end DeviceIrp

/-! ## The routines, one by one -/

/-- **The routine did what it had to.** -/
def Kept (o : Option (NTSTATUS × IrpUse)) : Prop :=
  ∃ status u, o = some (status, u) ∧ u.Disposed status

@[simp] theorem kept_some {status : NTSTATUS} {u : IrpUse} :
    Kept (some (status, u)) ↔ u.Disposed status :=
  ⟨fun ⟨_, _, heq, h⟩ => by cases heq; exact h, fun h => ⟨_, _, rfl, h⟩⟩

@[simp] theorem not_kept_none : ¬ Kept none := fun ⟨_, _, heq, _⟩ => by cases heq

variable {power : Bool} {u : IrpUse} {status : NTSTATUS}
variable {φ : Calls IrpCall IrpCall.Answer → Option (NTSTATUS × IrpUse) → Prop}

/-- A call that may return anything. -/
@[simp] theorem all_irpCall {e : IrpCall} {k : e.Answer → Routine NTSTATUS} (he : e ≠ .ioStatus) :
    (IrpUse.protocol power).All (.call e k) φ u ↔ ∀ r,
      (u.step power e r).elim (φ [⟨e, r⟩] none) fun u' =>
        (IrpUse.protocol power).All (k r) (fun tr o => φ (⟨e, r⟩ :: tr) o) u' :=
  Protocol.all_call (by cases e <;> first | exact absurd rfl he | rfl)

/-- A read of the status. -/
@[simp] theorem all_ioStatus {k : NTSTATUS → Routine NTSTATUS} :
    (IrpUse.protocol power).All (.call .ioStatus k) φ u ↔
      (u.step power .ioStatus u.status).elim (φ [⟨.ioStatus, u.status⟩] none) fun u' =>
        (IrpUse.protocol power).All (k u.status) (fun tr o => φ (⟨.ioStatus, u.status⟩ :: tr) o) u' :=
  Protocol.all_read rfl

/-- `Bus_CreateClose` keeps the contract unless the device is gone. -/
theorem createClose_kept (isFdo : Bool) : (IrpUse.protocol false).All (busCreateClose isFdo)
    (fun tr o => Kept o ↔ (findsDeleted tr || findsAbsent tr) = false) { status } := by
  simp only [busCreateClose]
  cases isFdo
  all_goals
    simp
    intro lock
    cases hl : ntSuccess lock
    all_goals simp [findsDeleted, findsAbsent]

/-- `Bus_Cleanup` keeps it. -/
theorem cleanup_kept (isFdo : Bool) : (IrpUse.protocol false).All
    (if isFdo then busFdoCleanup else busPdoCleanup) (fun _ o => Kept o) { status } := by
  cases isFdo <;> simp [busFdoCleanup, busPdoCleanup]

/-- `Bus_FDO_PnP` keeps it unless the allocation of the relations fails. -/
theorem fdoPnP_kept (m : FdoMinor) : (IrpUse.protocol false).All (busFdoPnP m)
    (fun tr o => Kept o ↔ allocationFails tr = false) { status } := by
  simp only [busFdoPnP, reportRelations]
  simp
  intro lock
  cases hl : ntSuccess lock
  · simp [allocationFails]
  cases m with
  | startDevice =>
    simp
    intro lower
    cases hs : ntSuccess lower <;> simp [allocationFails]
  | queryDeviceRelations old =>
    cases old <;> simp [allocationFails]
  | _ => simp [allocationFails]

/-- `Bus_PDO_PnP` keeps it. -/
theorem pdoPnP_kept (m : PdoMinor) : (IrpUse.protocol false).All (busPdoPnP m)
    (fun _ o => Kept o) { status } := by
  simp only [busPdoPnP]
  cases m <;> simp

/-- `Bus_FDO_Power` keeps it unless it is refused the remove lock. -/
theorem fdoPower_kept : (IrpUse.protocol true).All busFdoPower
    (fun tr o => Kept o ↔ ((lockAnswers tr).any fun status => !ntSuccess status) = false)
    { status } := by
  simp only [busFdoPower]
  simp
  intro lock
  cases hl : ntSuccess lock <;> simp

/-- `Bus_PDO_Power` keeps it. -/
theorem pdoPower_kept (m : PowerMinor) (type : PowerStateType) :
    (IrpUse.protocol true).All (busPdoPower m type) (fun _ o => Kept o) { status } := by
  have hne : statusSuccess ≠ statusNotSupported := by decide
  unfold busPdoPower
  cases m <;> cases type <;> simp [hne]

/-- `Bus_FDO_IoCtl` keeps it. -/
theorem fdoIoCtl_kept (c : FdoControlCode) (short : Bool) :
    (IrpUse.protocol false).All (busFdoIoCtl c short) (fun _ o => Kept o) { status } := by
  simp only [busFdoIoCtl]
  simp
  intro lock
  cases hl : ntSuccess lock
  · simp
  cases c <;> cases short <;> simp

/-- `Bus_PDO_IoCtl` keeps it. -/
theorem pdoIoCtl_kept : (IrpUse.protocol false).All busPdoIoCtlRoutine (fun _ o => Kept o)
    { status } := by
  simp only [busPdoIoCtlRoutine]
  simp
  intro lock
  cases hl : ntSuccess lock <;> simp

/-- The status of a command that is answered at once. -/
theorem answered_ne_pending {pdo pdo' : PdoDeviceData} {srb srb' : ScsiRequestBlock}
    {information : Option ULONG} (h : busExecuteCommand pdo srb = .answered status pdo' srb' information) :
    status ≠ statusPending := by
  unfold busExecuteCommand at h
  dsimp only at h
  split_ifs at h <;> cases h <;> decide

/-- `Bus_Scsi` keeps it unless the disk is deleted, or is being removed when the IRP would be its
current packet. -/
theorem pdoScsi_kept (pdo : PdoDeviceData) (g : SrbFunction) :
    (IrpUse.protocol false).All (busPdoScsi pdo g) (fun tr o => Kept o ↔
      (findsDeleted tr || (lockAnswers tr).tail.any fun status => !ntSuccess status) = false)
    { status } := by
  have hgone : statusNoSuchDevice ≠ statusPending := by decide
  have hsuccess : statusSuccess ≠ statusPending := by decide
  have hbusy : statusDeviceBusy ≠ statusPending := by decide
  have hinvalid : statusInvalidDeviceRequest ≠ statusPending := by decide
  have hpending : ntSuccess statusPending = true := by decide
  unfold busPdoScsi
  simp
  intro state
  by_cases hd : state = .deleted
  · simp [hd, hgone, findsDeleted]
  simp [hd]
  intro lock
  cases hl : ntSuccess lock
  · simp [findsDeleted, hd]
  cases g with
  | executeScsi srb =>
    simp [busExecuteSrb]
    cases he : busExecuteCommand pdo srb with
    | startPacket =>
      simp [busStartPacket, findsDeleted, hd]
      intro second
      cases hs : ntSuccess second
      · have hne : second ≠ statusPending := fun h => by simp [h, hpending] at hs
        simp [hne]
      · simp
    | answered _ _ _ _ =>
      have hne := answered_ne_pending he
      simp [hne, findsDeleted, hd]
  | _ => simp [busExecuteSrb, hsuccess, hbusy, hinvalid, findsDeleted, hd]

/-! ## Every IRP -/

/-- The test of `Bus_PnP` and of `Bus_IoCtl` keeps the contract, and finds a device deleted without
fault. -/
theorem pnp_kept {pnp : Routine NTSTATUS} {faulty : Calls IrpCall IrpCall.Answer → Bool}
    (hstate : ∀ state tr, faulty (⟨.devicePnPState, state⟩ :: tr) = faulty tr)
    (hcomplete : faulty [⟨.setIoStatus statusNoSuchDevice, ()⟩, ⟨.ioCompleteRequest, ()⟩] = false)
    (h : (IrpUse.protocol false).All pnp (fun tr o => Kept o ↔ faulty tr = false) { status }) :
    (IrpUse.protocol false).All (busPnP pnp) (fun tr o => Kept o ↔ faulty tr = false)
      { status } := by
  unfold busPnP
  simp
  intro state
  by_cases hd : state = .deleted
  · simp [hd, hstate, hcomplete]
  · simpa [hd, hstate] using h

/-- The test of `Bus_Power` does. -/
theorem power_kept {pow : Routine NTSTATUS} {faulty : Calls IrpCall IrpCall.Answer → Bool}
    (hstate : ∀ state tr, faulty (⟨.devicePnPState, state⟩ :: tr) = faulty tr)
    (hcomplete : faulty [⟨.poStartNextPowerIrp, ()⟩, ⟨.setIoStatus statusNoSuchDevice, ()⟩,
      ⟨.ioCompleteRequest, ()⟩] = false)
    (h : (IrpUse.protocol true).All pow (fun tr o => Kept o ↔ faulty tr = false) { status }) :
    (IrpUse.protocol true).All (busPower pow) (fun tr o => Kept o ↔ faulty tr = false)
      { status } := by
  unfold busPower
  simp
  intro state
  by_cases hd : state = .deleted
  · simp [hd, hstate, hcomplete]
  · simpa [hd, hstate] using h

/-- A routine that keeps the contract always. -/
theorem all_kept {p : Routine NTSTATUS} {faulty : Calls IrpCall IrpCall.Answer → Bool}
    (h : (IrpUse.protocol power).All p (fun _ o => Kept o) u) (hf : ∀ tr, faulty tr = false) :
    (IrpUse.protocol power).All p (fun tr o => Kept o ↔ faulty tr = false) u :=
  h.mono fun tr _ hk => ⟨fun _ => hf tr, fun _ => hk⟩

/-- The dispatch routines, together. -/
theorem dispatch_kept (j : DeviceIrp) : (IrpUse.protocol j.isPower).All (dispatch j)
    (fun tr o => Kept o ↔ j.Faulty tr = false) { status } := by
  cases j with
  | createClose isFdo => exact createClose_kept isFdo
  | cleanup isFdo => exact all_kept (cleanup_kept isFdo) fun _ => rfl
  | fdoPnp m => exact pnp_kept (fun _ _ => rfl) rfl (fdoPnP_kept m)
  | pdoPnp m => exact pnp_kept (fun _ _ => rfl) rfl (all_kept (pdoPnP_kept m) fun _ => rfl)
  | fdoPower m => exact power_kept (fun _ _ => rfl) rfl fdoPower_kept
  | pdoPower m type =>
    exact power_kept (fun _ _ => rfl) rfl (all_kept (pdoPower_kept m type) fun _ => rfl)
  | fdoIoctl c short =>
    exact pnp_kept (fun _ _ => rfl) rfl (all_kept (fdoIoCtl_kept c short) fun _ => rfl)
  | pdoIoctl => exact pnp_kept (fun _ _ => rfl) rfl (all_kept pdoIoCtl_kept fun _ => rfl)
  | fdoScsi => simp [dispatch, DeviceIrp.isPower, DeviceIrp.Faulty]
  | pdoScsi pdo g => exact pdoScsi_kept pdo g

end VirtualDisk
