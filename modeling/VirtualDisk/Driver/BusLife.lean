import VirtualDisk.Machinery.Script
import VirtualDisk.Driver.Dispatch

/-!
# Driver/BusLife — what the bus device owns, from `Bus_AddDevice` to its end

The device object of the bus, its place on the device stack, and the name of its device interface
are acquired by `Bus_AddDevice` and given back by `Bus_RemoveFdo` and REMOVE_DEVICE, or by
SURPRISE_REMOVAL first.  The device extension says what there is to give back: a pointer that is not
cleared leads to a second release, one that is lost to none.

Each PnP request acquires the remove lock, which REMOVE_DEVICE waits for, and some the mutex.  A
query for relations that fails keeps the remove lock, and then REMOVE_DEVICE waits for ever.

Reads and writes of the extension are calls, too, so that none may come after `IoDeleteDevice`.
-/

namespace VirtualDisk

open Machinery

/-- `STATUS_BUFFER_TOO_SMALL`. -/
def statusBufferTooSmall : NTSTATUS := 0xC0000023

/-! ## What a request leaves of the bus device -/

/-- **What the PnP requests change of the bus device**: the remove lock, whether the object is
deleted, and the PnP state. -/
structure BusView where
  device : FdoDevice
  devicePnPState : DevicePnpState
  previousPnPState : DevicePnpState

namespace BusView

variable {v v' v₁ v₂ : BusView}

/-- The remove lock is held once more. -/
def held (v : BusView) : BusView :=
  { v with device := { v.device with removeLock := v.device.removeLock + 1 } }

/-- `SET_NEW_PNP_STATE` and `RESTORE_PREVIOUS_PNP_STATE`. -/
def apply (v : BusView) (m : FdoMinor) (ok : Bool) : BusView :=
  let f := m.apply ok { devicePnPState := v.devicePnPState, previousPnPState := v.previousPnPState }
  { v with devicePnPState := f.devicePnPState, previousPnPState := f.previousPnPState }

/-- **What a request leaves**: a query that fails leaves the remove lock held, and REMOVE_DEVICE
deletes the object if nobody holds the lock, or waits. -/
inductive Leaves (v : BusView) : FdoMinor → BusView → Prop
  | passed {m : FdoMinor} (ok : Bool) (hm : m ≠ .removeDevice) : Leaves v m (v.apply m ok)
  | failed (old : Option (List DeviceId)) : Leaves v (.queryDeviceRelations old) v.held
  | waits (h : v.device.removeLock ≠ 0) : Leaves v .removeDevice
      { v.apply .removeDevice true with device := { v.device with removed := true } }
  | removed (h : v.device.removeLock = 0) : Leaves v .removeDevice
      { v.apply .removeDevice true with
        device := { v.device with removed := true, deleted := true } }

/-- REMOVE_DEVICE leaves one thing. -/
theorem Leaves.unique (h₁ : Leaves v .removeDevice v₁) (h₂ : Leaves v .removeDevice v₂) :
    v₁ = v₂ := by
  cases h₁ with
  | passed ok hm => exact absurd rfl hm
  | waits h =>
    cases h₂ with
    | passed ok hm => exact absurd rfl hm
    | waits => rfl
    | removed h' => exact absurd h' h
  | removed h =>
    cases h₂ with
    | passed ok hm => exact absurd rfl hm
    | waits h' => exact absurd h h'
    | removed => rfl

end BusView

/-- The view of a device. -/
def FdoDeviceData.busView (d : FdoDeviceData) (f : FdoDevice) : BusView :=
  ⟨f, d.devicePnPState, d.previousPnPState⟩

/-- A request changes the view as it changes the device. -/
theorem FdoMinor.apply_busView (m : FdoMinor) (ok : Bool) (d : FdoDeviceData) (f : FdoDevice) :
    (m.apply ok d).busView f = (d.busView f).apply m ok := by
  cases m with
  | startDevice => cases ok <;> rfl
  | cancelStopDevice =>
    by_cases h : d.devicePnPState = .stopPending <;>
      simp [FdoMinor.apply, FdoDeviceData.busView, BusView.apply, h]
  | cancelRemoveDevice =>
    by_cases h : d.devicePnPState = .removePending <;>
      simp [FdoMinor.apply, FdoDeviceData.busView, BusView.apply, h]
  | _ => rfl

namespace BusLife

/-! ## The calls -/

/-- `DEVICE_POWER_STATE`, as the bus uses it. -/
inductive DevicePowerState
  | unspecified
  | d0
  deriving DecidableEq

/-- **The calls of the routines for the bus device**, and their uses of its extension. -/
inductive FdoCall
  | ioCreateDevice
  | rtlZeroExtension
  | exInitializeFastMutex
  | ioCsqInitialize
  | ioInitializeRemoveLock
  | setDevicePowerState (d : DevicePowerState)
  | ioRegisterDeviceInterface
  | ioAttachDeviceToDeviceStack
  | ioGetDevicePropertyLength
  | exAllocateDeviceName
  | ioGetDeviceProperty
  | clearDeviceInitializing
  | exFreeDeviceName
  | nextLowerDriver
  | ioDetachDevice
  | ioDeleteDevice
  | ioAcquireRemoveLock
  | ioReleaseRemoveLock
  | ioReleaseRemoveLockAndWait
  | exAcquireFastMutex
  | exReleaseFastMutex
  | numPDOs
  | exAllocateRelations
  | busSendIrpSynchronously
  | ioSetDeviceInterfaceState (enable : Bool)
  | poSetPowerState (d : DevicePowerState)
  | devicePnPState
  | setNewPnpState (state : DevicePnpState)
  | restorePreviousPnpState
  | interfaceNameBuffer
  | exFreeInterfaceName
  | rtlZeroInterfaceName
  | ioCallDriver
  deriving DecidableEq

/-- What a call returns; a pointer, and an allocation, whether it is not NULL; and
`IoReleaseRemoveLockAndWait`, whether it does return. -/
abbrev FdoCall.Answer : FdoCall → Type
  | .ioCreateDevice | .ioCsqInitialize | .ioRegisterDeviceInterface => NTSTATUS
  | .ioGetDevicePropertyLength | .ioGetDeviceProperty => NTSTATUS
  | .busSendIrpSynchronously | .ioSetDeviceInterfaceState _ | .ioCallDriver => NTSTATUS
  | .ioAcquireRemoveLock => NTSTATUS
  | .ioAttachDeviceToDeviceStack | .exAllocateDeviceName | .exAllocateRelations => Bool
  | .nextLowerDriver | .interfaceNameBuffer | .ioReleaseRemoveLockAndWait => Bool
  | .numPDOs => ℕ
  | .devicePnPState => DevicePnpState
  | _ => Unit

/-- A routine for the bus device. -/
abbrev Routine := Script FdoCall FdoCall.Answer

/-- A single call. -/
@[simp] def call (e : FdoCall) : Routine e.Answer := .perform e

/-! ## The routines -/

/-- `Bus_AddDevice` from the label `End`; `deviceObject` and `deviceName` say that the variable is
not NULL. -/
def addDeviceEnd (status : NTSTATUS) (deviceObject deviceName : Bool) : Routine NTSTATUS := do
  if deviceName then call .exFreeDeviceName
  if !ntSuccess status && deviceObject then
    let attached : Bool ← call .nextLowerDriver
    if attached then call .ioDetachDevice
    call .ioDeleteDevice
  return status

/-- `Bus_AddDevice`: the name of the PDO is retrieved, `#if DBG`. -/
def retrieveDeviceName : Routine NTSTATUS := do
  let status : NTSTATUS ← call .ioGetDevicePropertyLength
  if status ≠ statusBufferTooSmall then addDeviceEnd status true false
  else
    let allocated : Bool ← call .exAllocateDeviceName
    if !allocated then addDeviceEnd statusInsufficientResources true false
    else
      let status : NTSTATUS ← call .ioGetDeviceProperty
      if !ntSuccess status then addDeviceEnd status true true
      else
        call .clearDeviceInitializing
        addDeviceEnd status true true

/-- **`Bus_AddDevice`**; `dbg` is `DBG`. -/
def busAddDevice (dbg : Bool) : Routine NTSTATUS := do
  let status : NTSTATUS ← call .ioCreateDevice
  if !ntSuccess status then addDeviceEnd status false false
  else
    call .rtlZeroExtension
    call .exInitializeFastMutex
    let status : NTSTATUS ← call .ioCsqInitialize
    if !ntSuccess status then addDeviceEnd status true false
    else
      call (.setDevicePowerState .unspecified)
      call .ioInitializeRemoveLock
      let status : NTSTATUS ← call .ioRegisterDeviceInterface
      if !ntSuccess status then addDeviceEnd status true false
      else
        let attached : Bool ← call .ioAttachDeviceToDeviceStack
        if !attached then addDeviceEnd statusNoSuchDevice true false
        else if dbg then retrieveDeviceName
        else
          call .clearDeviceInitializing
          addDeviceEnd status true false

/-- `Bus_StartFdo`. -/
def busStartFdo : Routine NTSTATUS := do
  let status : NTSTATUS ← call (.ioSetDeviceInterfaceState true)
  if !ntSuccess status then return status
  else
    call (.setDevicePowerState .d0)
    call (.poSetPowerState .d0)
    call (.setNewPnpState .started)
    return status

/-- `Bus_RemoveFdo`. -/
def busRemoveFdo : Routine Unit := do
  let buffer : Bool ← call .interfaceNameBuffer
  if buffer then
    let _ ← call (.ioSetDeviceInterfaceState false)
    call .exFreeInterfaceName
    call .rtlZeroInterfaceName

/-- `if (state == DeviceData->DevicePnPState) RESTORE_PREVIOUS_PNP_STATE(DeviceData)`. -/
def restoreFrom (state : DevicePnpState) : Routine Unit := do
  let current : DevicePnpState ← call .devicePnPState
  if current = state then call .restorePreviousPnpState

/-- The end of `Bus_FDO_PnP`. -/
def passDown : Routine Unit := do
  let _ ← call .ioCallDriver
  call .ioReleaseRemoveLock

/-- The loop over the PDOs, under the mutex. -/
def underMutex : Routine Unit := do
  call .exAcquireFastMutex
  call .exReleaseFastMutex

/-- The relations are allocated, under the mutex: whether the IRP is passed down. -/
def allocateRelations : Routine Bool := do
  let allocated : Bool ← call .exAllocateRelations
  call .exReleaseFastMutex
  return allocated

/-- `Bus_FDO_PnP` (IRP_MN_QUERY_DEVICE_RELATIONS), which has nothing to add to older relations when
there are no PDOs. -/
def queryRelations : Option (List DeviceId) → Routine Bool
  | none => do
    call .exAcquireFastMutex
    allocateRelations
  | some _ => do
    call .exAcquireFastMutex
    let numPDOs : ℕ ← call .numPDOs
    if numPDOs = 0 then
      call .exReleaseFastMutex
      return true
    else allocateRelations

/-- `Bus_FDO_PnP` once it has the remove lock. -/
def serveMinor : FdoMinor → Routine Unit
  | .startDevice => do
    let status : NTSTATUS ← call .busSendIrpSynchronously
    if ntSuccess status then
      let _ ← busStartFdo
    call .ioReleaseRemoveLock
  | .queryStopDevice => do
    call (.setNewPnpState .stopPending)
    passDown
  | .cancelStopDevice => do
    restoreFrom .stopPending
    passDown
  | .stopDevice => do
    call (.setNewPnpState .stopped)
    passDown
  | .queryRemoveDevice => do
    call (.setNewPnpState .removePending)
    passDown
  | .cancelRemoveDevice => do
    restoreFrom .removePending
    passDown
  | .surpriseRemoval => do
    call (.setNewPnpState .surpriseRemovePending)
    busRemoveFdo
    underMutex
    passDown
  | .removeDevice => do
    let state : DevicePnpState ← call .devicePnPState
    if state ≠ .surpriseRemovePending then busRemoveFdo
    call (.setNewPnpState .deleted)
    underMutex
    let returns : Bool ← call .ioReleaseRemoveLockAndWait
    if returns then
      let _ ← call .ioCallDriver
      call .ioDetachDevice
      call .ioDeleteDevice
  | .queryDeviceRelations old => do
    let passes : Bool ← queryRelations old
    if passes then passDown
  | .other => passDown

/-- **`Bus_FDO_PnP`**: what it does to the bus device, the disks and the IRP aside. -/
def busFdoPnP (m : FdoMinor) : Routine Unit := do
  let status : NTSTATUS ← call .ioAcquireRemoveLock
  if ntSuccess status then serveMinor m

/-- The PnP requests, one after the other; REMOVE_DEVICE is the last. -/
def serve : List FdoMinor → Routine Unit
  | [] => return
  | .removeDevice :: _ => busFdoPnP .removeDevice
  | m :: ms => do
    busFdoPnP m
    serve ms

/-- **The life of the bus device**: `Bus_AddDevice`, and the PnP requests if it succeeds. -/
def life (dbg : Bool) (ms : List FdoMinor) : Routine NTSTATUS := do
  let status ← busAddDevice dbg
  if ntSuccess status then serve ms
  return status

/-! ## What is owned -/

/-- **The bus device**: what is held, and the extension, which exists with the device object. -/
structure BusDevice where
  deviceObject : Bool := false
  attached : Bool := false
  interface : Bool := false
  deviceName : Bool := false
  removeLock : ℤ := 0
  removed : Bool := false
  mutex : Bool := false
  reportedPower : Option DevicePowerState := none
  nextLowerDriver : Bool := false
  interfaceName : Bool := false
  fdo : FdoDeviceData := {}
  devicePowerState : DevicePowerState := .unspecified
  initializing : Bool := true

namespace BusDevice

/-- A use of the extension, which is there as long as the device object is. -/
@[simp] def touch (u : BusDevice) (u' : Option BusDevice) : Option BusDevice :=
  if u.deviceObject then u' else none

/-- **The contract**: what is given back or used is held, and the extension is not touched once the
device object is deleted. -/
@[simp] def step (u : BusDevice) : (e : FdoCall) → e.Answer → Option BusDevice
  | .ioCreateDevice, status =>
    if u.deviceObject then none
    else some { u with deviceObject := ntSuccess status, initializing := true }
  | .rtlZeroExtension, _ => u.touch <| some { u with
      nextLowerDriver := false
      interfaceName := false
      fdo := { u.fdo with devicePnPState := .notStarted, previousPnPState := .notStarted } }
  | .exInitializeFastMutex, _ => u.touch <| some { u with mutex := false }
  | .ioCsqInitialize, _ | .numPDOs, _ | .exAllocateRelations, _ => u.touch u
  | .ioInitializeRemoveLock, _ => u.touch <| some { u with removeLock := 0, removed := false }
  | .setDevicePowerState d, _ => u.touch <| some { u with devicePowerState := d }
  | .ioRegisterDeviceInterface, status =>
    u.touch <| if u.interface then none
      else some { u with interface := ntSuccess status, interfaceName := ntSuccess status }
  | .ioAttachDeviceToDeviceStack, attached =>
    u.touch <| if u.attached then none else some { u with attached, nextLowerDriver := attached }
  | .ioGetDevicePropertyLength, _ | .ioGetDeviceProperty, _ => some u
  | .exAllocateDeviceName, allocated =>
    if u.deviceName then none else some { u with deviceName := allocated }
  | .clearDeviceInitializing, _ => u.touch <| some { u with initializing := false }
  | .exFreeDeviceName, _ => if u.deviceName then some { u with deviceName := false } else none
  | .nextLowerDriver, _ | .devicePnPState, _ | .interfaceNameBuffer, _ => u.touch u
  | .ioDetachDevice, _ => u.touch <| if u.attached then some { u with attached := false } else none
  | .ioDeleteDevice, _ =>
    u.touch <| if u.attached then none else some { u with deviceObject := false }
  | .ioAcquireRemoveLock, status =>
    u.touch <| if ntSuccess status then some { u with removeLock := u.removeLock + 1 } else u
  | .ioReleaseRemoveLock, _ =>
    u.touch <| if 0 < u.removeLock then some { u with removeLock := u.removeLock - 1 } else none
  | .ioReleaseRemoveLockAndWait, _ =>
    u.touch <| if 0 < u.removeLock then
      some { u with removeLock := u.removeLock - 1, removed := true } else none
  | .exAcquireFastMutex, _ => u.touch <| if u.mutex then none else some { u with mutex := true }
  | .exReleaseFastMutex, _ => u.touch <| if u.mutex then some { u with mutex := false } else none
  | .busSendIrpSynchronously, _ | .ioCallDriver, _ => u.touch <| if u.attached then u else none
  | .ioSetDeviceInterfaceState _, _ =>
    u.touch <| if u.interface ∧ u.interfaceName then u else none
  | .poSetPowerState d, _ => u.touch <| some { u with reportedPower := some d }
  | .setNewPnpState state, _ => u.touch <| some { u with fdo := Bus.setNewFdoState u.fdo state }
  | .restorePreviousPnpState, _ =>
    u.touch <| some { u with fdo := { u.fdo with devicePnPState := u.fdo.previousPnPState } }
  | .exFreeInterfaceName, _ =>
    u.touch <| if u.interface ∧ u.interfaceName then some { u with interface := false } else none
  | .rtlZeroInterfaceName, _ => u.touch <| some { u with interfaceName := false }

/-- The bus device, as the dispatch routines have it. -/
def device (u : BusDevice) : FdoDevice := ⟨u.removeLock, u.removed, !u.deviceObject⟩

/-- The view of the bus device. -/
def view (u : BusDevice) : BusView := u.fdo.busView u.device

/-- What is read from the extension is what was written to it; the remove lock can be acquired until
REMOVE_DEVICE gives it up, and the wait in that is over when nobody else holds it. -/
def reads (u : BusDevice) : (e : FdoCall) → Option e.Answer
  | .ioAcquireRemoveLock => some (if u.removed then statusDeletePending else statusSuccess)
  | .ioReleaseRemoveLockAndWait => some (decide (u.removeLock = 1))
  | .nextLowerDriver => some u.nextLowerDriver
  | .interfaceNameBuffer => some u.interfaceName
  | .devicePnPState => some u.fdo.devicePnPState
  | _ => none

/-- **The protocol of the bus device.** -/
def protocol : Protocol FdoCall FdoCall.Answer BusDevice := .ofReads reads step

end BusDevice

/-- **A call of `Bus_AddDevice` fails** that it makes when the device interface is registered, or
the relations cannot be allocated. -/
@[simp] def fails : Calls FdoCall FdoCall.Answer → Bool
  | [] => false
  | ⟨.ioAttachDeviceToDeviceStack, attached⟩ :: tr => !attached || fails tr
  | ⟨.ioGetDevicePropertyLength, status⟩ :: tr => status ≠ statusBufferTooSmall || fails tr
  | ⟨.exAllocateDeviceName, allocated⟩ :: tr => !allocated || fails tr
  | ⟨.ioGetDeviceProperty, status⟩ :: tr => !ntSuccess status || fails tr
  | ⟨.exAllocateRelations, allocated⟩ :: tr => !allocated || fails tr
  | _ :: tr => fails tr

/-- **Nothing is held.** -/
structure Released (u : BusDevice) : Prop where
  deviceObject : u.deviceObject = false
  attached : u.attached = false
  interface : u.interface = false
  deviceName : u.deviceName = false
  removeLock : u.removeLock = 0
  mutex : u.mutex = false

/-- **The device is there**, and nobody holds its locks.  The extension says whether the interface
is registered, as it is unless the device was surprise-removed. -/
structure InService (u : BusDevice) : Prop where
  deviceObject : u.deviceObject = true
  attached : u.attached = true
  deviceName : u.deviceName = false
  removeLock : u.removeLock = 0
  removed : u.removed = false
  mutex : u.mutex = false
  interfaceName : u.interfaceName = u.interface
  surprise : u.fdo.devicePnPState = .surpriseRemovePending → u.interface = false
  previous : u.fdo.previousPnPState = .surpriseRemovePending → u.interface = false
  power : u.devicePowerState = .unspecified ∨ u.reportedPower = some u.devicePowerState

/-! ## The routines, one by one -/

section

variable {α : Type} {u : BusDevice}
  {φ : Calls FdoCall FdoCall.Answer → Option (α × BusDevice) → Prop}

/-- A call that may return anything. -/
@[simp] theorem all_call {e : FdoCall} {k : e.Answer → Routine α}
    (h₁ : e ≠ .nextLowerDriver) (h₂ : e ≠ .interfaceNameBuffer) (h₃ : e ≠ .devicePnPState)
    (h₄ : e ≠ .ioAcquireRemoveLock) (h₅ : e ≠ .ioReleaseRemoveLockAndWait) :
    BusDevice.protocol.All (.call e k) φ u ↔ ∀ r, (u.step e r).elim (φ [⟨e, r⟩] none) fun u' =>
      BusDevice.protocol.All (k r) (fun tr o => φ (⟨e, r⟩ :: tr) o) u' :=
  Protocol.all_call (by
    cases e <;> first
      | exact absurd rfl h₁
      | exact absurd rfl h₂
      | exact absurd rfl h₃
      | exact absurd rfl h₄
      | exact absurd rfl h₅
      | rfl)

/-- A read of the extension. -/
@[simp] theorem all_nextLowerDriver {k : Bool → Routine α} :
    BusDevice.protocol.All (.call .nextLowerDriver k) φ u ↔
      (u.step .nextLowerDriver u.nextLowerDriver).elim
        (φ [⟨.nextLowerDriver, u.nextLowerDriver⟩] none)
        fun u' => BusDevice.protocol.All (k u.nextLowerDriver)
          (fun tr o => φ (⟨.nextLowerDriver, u.nextLowerDriver⟩ :: tr) o) u' :=
  Protocol.all_read rfl

@[simp] theorem all_interfaceNameBuffer {k : Bool → Routine α} :
    BusDevice.protocol.All (.call .interfaceNameBuffer k) φ u ↔
      (u.step .interfaceNameBuffer u.interfaceName).elim
        (φ [⟨.interfaceNameBuffer, u.interfaceName⟩] none)
        fun u' => BusDevice.protocol.All (k u.interfaceName)
          (fun tr o => φ (⟨.interfaceNameBuffer, u.interfaceName⟩ :: tr) o) u' :=
  Protocol.all_read rfl

@[simp] theorem all_devicePnPState {k : DevicePnpState → Routine α} :
    BusDevice.protocol.All (.call .devicePnPState k) φ u ↔
      (u.step .devicePnPState u.fdo.devicePnPState).elim
        (φ [⟨.devicePnPState, u.fdo.devicePnPState⟩] none)
        fun u' => BusDevice.protocol.All (k u.fdo.devicePnPState)
          (fun tr o => φ (⟨.devicePnPState, u.fdo.devicePnPState⟩ :: tr) o) u' :=
  Protocol.all_read rfl

@[simp] theorem all_ioAcquireRemoveLock {k : NTSTATUS → Routine α} :
    BusDevice.protocol.All (.call .ioAcquireRemoveLock k) φ u ↔
      let status := if u.removed then statusDeletePending else statusSuccess
      (u.step .ioAcquireRemoveLock status).elim (φ [⟨.ioAcquireRemoveLock, status⟩] none)
        fun u' => BusDevice.protocol.All (k status)
          (fun tr o => φ (⟨.ioAcquireRemoveLock, status⟩ :: tr) o) u' :=
  Protocol.all_read rfl

@[simp] theorem all_ioReleaseRemoveLockAndWait {k : Bool → Routine α} :
    BusDevice.protocol.All (.call .ioReleaseRemoveLockAndWait k) φ u ↔
      let returns := decide (u.removeLock = 1)
      (u.step .ioReleaseRemoveLockAndWait returns).elim
        (φ [⟨.ioReleaseRemoveLockAndWait, returns⟩] none)
        fun u' => BusDevice.protocol.All (k returns)
          (fun tr o => φ (⟨.ioReleaseRemoveLockAndWait, returns⟩ :: tr) o) u' :=
  Protocol.all_read rfl

end

variable {u : BusDevice}

/-- What `Bus_AddDevice` leaves: the device or nothing, or one that is still initializing or the
interface alone. -/
def Added (bad : Bool) (o : Option (NTSTATUS × BusDevice)) : Prop :=
  ∃ status u, o = some (status, u) ∧
    if ntSuccess status then InService u ∧ u.interface = true ∧ u.initializing = bad
    else (Released u ↔ bad = false)

@[simp] theorem added_some {bad : Bool} {status : NTSTATUS} : Added bad (some (status, u)) ↔
    if ntSuccess status then InService u ∧ u.interface = true ∧ u.initializing = bad
    else (Released u ↔ bad = false) :=
  ⟨fun ⟨_, _, heq, h⟩ => by cases heq; exact h, fun h => ⟨_, _, rfl, h⟩⟩

section

variable {interface lower initializing : Bool} {reported : Option DevicePowerState}
variable {power : DevicePowerState} {fdo : FdoDeviceData}

/-- A device in service, field by field. -/
theorem inService_of (hsurprise : fdo.devicePnPState = .surpriseRemovePending → interface = false)
    (hprevious : fdo.previousPnPState = .surpriseRemovePending → interface = false)
    (hpower : power = .unspecified ∨ reported = some power) :
    InService ⟨true, true, interface, false, 0, false, false, reported, lower, interface, fdo, power,
      initializing⟩ :=
  ⟨rfl, rfl, rfl, rfl, rfl, rfl, rfl, hsurprise, hprevious, hpower⟩

end

/-- The device while `Bus_AddDevice` is at work on it. -/
def adding (attached interface deviceName initializing : Bool) : BusDevice where
  deviceObject := true
  attached := attached
  interface := interface
  deviceName := deviceName
  nextLowerDriver := attached
  interfaceName := interface
  fdo := { devicePnPState := .notStarted }
  initializing := initializing

/-- **`Bus_AddDevice` from `End`**: a failed one gives back all but the device interface. -/
theorem addDeviceEnd_added (attached interface deviceName initializing : Bool) {status : NTSTATUS}
    {φ : Calls FdoCall FdoCall.Answer → Option (NTSTATUS × BusDevice) → Prop}
    (hattached : ntSuccess status = true → attached = true)
    (hφ : ∀ tr u, fails tr = false →
      (if ntSuccess status then InService u ∧ u.interface = interface ∧ u.initializing = initializing
        else (Released u ↔ interface = false)) → φ tr (some (status, u))) :
    BusDevice.protocol.All (addDeviceEnd status true deviceName) φ
      (adding attached interface deviceName initializing) := by
  have hreleased : Released { adding attached interface deviceName initializing with
      deviceObject := false, attached := false, deviceName := false } ↔ interface = false :=
    ⟨fun h => h.interface, fun h => ⟨rfl, rfl, h, rfl, rfl, rfl⟩⟩
  suffices hend : BusDevice.protocol.All (addDeviceEnd status true deviceName) (fun tr o =>
      ∃ u, o = some (status, u) ∧ fails tr = false ∧
        if ntSuccess status then InService u ∧ u.interface = interface ∧ u.initializing = initializing
        else (Released u ↔ interface = false))
      (adding attached interface deviceName initializing) from
    hend.mono fun tr o ⟨u, ho, hf, hu⟩ => ho ▸ hφ tr u hf hu
  unfold addDeviceEnd
  unfold adding at *
  cases hs : ntSuccess status
  · cases deviceName <;> cases attached <;> simp_all
  · obtain rfl := hattached hs
    cases deviceName <;> simp_all
    all_goals exact inService_of (fun h => by cases h) (fun h => by cases h) (.inl rfl)

/-- The name of the PDO is retrieved without a failure, or the device interface stays behind. -/
theorem retrieveDeviceName_added : BusDevice.protocol.All retrieveDeviceName
    (fun tr o => Added (fails tr) o) (adding true true false true) := by
  have hresources : ntSuccess statusInsufficientResources = false := rfl
  unfold retrieveDeviceName adding
  simp
  intro length
  by_cases hl : length = statusBufferTooSmall
  · simp [hl]
    refine ⟨addDeviceEnd_added true true false true (fun _ => rfl) fun tr u _ hu => ?_,
      fun property => ?_⟩
    · simpa [hresources] using hu
    cases hp : ntSuccess property
    · simp
      refine addDeviceEnd_added true true true true (fun _ => rfl) fun tr u _ hu => ?_
      simpa [hp] using hu
    · simp
      refine addDeviceEnd_added true true true false (fun _ => rfl) fun tr u hf hu => ?_
      simpa [hp, hf] using hu
  · simp [hl]
    refine addDeviceEnd_added true true false true (fun _ => rfl) fun tr u _ hu => ?_
    simpa using hu

/-- **`Bus_AddDevice` leaves the device or nothing**, unless a call fails after the registration. -/
theorem addDevice_added (dbg : Bool) : BusDevice.protocol.All (busAddDevice dbg)
    (fun tr o => Added (fails tr) o) {} := by
  have hgone : ntSuccess statusNoSuchDevice = false := rfl
  unfold busAddDevice
  simp
  intro created
  cases hc : ntSuccess created
  · simp [addDeviceEnd, hc]
    exact ⟨rfl, rfl, rfl, rfl, rfl, rfl⟩
  simp
  intro queue
  cases hq : ntSuccess queue
  · refine addDeviceEnd_added false false false true (by simp [hq]) fun tr u hf hu => ?_
    simpa [hq, hf] using hu
  simp
  intro registered
  cases hr : ntSuccess registered
  · refine addDeviceEnd_added false false false true (by simp [hr]) fun tr u hf hu => ?_
    simpa [hr, hf] using hu
  simp
  refine ⟨?_, ?_⟩
  · refine addDeviceEnd_added false true false true (by simp [hgone]) fun tr u _ hu => ?_
    simpa [hgone] using hu
  cases dbg
  · refine addDeviceEnd_added true true false false (fun _ => rfl) fun tr u hf hu => ?_
    simpa [hr, hf] using hu
  · exact retrieveDeviceName_added

/-! ## The requests -/

/-- **The device is there, and its remove lock was left held** `n` times. -/
def Serving (n : ℕ) (u : BusDevice) : Prop :=
  u.removeLock = n ∧ InService { u with removeLock := 0 }

/-- A device whose remove lock nobody holds is in service. -/
theorem serving_zero : Serving 0 u ↔ InService u := by
  constructor
  · rintro ⟨hlock, hu⟩
    exact ⟨hu.deviceObject, hu.attached, hu.deviceName, hlock, hu.removed, hu.mutex, hu.interfaceName,
      hu.surprise, hu.previous, hu.power⟩
  · intro hu
    exact ⟨hu.removeLock, hu.deviceObject, hu.attached, hu.deviceName, rfl, hu.removed, hu.mutex,
      hu.interfaceName, hu.surprise, hu.previous, hu.power⟩

theorem Serving.inService_iff {n : ℕ} (h : Serving n u) : InService u ↔ n = 0 := by
  constructor
  · exact fun hu => Int.natCast_eq_zero.mp (h.1.symm.trans hu.removeLock)
  · rintro rfl
    exact serving_zero.mp h

/-- What a request leaves of a device, with the remove lock left held `n` times: with the lock held
the device is not removed. -/
def Left (n : ℕ) (m : FdoMinor) (u u' : BusDevice) : Prop := match m with
  | .removeDevice => Released u' ↔ n = 0
  | .surpriseRemoval => Serving n u'
  | _ => Serving n u' ∧ u'.interface = u.interface

/-- **A request is served**: one that fails leaves the remove lock held once more. -/
def Served (n : ℕ) (m : FdoMinor) (u : BusDevice) (tr : Calls FdoCall FdoCall.Answer)
    (o : Option (Unit × BusDevice)) : Prop :=
  ∃ u' n', o = some ((), u') ∧ u'.initializing = u.initializing ∧ u.view.Leaves m u'.view ∧
    (n' = 0 ↔ n = 0 ∧ fails tr = false) ∧ Left n' m u u'

/-- A request that leaves the device alone, but for its PnP state. -/
theorem view_leaves {m : FdoMinor} {u' : BusDevice} (ok : Bool) (hm : m ≠ .removeDevice)
    (hdevice : u'.device = u.device) (hfdo : u'.fdo = m.apply ok u.fdo) :
    u.view.Leaves m u'.view := by
  have hview : u'.view = u.view.apply m ok := by
    rw [BusDevice.view, hdevice, hfdo, FdoMinor.apply_busView]
    rfl
  exact hview ▸ .passed ok hm

/-- A request that leaves the lock as it was. -/
theorem served_of {n : ℕ} {tr : Calls FdoCall FdoCall.Answer} {m : FdoMinor} {u' : BusDevice}
    (hf : fails tr = false) (hinit : u'.initializing = u.initializing)
    (hv : u.view.Leaves m u'.view) (h : Left n m u u') : Served n m u tr (some ((), u')) :=
  ⟨u', n, rfl, hinit, hv, by simp [hf], h⟩

/-- A request that leaves the lock held once more. -/
theorem served_of_failed {n : ℕ} {tr : Calls FdoCall FdoCall.Answer} {m : FdoMinor} {u' : BusDevice}
    (hf : fails tr = true) (hinit : u'.initializing = u.initializing)
    (hv : u.view.Leaves m u'.view) (h : Left (n + 1) m u u') : Served n m u tr (some ((), u')) :=
  ⟨u', n + 1, rfl, hinit, hv, by simp [hf], h⟩

/-- **A request is served**, START_DEVICE as long as the device has its interface. -/
theorem fdoPnP_served {n : ℕ} (m : FdoMinor) (h : Serving n u)
    (hstart : m = .startDevice → u.interface = true) :
    BusDevice.protocol.All (busFdoPnP m) (Served n m u) u := by
  obtain ⟨object, attached, interface, name, lock, removed, mutex, reported, lower, iname, fdo, power,
    init⟩ := u
  obtain ⟨hlock, hobject, hattached, hname, -, hremoved, hmutex, hiname, hsurprise, hprevious,
    hpower⟩ := h
  dsimp only at *
  subst hlock hobject hattached hname hremoved hmutex hiname
  have hsuccess : ntSuccess statusSuccess = true := rfl
  have hpos : (0 : ℤ) < n + 1 := by omega
  have hkept : InService ⟨true, true, iname, false, 0, false, false, reported, lower, iname, fdo,
      power, init⟩ := inService_of hsurprise hprevious hpower
  cases m with
  | startDevice =>
    obtain rfl : iname = true := hstart rfl
    simp [busFdoPnP, serveMinor, busStartFdo, hsuccess, hpos]
    intro lowerStatus
    split
    · intro enabled
      cases he : ntSuccess enabled
      · simp [hpos]
        exact fun _ => served_of rfl rfl (view_leaves false (by simp) rfl rfl) ⟨⟨rfl, hkept⟩, rfl⟩
      · simp [hpos]
        exact fun _ => served_of rfl rfl (view_leaves true (by simp) rfl rfl)
          ⟨⟨rfl, inService_of (fun h => by cases h) hsurprise (.inr rfl)⟩, rfl⟩
    · exact fun _ => served_of rfl rfl (view_leaves false (by simp) rfl rfl) ⟨⟨rfl, hkept⟩, rfl⟩
  | queryStopDevice | stopDevice | queryRemoveDevice =>
    simp [busFdoPnP, serveMinor, passDown, hsuccess, hpos]
    exact fun _ _ _ => served_of rfl rfl (view_leaves true (by simp) rfl rfl)
      ⟨⟨rfl, inService_of (fun h => by cases h) hsurprise hpower⟩, rfl⟩
  | cancelStopDevice =>
    by_cases hs : fdo.devicePnPState = .stopPending
    · simp [busFdoPnP, serveMinor, passDown, restoreFrom, hs, hsuccess, hpos]
      exact fun _ _ _ => served_of rfl rfl
        (view_leaves true (by simp) rfl (by simp [FdoMinor.apply, hs]))
        ⟨⟨rfl, inService_of hprevious hprevious hpower⟩, rfl⟩
    · simp [busFdoPnP, serveMinor, passDown, restoreFrom, hs, hsuccess, hpos]
      exact fun _ _ => served_of rfl rfl
        (view_leaves true (by simp) rfl (by simp [FdoMinor.apply, hs])) ⟨⟨rfl, hkept⟩, rfl⟩
  | cancelRemoveDevice =>
    by_cases hs : fdo.devicePnPState = .removePending
    · simp [busFdoPnP, serveMinor, passDown, restoreFrom, hs, hsuccess, hpos]
      exact fun _ _ _ => served_of rfl rfl
        (view_leaves true (by simp) rfl (by simp [FdoMinor.apply, hs]))
        ⟨⟨rfl, inService_of hprevious hprevious hpower⟩, rfl⟩
    · simp [busFdoPnP, serveMinor, passDown, restoreFrom, hs, hsuccess, hpos]
      exact fun _ _ => served_of rfl rfl
        (view_leaves true (by simp) rfl (by simp [FdoMinor.apply, hs])) ⟨⟨rfl, hkept⟩, rfl⟩
  | surpriseRemoval =>
    cases iname <;> simp [busFdoPnP, serveMinor, passDown, busRemoveFdo, underMutex, hsuccess, hpos]
    all_goals intros
    all_goals
      exact served_of rfl rfl (view_leaves true (by simp) rfl rfl)
        ⟨rfl, inService_of (fun _ => rfl) (fun _ => rfl) hpower⟩
  | removeDevice =>
    have hs : iname = true → fdo.devicePnPState ≠ .surpriseRemovePending := fun hi hs => by
      cases hi.symm.trans (hsurprise hs)
    rcases Nat.eq_zero_or_pos n with rfl | hn
    · cases iname <;> simp [busFdoPnP, serveMinor, busRemoveFdo, underMutex, hsuccess, hs]
      case' false => split
      all_goals intros
      all_goals
        exact served_of rfl rfl (.removed rfl)
          ⟨fun _ => rfl, fun _ => ⟨rfl, rfl, rfl, rfl, rfl, rfl⟩⟩
    · have hn := Nat.ne_of_gt hn
      have hlock : (n : ℤ) ≠ 0 := Int.natCast_ne_zero.mpr hn
      cases iname <;> simp [busFdoPnP, serveMinor, busRemoveFdo, underMutex, hsuccess, hpos, hn, hs]
      case' false => split
      all_goals intros
      all_goals
        exact served_of rfl rfl (.waits hlock)
          ⟨fun h => (by cases h.deviceObject), fun h => absurd h hn⟩
  | queryDeviceRelations old =>
    have hfailed : Serving (n + 1) { adding true iname false init with
        removeLock := n + 1, reportedPower := reported, nextLowerDriver := lower, fdo,
        devicePowerState := power } :=
      ⟨rfl, hkept⟩
    cases old with
    | none =>
      simp [busFdoPnP, serveMinor, queryRelations, allocateRelations, passDown, hsuccess, hpos]
      exact fun _ => ⟨fun _ => served_of_failed rfl rfl (.failed _) ⟨hfailed, rfl⟩,
        fun _ _ _ => served_of rfl rfl (view_leaves true (by simp) rfl rfl) ⟨⟨rfl, hkept⟩, rfl⟩⟩
    | some old =>
      simp [busFdoPnP, serveMinor, queryRelations, allocateRelations, passDown, hsuccess]
      intro _ numPDOs
      by_cases hnone : numPDOs = 0
      · simp [hnone, hpos]
        exact fun _ _ _ => served_of rfl rfl (view_leaves true (by simp) rfl rfl)
          ⟨⟨rfl, hkept⟩, rfl⟩
      · simp [hnone, hpos]
        exact ⟨fun _ => served_of_failed rfl rfl (.failed _) ⟨hfailed, rfl⟩,
          fun _ _ _ => served_of rfl rfl (view_leaves true (by simp) rfl rfl) ⟨⟨rfl, hkept⟩, rfl⟩⟩
  | other =>
    simp [busFdoPnP, serveMinor, passDown, hsuccess, hpos]
    exact fun _ _ => served_of rfl rfl (view_leaves true (by simp) rfl rfl) ⟨⟨rfl, hkept⟩, rfl⟩

/-! ## The whole life -/

/-- The calls that a request makes are not those of `Bus_AddDevice`. -/
theorem fails_append (tr tr' : Calls FdoCall FdoCall.Answer) :
    fails (tr ++ tr') = (fails tr || fails tr') := by
  induction tr using fails.induct with
  | case1 => simp
  | _ => simp_all [Bool.or_assoc]

/-- PnP requests as they come: none starts a device that was surprise-removed. -/
def InOrder (ms : List FdoMinor) : Prop :=
  ms.Pairwise fun m m' => m = .surpriseRemoval → m' ≠ .startDevice

/-- What the requests leave of a device whose remove lock was left held `n` times. -/
def Ended (n : ℕ) (ms : List FdoMinor) (u : BusDevice) (tr : Calls FdoCall FdoCall.Answer)
    (o : Option (Unit × BusDevice)) : Prop :=
  ∃ u' n', o = some ((), u') ∧ u'.initializing = u.initializing ∧
    (n' = 0 ↔ n = 0 ∧ fails tr = false) ∧
    (.removeDevice ∈ ms → (Released u' ↔ n' = 0)) ∧ (.removeDevice ∉ ms → Serving n' u')

/-- The first of the requests, if it is not the last. -/
theorem serve_cons {m : FdoMinor} (hm : m ≠ .removeDevice) (ms : List FdoMinor) :
    serve (m :: ms) = busFdoPnP m >>= fun _ => serve ms := by
  cases m <;> first
    | exact absurd rfl hm
    | rfl

/-- The device may still be started by the requests that follow. -/
theorem Left.serving {n : ℕ} {m : FdoMinor} {ms : List FdoMinor} {u' : BusDevice}
    (h : Left n m u u') (hin : InOrder (m :: ms))
    (hinterface : .startDevice ∈ m :: ms → u.interface = true) (hm : m ≠ .removeDevice) :
    Serving n u' ∧ (.startDevice ∈ ms → u'.interface = true) := by
  cases m with
  | removeDevice => exact absurd rfl hm
  | surpriseRemoval =>
    refine ⟨h, fun hstart => ?_⟩
    exact absurd rfl ((List.pairwise_cons.mp hin).1 _ hstart rfl)
  | _ => exact ⟨h.1, fun hstart => h.2.trans (hinterface (List.mem_cons_of_mem _ hstart))⟩

/-- **The requests are served**, one after the other. -/
theorem serve_ended {n : ℕ} (ms : List FdoMinor) (h : Serving n u) (hin : InOrder ms)
    (hinterface : .startDevice ∈ ms → u.interface = true) :
    BusDevice.protocol.All (serve ms) (Ended n ms u) u := by
  induction ms generalizing n u with
  | nil => exact ⟨u, n, rfl, rfl, by simp, by simp, fun _ => h⟩
  | cons m ms ih =>
    have hfirst := fdoPnP_served m h fun hm => hinterface (hm ▸ List.mem_cons_self)
    by_cases hm : m = .removeDevice
    · subst hm
      refine hfirst.mono fun tr o ⟨u', n', ho, hinit, _, hn, hleft⟩ =>
    ⟨u', n', ho, hinit, hn, ?_, ?_⟩
      · exact fun _ => hleft
      · exact fun hnot => absurd List.mem_cons_self hnot
    · rw [serve_cons hm, Protocol.all_bind]
      refine hfirst.mono fun tr o ⟨u', n', ho, hinit, _, hn, hleft⟩ => ?_
      subst ho
      obtain ⟨h', hinterface'⟩ := hleft.serving hin hinterface hm
      have hrest := ih h' (List.pairwise_cons.mp hin).2 hinterface'
      refine hrest.mono fun tr' o' ⟨u'', n'', ho, hinit', hn', hend⟩ => ?_
      refine ⟨u'', n'', ho, hinit'.trans hinit, ?_, ?_⟩
      · rw [hn', hn, fails_append, Bool.or_eq_false_iff, and_assoc]
      · simpa [Ne.symm hm] using hend

/-- **What a life leaves**: the device, which was initialized, until it is removed; nothing after
that, or if `Bus_AddDevice` failed. -/
def LifeKept (ms : List FdoMinor) (o : Option (NTSTATUS × BusDevice)) : Prop :=
  ∃ status u, o = some (status, u) ∧ (ntSuccess status = true → u.initializing = false) ∧
    (ntSuccess status = true ∧ .removeDevice ∉ ms → InService u) ∧
    (ntSuccess status = false ∨ .removeDevice ∈ ms → Released u)

end BusLife

end VirtualDisk
