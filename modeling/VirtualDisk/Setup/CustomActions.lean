import Mathlib.Data.List.Induction
import Mathlib.Data.List.TakeWhile
import VirtualDisk.Driver.Identity

/-!
# Setup/CustomActions — installing and removing the driver

The custom actions of `ca.cpp`: `Install`, `Uninstall` and `CheckInstall`.  The installer takes the
`UINT` they return for an error code, in which zero is success.  `InstallDriver` returns such codes;
`UninstallDriver` returns a `BOOL`, that of the last device it removed, and `Uninstall` passes it on
as it is.

What the calls of the Setup API return is data of a run.
-/

namespace VirtualDisk

/-- `UINT`, as the installer takes it. -/
abbrev UINT := UInt32

def errorSuccess : UINT := 0
def errorInstallFailure : UINT := 1603

/-- A `BOOL` used as a `UINT`: `TRUE` is 1. -/
def uintOfBool (b : Bool) : UINT := if b then 1 else 0

/-! ## Strings -/

/-- The string that starts a buffer. -/
def cString (buffer : List Char) : List Char := buffer.takeWhile (· ≠ nul)

/-- `_strcmpi` finds no difference. -/
def strcmpi (a b : List Char) : Bool :=
  (cString a).map Char.toLower = (cString b).map Char.toLower

/-- A text without a terminator in it is one string. -/
theorem cString_of_notMem {string : List Char} (h : nul ∉ string) : cString string = string := by
  rw [cString, List.takeWhile_eq_self_iff]
  intro c hc
  rw [decide_eq_true_eq]
  rintro rfl
  exact h hc

/-- The first string of a multi-string. -/
theorem cString_multiSz {string : List Char} (strings : List (List Char)) (h : nul ∉ string) :
    cString (multiSz (string :: strings)) = string := by
  have hcons : multiSz (string :: strings) = string ++ nul :: multiSz strings := by
    simp [multiSz]
  have hself : ∀ c ∈ string, decide (c ≠ nul) = true :=
    List.takeWhile_eq_self_iff.mp (cString_of_notMem h)
  rw [cString, hcons, List.takeWhile_append_of_pos hself]
  simp

/-! ## The devices -/

/-- The calls of `SetupDiGetDeviceRegistryProperty` for the hardware ids of a device: those that
ask for a larger buffer, with the results of `LocalAlloc`, and what the last one fills in, or none
when it fails. -/
structure HardwareIdCalls where
  retries : List Bool
  result : Option (List Char)
  deriving DecidableEq

/-- `buffer` after the loop.  A new one holds zeros, and the first call has none to fill. -/
def HardwareIdCalls.buffer (calls : HardwareIdCalls) : Option (List Char) :=
  let buffer := calls.retries.foldl (fun _ allocated => if allocated then some [] else none) none
  match calls.result with
  | some content => buffer.map fun _ => content
  | none => buffer

/-- What the calls of `RemoveDevice` return. -/
structure RemoveCalls where
  getServiceName : Option (List Char)
  getDriverInfPath : Option (List Char)
  getDriverImagePath : List Char → Option (List Char)
  callClassInstaller : Bool
  deleteKey : List Char → Bool
  uninstallOemInf : List Char → Bool
  deleteFile : List Char → Bool

/-- A root-enumerated device. -/
structure RootDevice where
  hardwareId : HardwareIdCalls
  removal : RemoveCalls

/-- The name behind the last backslash of a path. -/
def fileName (path : List Char) : List Char := (path.reverse.takeWhile (· ≠ '\\')).reverse

/-- `RemoveDevice`. -/
def removeDevice (calls : RemoveCalls) : Bool :=
  match calls.getServiceName with
  | none => false
  | some serviceName =>
    let registryPath := "SYSTEM\\CurrentControlSet\\Services\\".toList ++ serviceName
    match calls.getDriverInfPath with
    | none => false
    | some infPath =>
      match calls.getDriverImagePath registryPath with
      | none => false
      | some imagePath =>
        if calls.callClassInstaller = false then false
        else if calls.deleteKey registryPath = false then false
        else if calls.uninstallOemInf (fileName infPath) = false then false
        else if calls.deleteFile imagePath = false then false
        else true

namespace RootDevice

/-- The device's hardware id is `DeviceId`: the comparison in `UninstallDriver` and
`IsDriverInstalled`. -/
def isDevice (deviceId : List Char) (device : RootDevice) : Bool :=
  match device.hardwareId.buffer with
  | none => false
  | some buffer => strcmpi buffer deviceId

/-- `RemoveDevice` on it returns `TRUE`. -/
def removed (device : RootDevice) : Bool := removeDevice device.removal

/-- **The first hardware id is compared with `DeviceId`**, without regard to case; the others of the
device are not looked at. -/
theorem isDevice_iff {device : RootDevice} {deviceId string : List Char}
    {strings : List (List Char)} (hstring : nul ∉ string) (hdeviceId : nul ∉ deviceId)
    (h : device.hardwareId.buffer = some (multiSz (string :: strings))) :
    isDevice deviceId device = true ↔
      string.map Char.toLower = deviceId.map Char.toLower := by
  rw [isDevice, h]
  show strcmpi (multiSz (string :: strings)) deviceId = true ↔ _
  rw [strcmpi, cString_multiSz strings hstring, cString_of_notMem hdeviceId, decide_eq_true_eq]

end RootDevice

/-! ## Searching the devices -/

section Search

variable {δ β : Type*} {isDevice : δ → Bool} {visit : δ → β}

/-- The loops over the enumerated devices: a result that each device found sets anew. -/
def searchDevices (isDevice : δ → Bool) (visit : δ → β) (devices : List δ) (bResult : β) : β :=
  devices.foldl (fun bResult device => if isDevice device then visit device else bResult) bResult

/-- **The last device found decides.** -/
theorem searchDevices_eq (devices : List δ) (bResult : β) :
    searchDevices isDevice visit devices bResult =
      ((devices.filter isDevice).getLast?).elim bResult visit := by
  induction devices using List.reverseRecOn with
  | nil => rfl
  | append_singleton devices device ih =>
    have hstep : searchDevices isDevice visit (devices ++ [device]) bResult =
        if isDevice device then visit device
        else searchDevices isDevice visit devices bResult := by
      rw [searchDevices, List.foldl_append]
      rfl
    rw [hstep, ih, List.filter_append]
    cases hd : isDevice device with
    | true => simp [hd]
    | false => simp [hd]

end Search

/-- `UninstallDriver`.  `devices` are those enumerated, or none when `SetupDiGetClassDevs` fails. -/
def uninstallDriver (deviceId : List Char) (devices : Option (List RootDevice)) : Bool :=
  match devices with
  | none => false
  | some devices => searchDevices (RootDevice.isDevice deviceId) RootDevice.removed devices false

/-- `IsDriverInstalled`. -/
def isDriverInstalled (deviceId : List Char) (devices : Option (List RootDevice)) : Bool :=
  match devices with
  | none => false
  | some devices => searchDevices (RootDevice.isDevice deviceId) (fun _ => true) devices false

/-- The devices that are the driver's. -/
def driverDevices (deviceId : List Char) (devices : Option (List RootDevice)) : List RootDevice :=
  (devices.getD []).filter (RootDevice.isDevice deviceId)

variable {deviceId : List Char} {devices : Option (List RootDevice)}

/-- **`UninstallDriver` returns what the last removal did**, and `FALSE` without one. -/
theorem uninstallDriver_eq :
    uninstallDriver deviceId devices =
      (driverDevices deviceId devices).getLast?.elim false RootDevice.removed := by
  cases devices with
  | none => rfl
  | some devices => exact searchDevices_eq devices false

theorem isDriverInstalled_iff :
    isDriverInstalled deviceId devices = true ↔ driverDevices deviceId devices ≠ [] := by
  cases devices with
  | none => simp [isDriverInstalled, driverDevices]
  | some devices =>
    rw [isDriverInstalled, searchDevices_eq, driverDevices, Option.getD_some]
    cases hl : (devices.filter (RootDevice.isDevice deviceId)).getLast? with
    | none => simpa using List.getLast?_eq_none_iff.mp hl
    | some device =>
      have hmem := List.mem_of_getLast? hl
      simpa using List.ne_nil_of_mem hmem

/-! ## Install -/

/-- `LINE_LEN`, the room for a hardware id. -/
def lineLen : ℕ := 256

/-- What the calls of `InstallDriver` return. -/
structure InstallCalls where
  getInfClass : List Char → Bool
  createDeviceInfoList : Bool
  createDeviceInfo : Bool
  setHardwareId : List Char → Bool
  registerDevice : Bool
  updateDriver : List Char → List Char → Bool

/-- `InstallDriver`. -/
def installDriver (calls : InstallCalls) (infFilePath devId : List Char) : UINT :=
  if calls.getInfClass infFilePath = false then errorInstallFailure
  else if calls.createDeviceInfoList = false then errorInstallFailure
  else if calls.createDeviceInfo = false then errorInstallFailure
  else if lineLen ≤ devId.length then errorInstallFailure
  else if calls.setHardwareId devId = false then errorInstallFailure
  else if calls.registerDevice = false then errorInstallFailure
  else if calls.updateDriver devId infFilePath = false then errorInstallFailure
  else errorSuccess

/-- `Install`: the property is the path of the INF file, a semicolon, and the device id. -/
def install (er : UINT) (customActionData : List Char) (calls : InstallCalls) : UINT :=
  if er ≠ errorSuccess then errorInstallFailure
  else if ';' ∉ customActionData then errorInstallFailure
  else installDriver calls (customActionData.takeWhile (· ≠ ';'))
    (customActionData.dropWhile (· ≠ ';')).tail

/-- The calls that install a driver succeed. -/
structure InstallCalls.Succeed (calls : InstallCalls) (infFilePath devId : List Char) : Prop where
  getInfClass : calls.getInfClass infFilePath = true
  createDeviceInfoList : calls.createDeviceInfoList = true
  createDeviceInfo : calls.createDeviceInfo = true
  length : devId.length < lineLen
  setHardwareId : calls.setHardwareId devId = true
  registerDevice : calls.registerDevice = true
  updateDriver : calls.updateDriver devId infFilePath = true

/-- **`InstallDriver` returns zero exactly when all its calls succeed.** -/
theorem installDriver_eq_success_iff {calls : InstallCalls} {infFilePath devId : List Char} :
    installDriver calls infFilePath devId = errorSuccess ↔ calls.Succeed infFilePath devId := by
  have hne : errorInstallFailure ≠ errorSuccess := by decide
  constructor
  · intro h
    simp only [installDriver, ite_eq_iff, hne, and_false, false_or, and_true,
      Bool.not_eq_false, Nat.not_le] at h
    obtain ⟨h₁, h₂, h₃, h₄, h₅, h₆, h₇⟩ := h
    exact ⟨h₁, h₂, h₃, h₄, h₅, h₆, h₇⟩
  · intro h
    simp [installDriver, h.getInfClass, h.createDeviceInfoList, h.createDeviceInfo,
      Nat.not_le.mpr h.length, h.setHardwareId, h.registerDevice, h.updateDriver]

theorem install_eq_success_iff {er : UINT} {customActionData : List Char} {calls : InstallCalls} :
    install er customActionData calls = errorSuccess ↔
      er = errorSuccess ∧ ';' ∈ customActionData ∧
        calls.Succeed (customActionData.takeWhile (· ≠ ';'))
          (customActionData.dropWhile (· ≠ ';')).tail := by
  have hne : errorInstallFailure ≠ errorSuccess := by decide
  rw [← installDriver_eq_success_iff]
  by_cases her : er = errorSuccess
  · by_cases hsep : ';' ∈ customActionData <;> simp [install, her, hsep, hne]
  · simp [install, her, hne]

/-! ## Uninstall -/

/-- A run of `Uninstall`: the result of `MsiGetProperty`, the device id it yields, and the devices
of the machine. -/
structure UninstallRun where
  er : UINT
  customActionData : List Char
  devices : Option (List RootDevice)

/-- `Uninstall`. -/
def uninstall (r : UninstallRun) : UINT :=
  if r.er ≠ errorSuccess then errorInstallFailure
  else uintOfBool (uninstallDriver r.customActionData r.devices)

namespace UninstallRun

/-- The devices the run is to remove: none before the property is read. -/
def targets (r : UninstallRun) : List RootDevice :=
  if r.er ≠ errorSuccess then [] else driverDevices r.customActionData r.devices

/-- **`Uninstall` reports what happened**: success when there was a device to remove and every such
device was removed, an error code otherwise. -/
def Reports (r : UninstallRun) : Prop :=
  uninstall r = errorSuccess ↔ r.targets ≠ [] ∧ ∀ device ∈ r.targets, device.removed = true

/-- `Uninstall` returns zero exactly when the last device was not removed, or there was none. -/
theorem uninstall_eq_success_iff (r : UninstallRun) : uninstall r = errorSuccess ↔
    r.er = errorSuccess ∧ ∀ device ∈ r.targets.getLast?, device.removed = false := by
  by_cases her : r.er = errorSuccess
  · rw [uninstall, targets, if_neg (not_not_intro her), if_neg (not_not_intro her),
      uninstallDriver_eq]
    cases (driverDevices r.customActionData r.devices).getLast? with
    | none => simp [her, uintOfBool, errorSuccess]
    | some device => cases hd : device.removed <;> simp [her, hd, uintOfBool, errorSuccess]
  · rw [uninstall, if_pos her]
    exact ⟨fun h => absurd h (by decide), fun h => absurd h.1 her⟩

/-- When one element stands for all of them, wrongly: it is one that holds, and some other does
not. -/
theorem eq_false_iff_all {α : Type*} {l : List α} {f : α → Bool} {x : α} (hx : x ∈ l) :
    (f x = false ↔ ∀ y ∈ l, f y = true) ↔ f x = true ∧ ∃ y ∈ l, f y = false := by
  have hnot : (∃ y ∈ l, f y = false) ↔ ¬ ∀ y ∈ l, f y = true := by simp
  rw [hnot]
  by_cases hall : ∀ y ∈ l, f y = true
  · have hfx := hall x hx
    simp [hfx]
  · simp [hall]

/-- **`Uninstall` reports what happened exactly when** the property could not be read, or the last
device was removed and another one was not. -/
theorem reports_iff (r : UninstallRun) : r.Reports ↔ r.er ≠ errorSuccess ∨
    (∃ device ∈ r.targets.getLast?, device.removed = true) ∧
      ∃ device ∈ r.targets, device.removed = false := by
  rw [Reports, uninstall_eq_success_iff]
  by_cases her : r.er = errorSuccess
  · cases hl : r.targets.getLast? with
    | none =>
      have hnil : r.targets = [] := List.getLast?_eq_none_iff.mp hl
      simp [her, hnil]
    | some last =>
      have hmem : last ∈ r.targets := List.mem_of_getLast? hl
      have hne := List.ne_nil_of_mem hmem
      simpa [her, hne] using eq_false_iff_all hmem
  · have hnil : r.targets = [] := if_pos her
    simp [her, hnil]

/-- `CheckInstall`: its result, and whether it sets `DRIVERINSTALLED`. -/
def checkInstall (r : UninstallRun) : UINT × Bool :=
  if r.er ≠ errorSuccess then (errorInstallFailure, false)
  else (errorSuccess, isDriverInstalled r.customActionData r.devices)

/-- Where `CheckInstall` finds no driver, `Uninstall` has removed none and reports success. -/
theorem uninstall_of_checkInstall {r : UninstallRun} (h : r.checkInstall = (errorSuccess, false)) :
    uninstall r = errorSuccess ∧ ¬ r.Reports := by
  have her : r.er = errorSuccess := by
    by_contra her
    rw [checkInstall, if_pos her] at h
    exact absurd (congrArg Prod.fst h) (by decide)
  rw [checkInstall, if_neg (not_not_intro her)] at h
  have hnil : r.targets = [] := by
    rw [targets, if_neg (not_not_intro her)]
    by_contra hne
    rw [isDriverInstalled_iff.mpr hne] at h
    cases congrArg Prod.snd h
  have hsuccess : uninstall r = errorSuccess := by
    rw [uninstall_eq_success_iff, hnil]
    exact ⟨her, by simp⟩
  exact ⟨hsuccess, fun hr => (hr.mp hsuccess).1 hnil⟩

/-- All calls of `RemoveDevice` succeed. -/
def removeCalls : RemoveCalls where
  getServiceName := some "umdisk".toList
  getDriverInfPath := some "C:\\Windows\\inf\\oem1.inf".toList
  getDriverImagePath _ := some "umdisk.sys".toList
  callClassInstaller := true
  deleteKey _ := true
  uninstallOemInf name := name = "oem1.inf".toList
  deleteFile _ := true

/-- A run on a machine with one device of the driver. -/
def oneDevice : UninstallRun where
  er := errorSuccess
  customActionData := "root\\umdisk".toList
  devices := some [⟨⟨[true], some (multiSz ["ROOT\\UMDISK".toList])⟩, removeCalls⟩]

/-- **A device that is removed is reported as a failure.** -/
theorem not_reports : uninstall oneDevice = 1 ∧ ¬ oneDevice.Reports := by
  have hlast : ∀ device ∈ oneDevice.targets, device.removed = true := by decide
  have hresult : uninstall oneDevice = 1 := by decide
  refine ⟨hresult, fun h => ?_⟩
  have hsuccess := h.mpr ⟨by decide, hlast⟩
  rw [hresult] at hsuccess
  exact absurd hsuccess (by decide)

end UninstallRun

end VirtualDisk
