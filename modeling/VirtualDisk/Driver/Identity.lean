import VirtualDisk.Driver.Ioctl
import VirtualDisk.Driver.Scsi
import VirtualDisk.Driver.Serials
import VirtualDisk.Machinery.Numeral

/-!
# Driver/Identity — what a disk is called

`Bus_PDO_QueryDeviceId`, `Bus_PDO_QueryDeviceText` and the SCSI address of `Bus_PDO_IoCtl`: the
names PnP and the class drivers know a disk by.  All of them are made from its serial number, which
is printed into buffers of a fixed size: the instance id in hexadecimal, the description as a signed
number in decimal.
-/

namespace VirtualDisk

open Machinery Machinery.Numeral

/-! ## Wide strings -/

/-- `WCHAR`. -/
abbrev WChar := Char

/-- The terminator of a string. -/
def nul : WChar := Char.ofNat 0

def statusBufferOverflow : NTSTATUS := 0x80000005

/-- `RtlStringCchPrintfW` into a buffer of `cch` characters: as much of the text as leaves room for
the terminator. -/
def rtlStringCchPrintfW (cch : ℕ) (text : List WChar) : NTSTATUS × List WChar :=
  if cch = 0 then (statusInvalidParameter, [])
  else if text.length < cch then (statusSuccess, text ++ [nul])
  else (statusBufferOverflow, text.take (cch - 1) ++ [nul])

/-- A text that leaves room for the terminator is printed whole. -/
theorem rtlStringCchPrintfW_of_lt {cch : ℕ} {text : List WChar} (h : text.length < cch) :
    rtlStringCchPrintfW cch text = (statusSuccess, text ++ [nul]) := by
  rw [rtlStringCchPrintfW, if_neg (Nat.ne_of_gt (Nat.zero_lt_of_lt h)), if_pos h]

/-- A multi-string: each of the strings with its terminator, and one terminator more. -/
def multiSz (strings : List (List WChar)) : List WChar :=
  strings.flatMap (fun string => string ++ [nul]) ++ [nul]

/-- How many characters the two loops over `HardwareIDs` pass; `inner` says which of them runs. -/
def scanMultiSz : Bool → List WChar → ℕ
  | _, [] => 0
  | false, c :: l => if c = nul then 1 else scanMultiSz true l + 1
  | true, c :: l => if c = nul then scanMultiSz false l + 1 else scanMultiSz true l + 1

/-- The inner loop passes a string and its terminator. -/
theorem scanMultiSz_string {string rest : List WChar} (h : nul ∉ string) :
    scanMultiSz true (string ++ nul :: rest) = scanMultiSz false rest + (string.length + 1) := by
  induction string with
  | nil => rw [List.nil_append, scanMultiSz, if_pos rfl]; rfl
  | cons c string ih =>
    have hc := List.ne_of_not_mem_cons h
    have hs := List.not_mem_of_not_mem_cons h
    rw [List.cons_append, scanMultiSz, if_neg (Ne.symm hc), ih hs]
    rfl

/-- **The loops end with the multi-string**, whatever follows it in memory. -/
theorem scanMultiSz_multiSz {strings : List (List WChar)} {rest : List WChar}
    (h : ∀ string ∈ strings, string ≠ [] ∧ nul ∉ string) :
    scanMultiSz false (multiSz strings ++ rest) = (multiSz strings).length := by
  induction strings with
  | nil => rfl
  | cons string strings ih =>
    obtain ⟨hne, hnul⟩ := h string List.mem_cons_self
    have htail := ih fun s hs => h s (List.mem_cons_of_mem _ hs)
    have hcons : multiSz (string :: strings) ++ rest =
        string ++ nul :: (multiSz strings ++ rest) := by simp [multiSz]
    have hlength : (multiSz (string :: strings)).length =
        (multiSz strings).length + (string.length + 1) := by simp [multiSz]; omega
    rw [hcons, hlength, ← htail]
    cases string with
    | nil => exact absurd rfl hne
    | cons c string =>
      -- the outer loop takes the first character of a string, the inner loop the others
      have hc := List.ne_of_not_mem_cons hnul
      have hs := List.not_mem_of_not_mem_cons hnul
      rw [List.cons_append, scanMultiSz, if_neg (Ne.symm hc), scanMultiSz_string hs]
      rfl

/-! ## The texts -/

def vendorName : List WChar := "VDSoft ".toList
def model : List WChar := "Virtual disk ".toList

/-- `BUS_DEVICE_ID`. -/
def busDeviceId : List WChar := "SCSI\\DiskVDSoft  VirtualDisk     0001".toList ++ [nul]

/-- The strings of `BUS_HARDWARE_IDS`, which `HardwareIDs` of a PDO is a copy of. -/
def hardwareIdStrings : List (List WChar) :=
  ["SCSI\\DiskVDSoft  VirtualDisk     0001".toList,
    "SCSI\\DiskVDSoft  VirtualDisk     ".toList,
    "SCSI\\DiskVDSoft  ".toList,
    "SCSI\\VDSoft  VirtualDisk     1".toList,
    "VDSoft  VirtualDisk     1".toList,
    "GenDisk".toList]

def busHardwareIds : List WChar := multiSz hardwareIdStrings
def busenumCompatibleIds : List WChar := multiSz ["GenDisk".toList]

/-- `L"%02x"` of a serial number. -/
def instanceId (serialNo : ULONG) : List WChar := printWidth 2 16 serialNo.toNat

/-- The characters of the buffer for it. -/
def instanceIdCch : ℕ := 11

/-- `L"%ws%ws%d"` of the vendor, the model and a serial number, which is taken as signed. -/
def deviceText (serialNo : ULONG) : List WChar :=
  vendorName ++ model ++ printInt serialNo.toInt32.toInt

/-- `length` in `Bus_PDO_QueryDeviceText`: the bytes of the buffer for it, a `USHORT`. -/
def deviceTextLength : USHORT :=
  UInt16.ofNat (vendorName.length + 1 + model.length + 1 + 10) * 2

/-- The characters of that buffer. -/
def deviceTextCch : ℕ := deviceTextLength.toNat / 2

/-! ## The queries -/

/-- `BUS_QUERY_ID_TYPE`. -/
inductive BusQueryIdType
  | deviceID
  | hardwareIDs
  | compatibleIDs
  | instanceID
  | other
  deriving DecidableEq, Repr

/-- `DEVICE_TEXT_TYPE`. -/
inductive DeviceTextType
  | description
  | locationInformation
  | other
  deriving DecidableEq, Repr

/-- The `IoStatus` of a query for a text: `information` is what the pointer in it points to. -/
structure TextStatus where
  status : NTSTATUS
  information : Option (List WChar)
  deriving DecidableEq, Repr

/-- A buffer is allocated and filled with the text. -/
def answerText (allocated : Bool) (ioStatus : TextStatus) (text : List WChar) : TextStatus :=
  if allocated then { status := statusSuccess, information := some text }
  else { ioStatus with status := statusInsufficientResources }

/-- `Bus_PDO_QueryDeviceId`.  `allocated` is the result of `ExAllocatePoolWithTag`, `hardwareIDs`
the memory from the PDO's `HardwareIDs` on. -/
def busPdoQueryDeviceId (allocated : Bool) (pdo : PdoDeviceData) (hardwareIDs : List WChar)
    (idType : BusQueryIdType) (ioStatus : TextStatus) : TextStatus :=
  match idType with
  | .deviceID => answerText allocated ioStatus busDeviceId
  | .instanceID =>
    answerText allocated ioStatus (rtlStringCchPrintfW instanceIdCch (instanceId pdo.serialNo)).2
  | .hardwareIDs =>
    answerText allocated ioStatus (hardwareIDs.take (scanMultiSz false hardwareIDs))
  | .compatibleIDs => answerText allocated ioStatus busenumCompatibleIds
  | .other => ioStatus

/-- `Bus_PDO_QueryDeviceText`, which has the same text for every locale, and none where a filter
driver has set one. -/
def busPdoQueryDeviceText (allocated : Bool) (pdo : PdoDeviceData) (textType : DeviceTextType)
    (ioStatus : TextStatus) : TextStatus :=
  match textType with
  | .description =>
    if ioStatus.information.isSome then { ioStatus with status := statusSuccess }
    else answerText allocated ioStatus
      (rtlStringCchPrintfW deviceTextCch (deviceText pdo.serialNo)).2
  | .locationInformation => ioStatus
  | .other => ioStatus

/-- **The hardware ids are copied whole**, whatever follows them in memory. -/
theorem busPdoQueryDeviceId_hardwareIDs (pdo : PdoDeviceData) (rest : List WChar)
    (ioStatus : TextStatus) :
    busPdoQueryDeviceId true pdo (busHardwareIds ++ rest) .hardwareIDs ioStatus =
      ⟨statusSuccess, some busHardwareIds⟩ := by
  have hscan : scanMultiSz false (busHardwareIds ++ rest) = busHardwareIds.length :=
    scanMultiSz_multiSz (by decide)
  rw [busPdoQueryDeviceId, hscan, List.take_left']
  · rfl
  · rfl

/-! ## Identities -/

namespace ScsiAddress

/-- Where the device is: `PortNumber`, `PathId`, `TargetId` and `Lun`. -/
def location (a : ScsiAddress) : UCHAR × UCHAR × UCHAR × UCHAR :=
  (a.portNumber, a.pathId, a.targetId, a.lun)

end ScsiAddress

section Identity

variable {pdo pdo' : PdoDeviceData}

/-- **Two serial numbers have two instance ids.** -/
theorem instanceId_injective : Function.Injective instanceId := by
  intro a b h
  exact UInt32.toNat.inj (printWidth_injective (by decide) (by decide) 2 h)

/-- The bytes of an address spell the serial number. -/
theorem fourByte_scsiAddress (pdo : PdoDeviceData) :
    (⟨(scsiAddress pdo).lun, (scsiAddress pdo).targetId, (scsiAddress pdo).pathId,
      (scsiAddress pdo).portNumber⟩ : FourByte) = .ofULong pdo.serialNo := rfl

/-- **Two serial numbers have two addresses.** -/
theorem serialNo_of_location (h : (scsiAddress pdo).location = (scsiAddress pdo').location) :
    pdo.serialNo = pdo'.serialNo := by
  simp only [ScsiAddress.location, Prod.mk.injEq] at h
  obtain ⟨hport, hpath, htarget, hlun⟩ := h
  have hbytes : FourByte.ofULong pdo.serialNo = .ofULong pdo'.serialNo := by
    rw [← fourByte_scsiAddress, ← fourByte_scsiAddress, hport, hpath, htarget, hlun]
  rw [← FourByte.toULong_ofULong pdo.serialNo, hbytes, FourByte.toULong_ofULong]

/-- An instance id has eight digits at most. -/
theorem length_instanceId (serialNo : ULONG) : (instanceId serialNo).length ≤ 8 :=
  (length_printWidth_le_iff (by decide) (by decide)).mpr ⟨by decide, serialNo.toNat_lt⟩

/-- **The description names the vendor, the model and the serial number.** -/
theorem deviceText_eq (serialNo : ULONG) : deviceText serialNo =
    ("VDSoft " ++ "Virtual disk " ++ toString serialNo.toInt32.toInt).toList := by
  rw [deviceText, printInt_eq_toList, String.toList_append, String.toList_append]
  rfl

/-- The buffer for the description has room for ten digits, a sign and the terminator. -/
theorem deviceTextCch_eq : deviceTextCch = vendorName.length + model.length + 12 := by decide

theorem length_deviceText_le_iff {k : ℕ} (serialNo : ULONG) (hk : 0 < k) :
    (deviceText serialNo).length ≤ vendorName.length + model.length + (k + 1) ↔
      -10 ^ k < serialNo.toInt32.toInt ∧ serialNo.toInt32.toInt < 10 ^ (k + 1) := by
  rw [deviceText, List.length_append, List.length_append, Nat.add_le_add_iff_left,
    length_printInt_le_iff hk]

/-- **Every description fits with its terminator.** -/
theorem length_deviceText (serialNo : ULONG) : (deviceText serialNo).length < deviceTextCch := by
  have hlow := serialNo.toInt32.le_toInt
  have hhigh := serialNo.toInt32.toInt_lt
  have h := (length_deviceText_le_iff (k := 10) serialNo (by decide)).mpr ⟨by omega, by omega⟩
  rw [deviceTextCch_eq]
  omega

/-- **The buffer is full for ten digits with a sign**, and for nothing else. -/
theorem length_deviceText_eq_iff (serialNo : ULONG) :
    (deviceText serialNo).length + 1 = deviceTextCch ↔ serialNo.toInt32.toInt ≤ -10 ^ 9 := by
  have hhigh := serialNo.toInt32.toInt_lt
  have hfits := length_deviceText serialNo
  have hshort := length_deviceText_le_iff (k := 9) serialNo (by decide)
  rw [deviceTextCch_eq] at hfits ⊢
  constructor
  · intro hfull
    by_contra hlt
    have := hshort.mpr ⟨by omega, by omega⟩
    omega
  · intro hle
    have hlong : ¬ (deviceText serialNo).length ≤ vendorName.length + model.length + (9 + 1) := by
      intro h
      have := (hshort.mp h).1
      omega
    omega

/-- **Identities are distinct and never truncated.** -/
theorem identities (pdo pdo' : PdoDeviceData) (hardwareIDs : List WChar) (ioStatus : TextStatus)
    (status : NTSTATUS) :
    (pdo.serialNo ≠ pdo'.serialNo →
      instanceId pdo.serialNo ≠ instanceId pdo'.serialNo ∧
      (scsiAddress pdo).location ≠ (scsiAddress pdo').location) ∧
    ((instanceId pdo.serialNo).length + 1 ≤ instanceIdCch ∧
      busPdoQueryDeviceId true pdo hardwareIDs .instanceID ioStatus =
        ⟨statusSuccess, some (instanceId pdo.serialNo ++ [nul])⟩) ∧
    (deviceText pdo.serialNo =
        ("VDSoft " ++ "Virtual disk " ++ toString pdo.serialNo.toInt32.toInt).toList ∧
      (deviceText pdo.serialNo).length + 1 ≤ deviceTextCch ∧
      busPdoQueryDeviceText true pdo .description ⟨status, none⟩ =
        ⟨statusSuccess, some (deviceText pdo.serialNo ++ [nul])⟩) := by
  have hid : (instanceId pdo.serialNo).length < instanceIdCch :=
    Nat.lt_of_le_of_lt (length_instanceId _) (by decide)
  have htext := length_deviceText pdo.serialNo
  refine ⟨fun hne => ⟨fun h => hne (instanceId_injective h), fun h => hne (serialNo_of_location h)⟩,
    ⟨hid, ?_⟩, deviceText_eq _, htext, ?_⟩
  · rw [busPdoQueryDeviceId, rtlStringCchPrintfW_of_lt hid]
    rfl
  · rw [busPdoQueryDeviceText, rtlStringCchPrintfW_of_lt htext]
    rfl

/-- The disks with the serial numbers 1 and 16. -/
theorem identities_two : instanceId 1 = ['0', '1'] ∧ instanceId 16 = ['1', '0'] ∧
    (scsiAddress { serialNo := 1 }).location ≠ (scsiAddress { serialNo := 16 }).location :=
  ⟨by decide, by decide,
    ((identities { serialNo := 1 } { serialNo := 16 } [] ⟨0, none⟩ 0).1 (by decide)).2⟩

end Identity

namespace Driver

variable {s : Driver} {p q : PdoId}

/-- **No two disks on the list are called the same**, in every run that gives no number twice. -/
theorem identities_of_live (h : lts.Reach GivesOnce s) (hp : s.bus.Live p) (hq : s.bus.Live q)
    (hpq : p ≠ q) :
    instanceId (s.bus.pdos p).serialNo ≠ instanceId (s.bus.pdos q).serialNo ∧
    (scsiAddress (s.bus.pdos p)).location ≠ (scsiAddress (s.bus.pdos q)).location :=
  have hserial := serials h
  ⟨fun heq => hpq (hserial.unique p q hp hq (instanceId_injective heq)),
    fun heq => hpq (hserial.unique p q hp hq (serialNo_of_location heq))⟩

end Driver

end VirtualDisk
