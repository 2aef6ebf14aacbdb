import VirtualDisk.Driver.Types

/-!
# Driver/Ioctl — the device controls of a disk

`Bus_PDO_IoCtl`: a property query is answered with a descriptor, or with the descriptor's header
alone when the output buffer holds no more; the geometry and the address have one form.  What the
I/O manager copies to the caller are the first `information` bytes, so a call is answered in full
when `information` is the size of the structure filled in (`Answered`).

The descriptor of the device fails this: its branch reports the size of the adapter's.
-/

namespace VirtualDisk

/-! ## Sizes of structures -/

/-- The next offset that is a multiple of the alignment. -/
def alignUp (offset alignment : ℕ) : ℕ := (offset + alignment - 1) / alignment * alignment

/-- `sizeof` a structure with fields of these sizes, each aligned to its own size. -/
def sizeofFields (fields : List ℕ) : ULONG :=
  UInt32.ofNat
    (alignUp (fields.foldl (fun offset n => alignUp offset n + n) 0) (fields.foldl max 1))

/-- `STORAGE_PROPERTY_QUERY`. -/
def sizeofStoragePropertyQuery : ULONG := sizeofFields [4, 4, 1]

/-- `STORAGE_DESCRIPTOR_HEADER`. -/
structure StorageDescriptorHeader where
  version : ULONG
  size : ULONG
  deriving DecidableEq, Repr

def sizeofStorageDescriptorHeader : ULONG := sizeofFields [4, 4]

/-- `STORAGE_ADAPTER_DESCRIPTOR`. -/
structure StorageAdapterDescriptor extends StorageDescriptorHeader where
  maximumTransferLength : ULONG
  maximumPhysicalPages : ULONG
  alignmentMask : ULONG
  adapterUsesPio : Bool
  adapterScansDown : Bool
  commandQueueing : Bool
  acceleratedTransfer : Bool
  busType : UCHAR
  busMajorVersion : USHORT
  busMinorVersion : USHORT
  deriving DecidableEq, Repr

def sizeofStorageAdapterDescriptor : ULONG := sizeofFields [4, 4, 4, 4, 4, 1, 1, 1, 1, 1, 2, 2]

/-- `STORAGE_DEVICE_DESCRIPTOR`, with the one byte of `RawDeviceProperties` it declares. -/
structure StorageDeviceDescriptor extends StorageDescriptorHeader where
  deviceType : UCHAR
  deviceTypeModifier : UCHAR
  removableMedia : Bool
  commandQueueing : Bool
  vendorIdOffset : ULONG
  productIdOffset : ULONG
  productRevisionOffset : ULONG
  serialNumberOffset : ULONG
  busType : ULONG
  rawPropertiesLength : ULONG
  rawDeviceProperties : UCHAR
  deriving DecidableEq, Repr

def sizeofStorageDeviceDescriptor : ULONG := sizeofFields [4, 4, 1, 1, 1, 1, 4, 4, 4, 4, 4, 4, 1]

/-- `DISK_GEOMETRY`. -/
structure DiskGeometry where
  cylinders : ℤ
  mediaType : ULONG
  tracksPerCylinder : ULONG
  sectorsPerTrack : ULONG
  bytesPerSector : ULONG
  deriving DecidableEq, Repr

def sizeofDiskGeometry : ULONG := sizeofFields [8, 4, 4, 4, 4]

/-- `SCSI_ADDRESS`. -/
structure ScsiAddress where
  length : ULONG
  portNumber : UCHAR
  pathId : UCHAR
  targetId : UCHAR
  lun : UCHAR
  deriving DecidableEq, Repr

def sizeofScsiAddress : ULONG := sizeofFields [4, 1, 1, 1, 1]

example : sizeofStoragePropertyQuery = 12 ∧ sizeofStorageDescriptorHeader = 8 ∧
    sizeofStorageAdapterDescriptor = 32 ∧ sizeofStorageDeviceDescriptor = 40 ∧
    sizeofDiskGeometry = 24 ∧ sizeofScsiAddress = 8 := by decide

/-! ## Requests and answers -/

/-- `CTL_CODE`, for `METHOD_BUFFERED` and `FILE_ANY_ACCESS`. -/
def ctlCode (deviceType function : ULONG) : ULONG := (deviceType <<< 16) ||| (function <<< 2)

def ioctlStorageQueryProperty : ULONG := ctlCode 0x2D 0x500
def ioctlDiskGetDriveGeometry : ULONG := ctlCode 0x07 0x000
def ioctlScsiGetAddress : ULONG := ctlCode 0x04 0x406

/-- `STORAGE_QUERY_TYPE` and `STORAGE_PROPERTY_ID`. -/
def propertyStandardQuery : ULONG := 0
def storageDeviceProperty : ULONG := 0
def storageAdapterProperty : ULONG := 1

def directAccessDevice : UCHAR := 0x00
def fixedMedia : ULONG := 12

/-- A device control: its stack location, and the `STORAGE_PROPERTY_QUERY` at the start of its
system buffer. -/
structure DeviceIoControl where
  ioControlCode : ULONG
  inputBufferLength : ULONG := 0
  outputBufferLength : ULONG
  queryType : ULONG := 0
  propertyId : ULONG := 0
  deriving DecidableEq, Repr

/-- The structure the system buffer is filled with. -/
inductive IoctlOutput
  | header (h : StorageDescriptorHeader)
  | adapter (d : StorageAdapterDescriptor)
  | device (d : StorageDeviceDescriptor)
  | geometry (d : DiskGeometry)
  | address (d : ScsiAddress)
  deriving DecidableEq, Repr

/-- `sizeof` the structure. -/
def IoctlOutput.size : IoctlOutput → ULONG
  | .header _ => sizeofStorageDescriptorHeader
  | .adapter _ => sizeofStorageAdapterDescriptor
  | .device _ => sizeofStorageDeviceDescriptor
  | .geometry _ => sizeofDiskGeometry
  | .address _ => sizeofScsiAddress

/-- The structure is no header. -/
def IoctlOutput.isFull : IoctlOutput → Bool
  | .header _ => false
  | _ => true

/-- What an IRP is completed with: `IoStatus` and the system buffer. -/
structure IoctlResult where
  status : NTSTATUS
  information : ULONG
  output : Option IoctlOutput
  deriving DecidableEq, Repr

/-! ## `Bus_PDO_IoCtl` -/

/-- `STORAGE_ADAPTER_DESCRIPTOR` as the driver fills it. -/
def storageAdapterDescriptor : StorageAdapterDescriptor where
  version := sizeofStorageAdapterDescriptor
  size := sizeofStorageAdapterDescriptor
  maximumTransferLength := UInt32.ofNat bufferSize
  maximumPhysicalPages := 0xFFFFFFFF
  alignmentMask := 0
  adapterUsesPio := true
  adapterScansDown := false
  commandQueueing := false
  acceleratedTransfer := false
  busType := 0
  busMajorVersion := 1
  busMinorVersion := 1

/-- `STORAGE_DEVICE_DESCRIPTOR` as the driver fills it. -/
def storageDeviceDescriptor : StorageDeviceDescriptor where
  version := sizeofStorageDeviceDescriptor
  size := sizeofStorageDeviceDescriptor
  deviceType := directAccessDevice
  deviceTypeModifier := 0
  removableMedia := false
  commandQueueing := false
  vendorIdOffset := 0
  productIdOffset := 0
  productRevisionOffset := 0
  serialNumberOffset := 0xFFFFFFFF
  busType := 0
  rawPropertiesLength := 0
  rawDeviceProperties := 0

/-- `DISK_GEOMETRY` as the driver fills it: the size of the disk is multiplied in 32 bits, then
divided in 64. -/
def diskGeometry (pdo : PdoDeviceData) : DiskGeometry where
  cylinders := ((pdo.blockSize * pdo.nBlocks).toNat : ℤ) / (512 * 255 * 63)
  mediaType := fixedMedia
  tracksPerCylinder := 255
  sectorsPerTrack := 63
  bytesPerSector := 512

/-- `SCSI_ADDRESS` as the driver fills it: the bytes of the serial number. -/
def scsiAddress (pdo : PdoDeviceData) : ScsiAddress where
  length := sizeofScsiAddress
  portNumber := UInt8.ofNat (pdo.serialNo.toNat / 2 ^ 24)
  pathId := UInt8.ofNat (pdo.serialNo.toNat / 2 ^ 16)
  targetId := UInt8.ofNat (pdo.serialNo.toNat / 2 ^ 8)
  lun := UInt8.ofNat pdo.serialNo.toNat

/-- A query for a descriptor of `size` bytes: the buffer holds no header, the header alone, or the
descriptor, which is reported as `information` bytes. -/
def queryDescriptor (outputBufferLength size : ULONG) (full : IoctlOutput) (information : ULONG) :
    Option (IoctlOutput × ULONG) :=
  if outputBufferLength < sizeofStorageDescriptorHeader then none
  else if outputBufferLength < size then
    some (.header { version := size, size := size }, sizeofStorageDescriptorHeader)
  else some (full, information)

/-- The switch of `Bus_PDO_IoCtl`: what it fills in and reports when it sets `STATUS_SUCCESS`. -/
def busPdoAnswer (pdo : PdoDeviceData) (c : DeviceIoControl) : Option (IoctlOutput × ULONG) :=
  if c.ioControlCode = ioctlStorageQueryProperty then
    if c.inputBufferLength < sizeofStoragePropertyQuery then none
    else if c.queryType = propertyStandardQuery ∧ c.propertyId = storageAdapterProperty then
      queryDescriptor c.outputBufferLength sizeofStorageAdapterDescriptor
        (.adapter storageAdapterDescriptor) sizeofStorageAdapterDescriptor
    else if c.queryType = propertyStandardQuery ∧ c.propertyId = storageDeviceProperty then
      -- reported with the size of the adapter's descriptor
      queryDescriptor c.outputBufferLength sizeofStorageDeviceDescriptor
        (.device storageDeviceDescriptor) sizeofStorageAdapterDescriptor
    else none
  else if c.ioControlCode = ioctlDiskGetDriveGeometry then
    if c.outputBufferLength < sizeofDiskGeometry then none
    else some (.geometry (diskGeometry pdo), sizeofDiskGeometry)
  else if c.ioControlCode = ioctlScsiGetAddress then
    if c.outputBufferLength < sizeofScsiAddress then none
    else some (.address (scsiAddress pdo), sizeofScsiAddress)
  else none

/-- `Bus_PDO_IoCtl`.  `removeLock` is what `IoAcquireRemoveLock` returns, `information` what the IRP
holds when it arrives. -/
def busPdoIoCtl (removeLock : NTSTATUS) (information : ULONG) (pdo : PdoDeviceData)
    (c : DeviceIoControl) : IoctlResult :=
  if ntSuccess removeLock = false then { status := removeLock, information, output := none }
  else
    match busPdoAnswer pdo c with
    | some (output, size) => { status := statusSuccess, information := size, output := some output }
    | none => { status := statusInvalidParameter, information, output := none }

/-! ## Answers in full -/

variable {lock : NTSTATUS} {info : ULONG} {pdo : PdoDeviceData} {c : DeviceIoControl}

theorem busPdoIoCtl_of_lock (h : ntSuccess lock = true) : busPdoIoCtl lock info pdo c =
    match busPdoAnswer pdo c with
    | some (output, size) => { status := statusSuccess, information := size, output := some output }
    | none => { status := statusInvalidParameter, information := info, output := none } :=
  if_neg (by simp [h])

/-- **A call succeeds exactly when** it got the remove lock and its case found an answer. -/
theorem busPdoIoCtl_success : (busPdoIoCtl lock info pdo c).status = statusSuccess ↔
    ntSuccess lock = true ∧ ∃ o n, busPdoAnswer pdo c = some (o, n) ∧
      busPdoIoCtl lock info pdo c =
        { status := statusSuccess, information := n, output := some o } := by
  constructor
  · intro h
    cases hl : ntSuccess lock with
    | false =>
      rw [busPdoIoCtl, if_pos hl] at h
      rw [show lock = statusSuccess from h] at hl
      exact absurd hl (by decide)
    | true =>
      rw [busPdoIoCtl_of_lock hl] at h ⊢
      cases ha : busPdoAnswer pdo c with
      | none =>
        rw [ha] at h
        exact absurd (show statusInvalidParameter = statusSuccess from h) (by decide)
      | some a => exact ⟨rfl, a.1, a.2, rfl, rfl⟩
  · rintro ⟨-, o, n, -, h⟩
    rw [h]

/-- **A call reports what it produced**: the structure filled in is reported with its size, which
the caller's buffer holds, and a header answers only a buffer too short for the descriptor whose
length it announces: a second call with that length returns the descriptor in full. -/
structure Answered (c : DeviceIoControl) (o : IoctlOutput) (information : ULONG) : Prop where
  size : information = o.size
  fits : information ≤ c.outputBufferLength
  announced : ∀ h, o = .header h → c.outputBufferLength < h.size ∧
    ∀ (lock : NTSTATUS) (info : ULONG) (pdo : PdoDeviceData), ntSuccess lock = true →
      ∃ full, full.isFull = true ∧ full.size = h.size ∧
        busPdoIoCtl lock info pdo { c with outputBufferLength := h.size } =
          { status := statusSuccess, information := h.size, output := some full }

/-- A call that does not succeed, or reports what it produced. -/
def ReportsOutput (lock : NTSTATUS) (info : ULONG) (pdo : PdoDeviceData) (c : DeviceIoControl) :
    Prop :=
  (busPdoIoCtl lock info pdo c).status = statusSuccess →
    ∃ o, (busPdoIoCtl lock info pdo c).output = some o ∧
      Answered c o (busPdoIoCtl lock info pdo c).information

/-- **A query for the device's descriptor** that the driver answers. -/
def QueriesDevice (lock : NTSTATUS) (c : DeviceIoControl) : Prop :=
  ntSuccess lock = true ∧ c.ioControlCode = ioctlStorageQueryProperty ∧
    sizeofStoragePropertyQuery ≤ c.inputBufferLength ∧ c.queryType = propertyStandardQuery ∧
    c.propertyId = storageDeviceProperty ∧ sizeofStorageDescriptorHeader ≤ c.outputBufferLength

/-! ### Negotiated descriptors -/

variable {size n : ULONG} {o full : IoctlOutput}

theorem queryDescriptor_header {out : ULONG} (h : sizeofStorageDescriptorHeader ≤ out)
    (h' : out < size) : queryDescriptor out size full n =
      some (.header { version := size, size := size }, sizeofStorageDescriptorHeader) := by
  rw [queryDescriptor, if_neg (UInt32.not_lt.mpr h), if_pos h']

theorem queryDescriptor_full {out : ULONG} (h : sizeofStorageDescriptorHeader ≤ size)
    (h' : size ≤ out) : queryDescriptor out size full n = some (full, n) := by
  rw [queryDescriptor, if_neg (UInt32.not_lt.mpr (UInt32.le_trans h h')),
    if_neg (UInt32.not_lt.mpr h')]

/-- **What a query is answered with is reported exactly when** the descriptor is reported with its
own size: the header announces that size, and the second call reports it. -/
theorem answered_query_iff {information : ULONG}
    (hc : ∀ pdo out, busPdoAnswer pdo { c with outputBufferLength := out } =
      queryDescriptor out size full information)
    (hfull : full.isFull = true) (hsize : full.size = size)
    (hle : sizeofStorageDescriptorHeader ≤ size)
    (h : queryDescriptor c.outputBufferLength size full information = some (o, n)) :
    Answered c o n ↔ information = size := by
  have second : ∀ lock info pdo, ntSuccess lock = true →
      busPdoIoCtl lock info pdo { c with outputBufferLength := size } =
        { status := statusSuccess, information := information, output := some full } := by
    intro lock info pdo hl
    rw [busPdoIoCtl_of_lock hl, hc, queryDescriptor_full hle (UInt32.le_refl _)]
  have hout : sizeofStorageDescriptorHeader ≤ c.outputBufferLength := by
    by_contra hlt
    rw [queryDescriptor, if_pos (UInt32.not_le.mp hlt)] at h
    cases h
  by_cases hlt : c.outputBufferLength < size
  · rw [queryDescriptor_header hout hlt] at h
    obtain ⟨rfl, rfl⟩ := Prod.mk.inj (Option.some.inj h)
    constructor
    · intro ha
      obtain ⟨-, hsecond⟩ := ha.announced _ rfl
      obtain ⟨full', -, -, heq⟩ := hsecond statusSuccess 0 {} rfl
      exact congrArg IoctlResult.information ((second _ _ _ rfl).symm.trans heq)
    · rintro rfl
      refine ⟨rfl, hout, ?_⟩
      intro d hd
      obtain rfl := IoctlOutput.header.inj hd
      exact ⟨hlt, fun lock info pdo hl => ⟨full, hfull, hsize, second lock info pdo hl⟩⟩
  · rw [queryDescriptor_full hle (UInt32.not_lt.mp hlt)] at h
    obtain ⟨rfl, rfl⟩ := Prod.mk.inj (Option.some.inj h)
    constructor
    · exact fun ha => ha.size.trans hsize
    · rintro rfl
      refine ⟨hsize.symm, UInt32.not_lt.mp hlt, ?_⟩
      rintro h rfl
      cases hfull

/-- A structure of one form, reported with its size. -/
theorem answered_full (hfull : o.isFull = true) (hle : o.size ≤ c.outputBufferLength) :
    Answered c o o.size := by
  refine ⟨rfl, hle, ?_⟩
  rintro h rfl
  cases hfull

/-! ### Every answer -/

theorem busPdoAnswer_adapter (hcode : c.ioControlCode = ioctlStorageQueryProperty)
    (hin : sizeofStoragePropertyQuery ≤ c.inputBufferLength)
    (hq : c.queryType = propertyStandardQuery) (hp : c.propertyId = storageAdapterProperty) :
    busPdoAnswer pdo c = queryDescriptor c.outputBufferLength sizeofStorageAdapterDescriptor
      (.adapter storageAdapterDescriptor) sizeofStorageAdapterDescriptor := by
  rw [busPdoAnswer, if_pos hcode, if_neg (UInt32.not_lt.mpr hin), if_pos ⟨hq, hp⟩]

theorem busPdoAnswer_device (hcode : c.ioControlCode = ioctlStorageQueryProperty)
    (hin : sizeofStoragePropertyQuery ≤ c.inputBufferLength)
    (hq : c.queryType = propertyStandardQuery) (hp : c.propertyId = storageDeviceProperty) :
    busPdoAnswer pdo c = queryDescriptor c.outputBufferLength sizeofStorageDeviceDescriptor
      (.device storageDeviceDescriptor) sizeofStorageAdapterDescriptor := by
  have hne : ¬ (c.queryType = propertyStandardQuery ∧ c.propertyId = storageAdapterProperty) := by
    rw [hp]
    exact fun h => absurd h.2 (by decide)
  rw [busPdoAnswer, if_pos hcode, if_neg (UInt32.not_lt.mpr hin), if_neg hne, if_pos ⟨hq, hp⟩]

theorem busPdoAnswer_geometry (hcode : c.ioControlCode = ioctlDiskGetDriveGeometry)
    (hout : sizeofDiskGeometry ≤ c.outputBufferLength) :
    busPdoAnswer pdo c = some (.geometry (diskGeometry pdo), sizeofDiskGeometry) := by
  rw [busPdoAnswer, hcode, if_neg (by decide), if_pos rfl, if_neg (UInt32.not_lt.mpr hout)]

/-- **Where an answer comes from**: a query for a descriptor, or a structure of one form. -/
theorem busPdoAnswer_cases (h : busPdoAnswer pdo c = some (o, n)) :
    (c.ioControlCode = ioctlStorageQueryProperty ∧
      sizeofStoragePropertyQuery ≤ c.inputBufferLength ∧ c.queryType = propertyStandardQuery ∧
      (c.propertyId = storageAdapterProperty ∨ c.propertyId = storageDeviceProperty)) ∨
    (c.ioControlCode ≠ ioctlStorageQueryProperty ∧ o.isFull = true ∧ n = o.size ∧
      o.size ≤ c.outputBufferLength) := by
  unfold busPdoAnswer at h
  split at h
  case isTrue hcode =>
    left
    split at h
    case isTrue => cases h
    case isFalse hin =>
      refine ⟨hcode, UInt32.not_lt.mp hin, ?_⟩
      split at h
      case isTrue hq => exact ⟨hq.1, .inl hq.2⟩
      case isFalse =>
        split at h
        case isTrue hq => exact ⟨hq.1, .inr hq.2⟩
        case isFalse => cases h
  case isFalse hcode =>
    right
    refine ⟨hcode, ?_⟩
    split at h
    case isTrue =>
      split at h
      case isTrue => cases h
      case isFalse hout =>
        obtain ⟨rfl, rfl⟩ := Prod.mk.inj (Option.some.inj h)
        exact ⟨rfl, rfl, UInt32.not_lt.mp hout⟩
    case isFalse =>
      split at h
      case isTrue =>
        split at h
        case isTrue => cases h
        case isFalse hout =>
          obtain ⟨rfl, rfl⟩ := Prod.mk.inj (Option.some.inj h)
          exact ⟨rfl, rfl, UInt32.not_lt.mp hout⟩
      case isFalse => cases h

/-- An answer to a query for the device's descriptor reports another size. -/
theorem not_answered_device (h : QueriesDevice lock c) (ha : busPdoAnswer pdo c = some (o, n)) :
    ¬ Answered c o n := by
  obtain ⟨-, hcode, hin, hq, hp, -⟩ := h
  rw [busPdoAnswer_device hcode hin hq hp] at ha
  rw [answered_query_iff (fun pdo out => busPdoAnswer_device hcode hin hq hp) rfl rfl (by decide)
    ha]
  decide

/-- Every other answer reports its own. -/
theorem answered_of_not_device (h : ¬ QueriesDevice lock c) (hl : ntSuccess lock = true)
    (ha : busPdoAnswer pdo c = some (o, n)) : Answered c o n := by
  rcases busPdoAnswer_cases ha with ⟨hcode, hin, hq, hp⟩ | ⟨-, hfull, rfl, hle⟩
  · rcases hp with hp | hp
    · rw [busPdoAnswer_adapter hcode hin hq hp] at ha
      exact (answered_query_iff (fun pdo out => busPdoAnswer_adapter hcode hin hq hp) rfl rfl
        (by decide) ha).mpr rfl
    · have hout : c.outputBufferLength < sizeofStorageDescriptorHeader := by
        by_contra hge
        exact h ⟨hl, hcode, hin, hq, hp, UInt32.not_lt.mp hge⟩
      rw [busPdoAnswer_device hcode hin hq hp, queryDescriptor, if_pos hout] at ha
      cases ha
  · exact answered_full hfull hle

/-- A query for the device's descriptor succeeds. -/
theorem QueriesDevice.answer (h : QueriesDevice lock c) (pdo : PdoDeviceData) :
    ∃ o n, busPdoAnswer pdo c = some (o, n) := by
  obtain ⟨-, hcode, hin, hq, hp, hout⟩ := h
  rw [busPdoAnswer_device hcode hin hq hp, queryDescriptor, if_neg (UInt32.not_lt.mpr hout)]
  split
  · exact ⟨_, _, rfl⟩
  · exact ⟨_, _, rfl⟩

/-- **Every call reports what it produced, but for the queries for the device's descriptor**. -/
theorem reportsOutput_iff : ReportsOutput lock info pdo c ↔ ¬ QueriesDevice lock c := by
  constructor
  · intro hr hq
    obtain ⟨o, n, ha⟩ := hq.answer pdo
    have he : busPdoIoCtl lock info pdo c =
        { status := statusSuccess, information := n, output := some o } := by
      rw [busPdoIoCtl_of_lock hq.1, ha]
    rw [ReportsOutput, he] at hr
    obtain ⟨o', ho, hans⟩ := hr rfl
    obtain rfl := Option.some.inj ho
    exact not_answered_device hq ha hans
  · intro hq hs
    obtain ⟨hl, o, n, ha, he⟩ := busPdoIoCtl_success.mp hs
    rw [he]
    exact ⟨o, rfl, answered_of_not_device hq hl ha⟩

/-- **A descriptor is cut short**: the device's, asked for with a buffer of its own size, is
reported as 32 bytes of 40. -/
theorem not_reportsOutput : ¬ ∀ (lock : NTSTATUS) (info : ULONG) (pdo : PdoDeviceData)
    (c : DeviceIoControl), ReportsOutput lock info pdo c := by
  intro h
  obtain ⟨o, ho, ha⟩ := h statusSuccess 0 {}
    { ioControlCode := ioctlStorageQueryProperty, inputBufferLength := 12, outputBufferLength := 40,
      queryType := propertyStandardQuery, propertyId := storageDeviceProperty } rfl
  obtain rfl : IoctlOutput.device storageDeviceDescriptor = o := Option.some.inj ho
  exact absurd ha.size (by decide)

end VirtualDisk
