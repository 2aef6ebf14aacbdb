import Mathlib.Data.Finset.Basic
import VirtualDisk.Service.Serves

/-!
# Service/AddDisk — what adding a disk acquires, and what it gives back

`CDiskServer::AddDisk` with every call on the way that can fail: the memory, the events, the storage
and the thread of a `CDiskProcessor`, the entry in the disk map, the PDO.  A failure is undone by
the destructor, which gives back all of it but the thread: that is left running.
-/

namespace VirtualDisk

open Machinery

/-! ## The state -/

/-- A string of wide characters. -/
abbrev WString := List UInt16

/-- `towlower`, in the locale of a program that sets none. -/
def towlower (c : UInt16) : UInt16 := if 0x41 ≤ c ∧ c ≤ 0x5A then c + 0x20 else c

/-- `IPlugin::CreateDisk`: the geometry of the storage it opened under this name, if it did. -/
abbrev IPlugin := WString → Option Geometry

/-- The members of a `CDiskProcessor` that are NULL until `Init` acquires them;
its storage aside. -/
inductive ProcHandle
  | buffer
  | event
  | removeEvent
  | thread
  deriving DecidableEq, Repr

/-- What adding a disk deals in: the processors that are not deleted, those whose member of each
kind is not NULL, the storages that are open and the threads that run `threadProc`, by processor;
the maps of the disks and of the plugins; the driver. -/
structure ServerState where
  next : ProcId := 0
  processors : Finset ProcId := ∅
  diskIds : ProcId → ULONG := fun _ => 0
  handles : ProcHandle → Finset ProcId := fun _ => ∅
  storages : ProcId → Option Geometry := fun _ => none
  threads : Finset ProcId := ∅
  diskMap : ULONG → Option ProcId := fun _ => none
  pluginMap : WString → Option IPlugin := fun _ => none
  bus : Bus := {}

/-- The outcomes of the calls that may fail.  `insert` says that `map::insert` did not throw, and
`device` that every fallible call of the driver succeeded. -/
structure Outcomes where
  alloc : Bool := true
  buffer : Bool := true
  event : Bool := true
  removeEvent : Bool := true
  thread : Bool := true
  insert : Bool := true
  device : Bool := true

/-! ## The driver -/

/-- `IOCTL_BUSENUM_ADD_DISK`, with the mutex free: what the routine returns, and the
bus after it. -/
def Bus.ioctlAddDisk (b : Bus) (ok : Bool) (dd : BusenumAddDisk) : NTSTATUS × Bus :=
  if b.fdo.devicePnPState = .deleted then (statusNoSuchDevice, b)
  else if b.unique dd.handle = false then (statusInvalidParameter, b)
  else if ok = false then (statusInsufficientResources, b)
  else (statusSuccess, ((b.createPdo dd).insertTailList b.pdoCount).setPdo b.pdoCount
    fun d => { d with deviceInitializing := false })

/-- The driver takes a disk whose id none of its own has, unless a call fails. -/
theorem Bus.ioctlAddDisk_taken (b : Bus) (ok : Bool) (dd : BusenumAddDisk)
    (h : b.fdo.devicePnPState ≠ .deleted ∧ b.unique dd.handle = true ∧ ok = true) :
    b.ioctlAddDisk ok dd = (statusSuccess,
      ((b.createPdo dd).insertTailList b.pdoCount).setPdo b.pdoCount
        fun d => { d with deviceInitializing := false }) := by
  simp [ioctlAddDisk, h.1, h.2.1, h.2.2]

/-- …and otherwise leaves the bus alone. -/
theorem Bus.ioctlAddDisk_refused (b : Bus) (ok : Bool) (dd : BusenumAddDisk)
    (h : ¬ (b.fdo.devicePnPState ≠ .deleted ∧ b.unique dd.handle = true ∧ ok = true)) :
    ntSuccess (b.ioctlAddDisk ok dd).1 = false ∧ (b.ioctlAddDisk ok dd).2 = b := by
  unfold ioctlAddDisk
  split
  · exact ⟨rfl, rfl⟩
  · next hd =>
    split
    · exact ⟨rfl, rfl⟩
    · next hu =>
      split
      · exact ⟨rfl, rfl⟩
      · next hok => exact absurd ⟨hd, by simpa using hu, by simpa using hok⟩ h

namespace ServerState

/-! ## Updates -/

/-- `CDiskProcessor::CDiskProcessor`. -/
@[simps -fullyApplied]
def construct (σ : ServerState) (diskId : ULONG) : ServerState :=
  { σ with
    next := σ.next + 1
    processors := insert σ.next σ.processors
    diskIds := Function.update σ.diskIds σ.next diskId }

@[simps -fullyApplied]
def acquire (σ : ServerState) (h : ProcHandle) (pr : ProcId) : ServerState :=
  { σ with handles := Function.update σ.handles h (insert pr (σ.handles h)) }

@[simps -fullyApplied]
def openStorage (σ : ServerState) (pr : ProcId) (g : Geometry) : ServerState :=
  { σ with storages := Function.update σ.storages pr (some g) }

/-- `_beginthreadex`: a handle, and a thread. -/
@[simps -fullyApplied]
def beginThread (σ : ServerState) (pr : ProcId) : ServerState :=
  { σ with
    handles := Function.update σ.handles .thread (insert pr (σ.handles .thread))
    threads := insert pr σ.threads }

/-- `delete`, with `CDiskProcessor::~CDiskProcessor`: what is not NULL is freed, closed or
released.  The thread's handle is closed, the thread is not stopped. -/
@[simps -fullyApplied]
def delete (σ : ServerState) (pr : ProcId) : ServerState :=
  { σ with
    processors := σ.processors.erase pr
    handles := fun h => (σ.handles h).erase pr
    storages := Function.update σ.storages pr none }

@[simps -fullyApplied]
def setMap (σ : ServerState) (diskId : ULONG) (x : Option ProcId) : ServerState :=
  { σ with diskMap := Function.update σ.diskMap diskId x }

@[simps -fullyApplied]
def setBus (σ : ServerState) (b : Bus) : ServerState := { σ with bus := b }

/-! ## The routines -/

/-- `CPluginManager::FindPlugin`. -/
def findPlugin (σ : ServerState) (diskType : WString) : Option IPlugin :=
  σ.pluginMap (diskType.map towlower)

/-- `CDiskServer::CreateDiskStorage`. -/
def createDiskStorage (σ : ServerState) (diskType diskName : WString) : Option Geometry :=
  (σ.findPlugin diskType).bind fun plugin => plugin diskName

/-- `CDiskProcessor::Init`. -/
def init (σ : ServerState) (o : Outcomes) (pr : ProcId) (diskType diskName : WString) :
    Bool × ServerState :=
  if o.buffer = false then (false, σ)
  else
    let σ := σ.acquire .buffer pr
    if o.event = false then (false, σ)
    else
      let σ := σ.acquire .event pr
      if o.removeEvent = false then (false, σ)
      else
        let σ := σ.acquire .removeEvent pr
        match σ.createDiskStorage diskType diskName with
        | none => (false, σ)
        | some g =>
          let σ := σ.openStorage pr g
          if o.thread = false then (false, σ) else (true, σ.beginThread pr)

/-- `CDiskServer::CreateDiskProcessor`. -/
def createDiskProcessor (σ : ServerState) (o : Outcomes) (diskId : ULONG)
    (diskType diskName : WString) : Option ProcId × ServerState :=
  if o.alloc = false then (none, σ)
  else
    let disk := σ.next
    match (σ.construct diskId).init o disk diskType diskName with
    | (false, σ) => (none, σ.delete disk)
    | (true, σ) => (some disk, σ)

/-- `CDiskContainer::AddDisk`. -/
def containerAddDisk (σ : ServerState) (diskId : ULONG) (disk : ProcId) : Bool × ServerState :=
  match σ.diskMap diskId with
  | none => (true, σ.setMap diskId (some disk))
  | some _ => (false, σ)

/-- `CDiskContainer::RemoveDisk`. -/
def containerRemoveDisk (σ : ServerState) (diskId : ULONG) : ServerState :=
  match σ.diskMap diskId with
  | none => σ
  | some dp => (σ.delete dp).setMap diskId none

/-- `CDiskProcessor::GetNumBlocks` and `GetBlockSize`. -/
def geometry (σ : ServerState) (disk : ProcId) : Geometry := (σ.storages disk).getD ⟨0, 0⟩

/-- `CDiskServer::RegisterWithDriver`. -/
def registerWithDriver (σ : ServerState) (o : Outcomes) (diskId : ULONG) (disk : ProcId) :
    Bool × ServerState :=
  let r := σ.bus.ioctlAddDisk o.device
    (VirtualDisk.registerWithDriver diskId (σ.geometry disk) disk disk)
  (ntSuccess r.1, σ.setBus r.2)

/-- **`CDiskServer::AddDisk`.** -/
def addDisk (σ : ServerState) (o : Outcomes) (diskId : ULONG) (diskType diskName : WString) :
    Bool × ServerState :=
  match σ.createDiskProcessor o diskId diskType diskName with
  | (none, σ) => (false, σ)
  | (some disk, σ) =>
    if o.insert = false then (false, σ.delete disk)
    else match σ.containerAddDisk diskId disk with
      | (false, σ) => (false, σ.delete disk)
      | (true, σ) => match σ.registerWithDriver o diskId disk with
        | (false, σ) => (false, σ.containerRemoveDisk diskId)
        | (true, σ) => (true, σ)

/-! ## Numbers given out -/

/-- Whatever is in use is in use under a number that was given out. -/
structure Fresh (σ : ServerState) : Prop where
  processors : ∀ pr ∈ σ.processors, pr < σ.next
  handles : ∀ h, ∀ pr ∈ σ.handles h, pr < σ.next
  storages : ∀ pr, σ.storages pr ≠ none → pr < σ.next
  threads : ∀ pr ∈ σ.threads, pr < σ.next
  disks : ∀ p ∈ σ.bus.fdo.listOfPDOs, p < σ.bus.pdoCount

variable {σ σ' : ServerState} {o : Outcomes} {pr : ProcId} {diskId : ULONG}
  {diskType diskName : WString} {g : Geometry} {dd : BusenumAddDisk} {ok : Bool}

namespace Fresh

theorem construct (h : σ.Fresh) : (σ.construct diskId).Fresh where
  processors pr hpr := by
    rcases Finset.mem_insert.mp hpr with rfl | hpr
    · exact Nat.lt_succ_self _
    · exact Nat.lt_succ_of_lt (h.processors pr hpr)
  handles k pr hpr := Nat.lt_succ_of_lt (h.handles k pr hpr)
  storages pr hpr := Nat.lt_succ_of_lt (h.storages pr hpr)
  threads pr hpr := Nat.lt_succ_of_lt (h.threads pr hpr)
  disks := h.disks

theorem acquire (h : σ.Fresh) (hlt : pr < σ.next) (k : ProcHandle) : (σ.acquire k pr).Fresh where
  processors := h.processors
  handles := by
    intro k' q hq
    by_cases hk : k' = k
    · subst hk
      rw [acquire_handles, Function.update_self] at hq
      rcases Finset.mem_insert.mp hq with rfl | hq
      · exact hlt
      · exact h.handles k' q hq
    · rw [acquire_handles, Function.update_of_ne hk] at hq
      exact h.handles k' q hq
  storages := h.storages
  threads := h.threads
  disks := h.disks

theorem openStorage (h : σ.Fresh) (hlt : pr < σ.next) : (σ.openStorage pr g).Fresh where
  processors := h.processors
  handles := h.handles
  storages := by
    intro q hq
    by_cases hpr : q = pr
    · exact hpr ▸ hlt
    · rw [openStorage_storages, Function.update_of_ne hpr] at hq
      exact h.storages q hq
  threads := h.threads
  disks := h.disks

theorem beginThread (h : σ.Fresh) (hlt : pr < σ.next) : (σ.beginThread pr).Fresh where
  processors := h.processors
  handles := (h.acquire hlt .thread).handles
  storages := h.storages
  threads := by
    intro q hq
    rcases Finset.mem_insert.mp hq with rfl | hq
    · exact hlt
    · exact h.threads q hq
  disks := h.disks

theorem delete (h : σ.Fresh) (pr : ProcId) : (σ.delete pr).Fresh where
  processors q hq := h.processors q (Finset.mem_of_mem_erase hq)
  handles k q hq := h.handles k q (Finset.mem_of_mem_erase hq)
  storages := by
    intro q hq
    by_cases hpr : q = pr
    · rw [delete_storages, hpr, Function.update_self] at hq
      exact absurd rfl hq
    · rw [delete_storages, Function.update_of_ne hpr] at hq
      exact h.storages q hq
  threads := h.threads
  disks := h.disks

theorem setMap (h : σ.Fresh) (diskId : ULONG) (x : Option ProcId) : (σ.setMap diskId x).Fresh :=
  ⟨h.processors, h.handles, h.storages, h.threads, h.disks⟩

end Fresh

/-! ## What a failure leaves -/

/-- `σ'` is `σ` but for what is in use under the number `pr`; the threads are the same. -/
structure Extends (σ σ' : ServerState) (pr : ProcId) : Prop where
  processors : σ'.processors.erase pr = σ.processors
  handles : ∀ h, (σ'.handles h).erase pr = σ.handles h
  storages : Function.update σ'.storages pr none = σ.storages
  threads : σ'.threads = σ.threads
  diskMap : σ'.diskMap = σ.diskMap
  bus : σ'.bus = σ.bus

namespace Extends

theorem construct (h : σ.Fresh) : Extends σ (σ.construct diskId) σ.next where
  processors := Finset.erase_insert fun hpr => Nat.lt_irrefl _ (h.processors _ hpr)
  handles k := Finset.erase_eq_of_notMem fun hpr => Nat.lt_irrefl _ (h.handles k _ hpr)
  storages := by
    have hnone : σ.storages σ.next = none :=
      not_not.mp fun hpr => Nat.lt_irrefl _ (h.storages _ hpr)
    rw [construct_storages, ← hnone, Function.update_eq_self]
  threads := rfl
  diskMap := rfl
  bus := rfl

theorem acquire (h : Extends σ σ' pr) (k : ProcHandle) : Extends σ (σ'.acquire k pr) pr where
  processors := h.processors
  handles := by
    intro k'
    rw [← h.handles k', acquire_handles]
    by_cases hk : k' = k
    · rw [hk, Function.update_self, Finset.erase_insert_eq_erase]
    · rw [Function.update_of_ne hk]
  storages := h.storages
  threads := h.threads
  diskMap := h.diskMap
  bus := h.bus

theorem openStorage (h : Extends σ σ' pr) (g : Geometry) :
    Extends σ (σ'.openStorage pr g) pr where
  processors := h.processors
  handles := h.handles
  storages := by rw [openStorage_storages, Function.update_idem, h.storages]
  threads := h.threads
  diskMap := h.diskMap
  bus := h.bus

end Extends

/-- **A processor, its resources and its thread**, as `Init` leaves them. -/
def started (σ : ServerState) (diskId : ULONG) (g : Geometry) : ServerState :=
  (((((σ.construct diskId).acquire .buffer σ.next).acquire .event σ.next).acquire
    .removeEvent σ.next).openStorage σ.next g).beginThread σ.next

/-- `AddDisk` gets as far as to start the worker thread. -/
structure StartsThread (σ : ServerState) (o : Outcomes) (diskType diskName : WString) : Prop where
  alloc : o.alloc = true
  buffer : o.buffer = true
  event : o.event = true
  removeEvent : o.removeEvent = true
  storage : (σ.createDiskStorage diskType diskName).isSome = true
  thread : o.thread = true

@[simp] theorem createDiskStorage_construct :
    (σ.construct diskId).createDiskStorage = σ.createDiskStorage := rfl

@[simp] theorem createDiskStorage_acquire (k : ProcHandle) :
    (σ.acquire k pr).createDiskStorage = σ.createDiskStorage := rfl

/-- **The destructor gives back what an `Init` that failed had acquired.** -/
theorem createDiskProcessor_failed (diskId : ULONG) (h : σ.Fresh)
    (hs : ¬ σ.StartsThread o diskType diskName) :
    ∃ σ', σ.createDiskProcessor o diskId diskType diskName = (none, σ') ∧
      (σ' = σ ∨ ∃ σ'', σ' = σ''.delete σ.next ∧ Extends σ σ'' σ.next) := by
  have h₁ : Extends σ (σ.construct diskId) σ.next := .construct h
  have h₂ := h₁.acquire .buffer
  have h₃ := h₂.acquire .event
  have h₄ := h₃.acquire .removeEvent
  unfold createDiskProcessor init
  cases halloc : o.alloc with
  | false => exact ⟨σ, rfl, .inl rfl⟩
  | true =>
    cases hbuffer : o.buffer with
    | false => exact ⟨_, rfl, .inr ⟨_, rfl, h₁⟩⟩
    | true =>
      cases hevent : o.event with
      | false => exact ⟨_, rfl, .inr ⟨_, rfl, h₂⟩⟩
      | true =>
        cases hremove : o.removeEvent with
        | false => exact ⟨_, rfl, .inr ⟨_, rfl, h₃⟩⟩
        | true =>
          simp only [createDiskStorage_acquire, createDiskStorage_construct]
          cases hstorage : σ.createDiskStorage diskType diskName with
          | none => exact ⟨_, rfl, .inr ⟨_, rfl, h₄⟩⟩
          | some g =>
            cases hthread : o.thread with
            | false => exact ⟨_, rfl, .inr ⟨_, rfl, h₄.openStorage g⟩⟩
            | true =>
              exact absurd ⟨halloc, hbuffer, hevent, hremove, by simp [hstorage], hthread⟩ hs

/-- …and one that succeeded starts the thread. -/
theorem createDiskProcessor_started (diskId : ULONG) (hs : σ.StartsThread o diskType diskName) :
    ∃ g, σ.createDiskStorage diskType diskName = some g ∧
      σ.createDiskProcessor o diskId diskType diskName = (some σ.next, σ.started diskId g) := by
  obtain ⟨g, hg⟩ := Option.isSome_iff_exists.mp hs.storage
  refine ⟨g, hg, ?_⟩
  simp [createDiskProcessor, init, started, hs.alloc, hs.buffer, hs.event, hs.removeEvent,
    hs.thread, hg]

/-! ## All or nothing -/

/-- Nothing was added. -/
structure Unchanged (σ σ' : ServerState) : Prop where
  diskMap : σ'.diskMap = σ.diskMap
  processors : σ'.processors = σ.processors
  threads : σ'.threads = σ.threads
  storages : σ'.storages = σ.storages
  disks : σ'.bus.fdo.listOfPDOs = σ.bus.fdo.listOfPDOs

/-- The processor `pr` of the disk `diskId`, its thread, its storage, its entry of the map and its
PDO `p` were added, and nothing else. -/
structure Added (σ σ' : ServerState) (diskId : ULONG) (pr : ProcId) (p : PdoId) : Prop where
  diskMap : σ.diskMap diskId = none ∧ σ'.diskMap = Function.update σ.diskMap diskId (some pr)
  processors : pr ∉ σ.processors ∧ σ'.processors = insert pr σ.processors
  member : σ'.diskIds pr = diskId
  threads : pr ∉ σ.threads ∧ σ'.threads = insert pr σ.threads
  storages : σ.storages pr = none ∧ ∃ g, σ'.storages = Function.update σ.storages pr (some g)
  disks : p ∉ σ.bus.fdo.listOfPDOs ∧ σ'.bus.fdo.listOfPDOs = σ.bus.fdo.listOfPDOs ++ [p]
  pdo : (σ'.bus.pdos p).serialNo = diskId ∧ (σ'.bus.pdos p).buffer = pr ∧
    (σ'.bus.pdos p).removeEvent = pr

/-- **All or nothing**: what `AddDisk` returns tells which of the two it did. -/
structure AllOrNothing (σ : ServerState) (diskId : ULONG) (r : Bool × ServerState) : Prop where
  nothing : r.1 = false → σ.Unchanged r.2
  all : r.1 = true → ∃ pr p, σ.Added r.2 diskId pr p

/-- Nothing fails after the worker thread was started: the id is free and the insertion does not
throw, the driver's device is not deleted and has no disk with this id, and its calls succeed. -/
structure Takes (σ : ServerState) (o : Outcomes) (diskId : ULONG) : Prop where
  insert : o.insert = true
  free : σ.diskMap diskId = none
  notDeleted : σ.bus.fdo.devicePnPState ≠ .deleted
  unique : σ.bus.unique diskId = true
  device : o.device = true

/-- What is in use under a new number is given back by the destructor. -/
theorem Extends.unchanged (h : Extends σ σ' pr) : σ.Unchanged (σ'.delete pr) where
  diskMap := h.diskMap
  processors := h.processors
  threads := h.threads
  storages := h.storages
  disks := by rw [delete_bus, h.bus]

/-- **An `AddDisk` that fails before the thread is started leaves everything as it was.** -/
theorem addDisk_failed (diskId : ULONG) (h : σ.Fresh)
    (hs : ¬ σ.StartsThread o diskType diskName) :
    (σ.addDisk o diskId diskType diskName).1 = false ∧
      σ.Unchanged (σ.addDisk o diskId diskType diskName).2 := by
  obtain ⟨σ', he, hσ⟩ := createDiskProcessor_failed diskId h hs
  rw [addDisk, he]
  refine ⟨rfl, ?_⟩
  rcases hσ with rfl | ⟨σ'', rfl, hσ⟩
  · exact ⟨rfl, rfl, rfl, rfl, rfl⟩
  · exact hσ.unchanged

section Container

variable {disk dp : ProcId}

theorem containerAddDisk_free (h : σ.diskMap diskId = none) :
    σ.containerAddDisk diskId disk = (true, σ.setMap diskId (some disk)) := by
  simp [containerAddDisk, h]

theorem containerAddDisk_taken (h : σ.diskMap diskId = some dp) :
    σ.containerAddDisk diskId disk = (false, σ) := by
  simp [containerAddDisk, h]

theorem containerRemoveDisk_found (h : σ.diskMap diskId = some dp) :
    σ.containerRemoveDisk diskId = (σ.delete dp).setMap diskId none := by
  simp [containerRemoveDisk, h]

/-- The driver takes a disk, or refuses it and is left alone. -/
theorem registerWithDriver_taken (σ : ServerState) (disk : ProcId)
    (hd : σ.bus.fdo.devicePnPState ≠ .deleted)
    (hu : σ.bus.unique diskId = true) (hok : o.device = true) :
    σ.registerWithDriver o diskId disk = (true,
      let b := σ.bus.createPdo (VirtualDisk.registerWithDriver diskId (σ.geometry disk) disk disk)
      σ.setBus ((b.insertTailList σ.bus.pdoCount).setPdo σ.bus.pdoCount
        fun d => { d with deviceInitializing := false })) := by
  rw [registerWithDriver, Bus.ioctlAddDisk_taken _ _ _ ⟨hd, hu, hok⟩]
  rfl

theorem registerWithDriver_refused
    (h : ¬ (σ.bus.fdo.devicePnPState ≠ .deleted ∧ σ.bus.unique diskId = true ∧ o.device = true)) :
    σ.registerWithDriver o diskId disk = (false, σ) := by
  have hb := Bus.ioctlAddDisk_refused σ.bus o.device
    (VirtualDisk.registerWithDriver diskId (σ.geometry disk) disk disk) h
  rw [registerWithDriver, hb.1, hb.2]
  rfl

end Container

namespace Fresh

theorem init (h : σ.Fresh) (hlt : pr < σ.next) : (σ.init o pr diskType diskName).2.Fresh := by
  have h₁ := h.acquire hlt .buffer
  have h₂ := h₁.acquire hlt .event
  have h₃ := h₂.acquire hlt .removeEvent
  unfold ServerState.init
  cases o.buffer with
  | false => exact h
  | true =>
    cases o.event with
    | false => exact h₁
    | true =>
      cases o.removeEvent with
      | false => exact h₂
      | true =>
        simp only [createDiskStorage_acquire]
        cases σ.createDiskStorage diskType diskName with
        | none => exact h₃
        | some g =>
          cases o.thread with
          | false => exact h₃.openStorage hlt
          | true => exact (h₃.openStorage hlt).beginThread hlt

theorem createDiskProcessor (h : σ.Fresh) :
    (σ.createDiskProcessor o diskId diskType diskName).2.Fresh := by
  have hi : ((σ.construct diskId).init o σ.next diskType diskName).2.Fresh :=
    h.construct.init (Nat.lt_succ_self _)
  unfold ServerState.createDiskProcessor
  cases o.alloc with
  | false => exact h
  | true =>
    rcases hr : (σ.construct diskId).init o σ.next diskType diskName with ⟨b, σ'⟩
    rw [hr] at hi
    cases b with
    | false =>
      simp only [hr]
      exact hi.delete _
    | true =>
      simp only [hr]
      exact hi

theorem registerWithDriver {disk : ProcId} (h : σ.Fresh) :
    (σ.registerWithDriver o diskId disk).2.Fresh := by
  refine ⟨h.processors, h.handles, h.storages, h.threads, ?_⟩
  by_cases hb : σ.bus.fdo.devicePnPState ≠ .deleted ∧ σ.bus.unique diskId = true ∧ o.device = true
  · rw [registerWithDriver_taken _ _ hb.1 hb.2.1 hb.2.2]
    intro p hp
    rcases List.mem_append.mp hp with hp | hp
    · exact Nat.lt_succ_of_lt (h.disks p hp)
    · cases List.mem_singleton.mp hp
      exact Nat.lt_succ_self _
  · rw [registerWithDriver_refused hb]
    exact h.disks

/-- **Every number in use after `AddDisk` was given out.** -/
theorem addDisk (h : σ.Fresh) : (σ.addDisk o diskId diskType diskName).2.Fresh := by
  have hc : (σ.createDiskProcessor o diskId diskType diskName).2.Fresh := h.createDiskProcessor
  unfold ServerState.addDisk
  rcases hr : σ.createDiskProcessor o diskId diskType diskName with ⟨_ | disk, σ₁⟩
  all_goals rw [hr] at hc
  · exact hc
  cases o.insert with
  | false => exact hc.delete _
  | true =>
    cases hm : σ₁.diskMap diskId with
    | some dp =>
      simp only [containerAddDisk_taken hm, Bool.true_eq_false, if_false]
      exact hc.delete _
    | none =>
      simp only [containerAddDisk_free hm, Bool.true_eq_false, if_false]
      have hr : ((σ₁.setMap diskId (some disk)).registerWithDriver o diskId disk).2.Fresh :=
        (hc.setMap diskId (some disk)).registerWithDriver
      rcases hreg : (σ₁.setMap diskId (some disk)).registerWithDriver o diskId disk with ⟨b, σ₂⟩
      rw [hreg] at hr
      cases b with
      | true => exact hr
      | false =>
        show (σ₂.containerRemoveDisk diskId).Fresh
        unfold containerRemoveDisk
        split
        · exact hr
        · exact (hr.delete _).setMap _ _

end Fresh

/-- **An `AddDisk` that fails after the thread was started leaves it running.** -/
theorem addDisk_leaves_thread (hs : σ.StartsThread o diskType diskName)
    (ht : ¬ σ.Takes o diskId) :
    (σ.addDisk o diskId diskType diskName).1 = false ∧
      (σ.addDisk o diskId diskType diskName).2.threads = insert σ.next σ.threads := by
  obtain ⟨g, -, he⟩ := createDiskProcessor_started diskId hs
  rw [addDisk, he]
  cases hinsert : o.insert with
  | false => exact ⟨rfl, rfl⟩
  | true =>
    cases hm : σ.diskMap diskId with
    | some dp =>
      have hmap : (σ.started diskId g).diskMap diskId = some dp := hm
      simp only [containerAddDisk_taken hmap, Bool.true_eq_false, if_false]
      exact ⟨trivial, rfl⟩
    | none =>
      have hmap : (σ.started diskId g).diskMap diskId = none := hm
      have hr : ((σ.started diskId g).setMap diskId (some σ.next)).registerWithDriver o diskId
          σ.next = (false, (σ.started diskId g).setMap diskId (some σ.next)) :=
        registerWithDriver_refused fun hb => ht ⟨hinsert, hm, hb.1, hb.2.1, hb.2.2⟩
      have hfound : ((σ.started diskId g).setMap diskId (some σ.next)).diskMap diskId =
          some σ.next := Function.update_self ..
      simp only [containerAddDisk_free hmap, hr, containerRemoveDisk_found hfound,
        Bool.true_eq_false, if_false]
      exact ⟨trivial, rfl⟩

/-- **An `AddDisk` in which nothing fails adds one disk.** -/
theorem addDisk_added (h : σ.Fresh) (hs : σ.StartsThread o diskType diskName)
    (ht : σ.Takes o diskId) : (σ.addDisk o diskId diskType diskName).1 = true ∧
      σ.Added (σ.addDisk o diskId diskType diskName).2 diskId σ.next σ.bus.pdoCount := by
  obtain ⟨g, -, he⟩ := createDiskProcessor_started diskId hs
  have hmap : (σ.started diskId g).diskMap diskId = none := ht.free
  have hr := registerWithDriver_taken ((σ.started diskId g).setMap diskId (some σ.next)) σ.next
    ht.notDeleted ht.unique ht.device
  simp only [addDisk, he, ht.insert, containerAddDisk_free hmap, hr]
  refine ⟨rfl, ?_⟩
  constructor
  · exact ⟨ht.free, rfl⟩
  · exact ⟨fun hpr => Nat.lt_irrefl _ (h.processors _ hpr), rfl⟩
  · exact Function.update_self ..
  · exact ⟨fun hpr => Nat.lt_irrefl _ (h.threads _ hpr), rfl⟩
  · exact ⟨not_not.mp fun hpr => Nat.lt_irrefl _ (h.storages _ hpr), g, rfl⟩
  · exact ⟨fun hp => Nat.lt_irrefl _ (h.disks _ hp), rfl⟩
  · simp [started, Bus.newPdo, VirtualDisk.registerWithDriver]

end ServerState

/-- **The service**, as adding a disk finds it: any state in which nothing is in use under a number
still to be given out. -/
structure CDiskServer extends ServerState where
  fresh : toServerState.Fresh

namespace CDiskServer

/-- **`CDiskServer::AddDisk`**, from one such state to another. -/
def addDisk (σ : CDiskServer) (o : Outcomes) (diskId : ULONG) (diskType diskName : WString) :
    Bool × CDiskServer :=
  ((σ.toServerState.addDisk o diskId diskType diskName).1,
    ⟨(σ.toServerState.addDisk o diskId diskType diskName).2, σ.fresh.addDisk⟩)

/-- **Adding a disk is all or nothing** but for a failure after the worker thread was started. -/
theorem addDisk_all_or_nothing (σ : CDiskServer) (o : Outcomes) (diskId : ULONG)
    (diskType diskName : WString) :
    σ.AllOrNothing diskId ((σ.addDisk o diskId diskType diskName).1,
      (σ.addDisk o diskId diskType diskName).2.toServerState) ↔
    (σ.StartsThread o diskType diskName → σ.Takes o diskId) := by
  constructor
  · intro h hs
    by_contra ht
    obtain ⟨hfalse, hthreads⟩ := ServerState.addDisk_leaves_thread hs ht
    have hsame := (h.nothing hfalse).threads
    have hnew : σ.next ∈ σ.threads := by
      rw [← hsame]
      show σ.next ∈ (σ.toServerState.addDisk o diskId diskType diskName).2.threads
      rw [hthreads]
      exact Finset.mem_insert_self _ _
    exact Nat.lt_irrefl _ (σ.fresh.threads _ hnew)
  · intro h
    by_cases hs : σ.StartsThread o diskType diskName
    · obtain ⟨htrue, hadded⟩ := ServerState.addDisk_added σ.fresh hs (h hs)
      exact ⟨fun hfalse => absurd (htrue.symm.trans hfalse) (by simp), fun _ => ⟨_, _, hadded⟩⟩
    · obtain ⟨hfalse, hsame⟩ := ServerState.addDisk_failed diskId σ.fresh hs
      exact ⟨fun _ => hsame, fun htrue => absurd (hfalse.symm.trans htrue) (by simp)⟩

/-- A service without disks and with one plugin, whose storages have eight blocks. -/
def onePlugin : CDiskServer where
  pluginMap := fun _ => some fun _ => some ⟨8, 512⟩
  fresh := ⟨by simp, by simp, by simp, by simp, fun p hp => by cases hp⟩

/-- **A disk whose id is taken leaves a thread behind.** -/
theorem not_addDisk_all_or_nothing : ¬ ∀ (σ : CDiskServer) (o : Outcomes) (diskId : ULONG)
    (diskType diskName : WString), σ.AllOrNothing diskId
      ((σ.addDisk o diskId diskType diskName).1,
        (σ.addDisk o diskId diskType diskName).2.toServerState) := by
  intro h
  have hsame :=
    ((h (onePlugin.addDisk {} 1 [] []).2 {} 1 [] []).nothing (by decide +kernel)).threads
  exact absurd hsame (by decide +kernel)

end CDiskServer

/-! ## The steps it is made of -/

/-- **`IOCTL_BUSENUM_ADD_DISK` is what the driver's steps make of it**, when no
other thread acts. -/
theorem Driver.exec_addDisk {d : Driver} {t : Tid} (dd : BusenumAddDisk) (ok : Bool)
    (hidle : d.calls t = .idle) (hm : d.bus.fdo.mutex = none) :
    ∃ d₁ as, d.step (.call t (.addDisk dd)) = some d₁ ∧ (∀ a ∈ as, ∃ ok, a = .step t ok) ∧
      ∃ d₂, Driver.lts.exec (fun _ _ => true) as d₁ = some d₂ ∧
        d₂.bus = (d.bus.ioctlAddDisk ok dd).2 ∧
        d₂.calls t = .ret (d.bus.ioctlAddDisk ok dd).1 := by
  refine ⟨d.put t (d.bus, d.bus.dispatch (.addUnique dd)), ?_⟩
  have hcall : d.step (.call t (.addDisk dd)) =
      some (d.put t (d.bus, d.bus.dispatch (.addUnique dd))) := by
    simp [Driver.step, hidle, Bus.enter]
  by_cases hd : d.bus.fdo.devicePnPState = .deleted
  · refine ⟨[], hcall, by simp, ?_⟩
    simp [Lts.exec, Bus.dispatch, Bus.ioctlAddDisk, hd]
  cases hu : d.bus.unique dd.handle with
  | false =>
    refine ⟨[.step t true], hcall, by simp, ?_⟩
    simp [Lts.exec, Driver.lts, Driver.step, Bus.dispatch, Bus.ioctlAddDisk, hd, Pc.step,
      Bus.addUniqueStep, hm, hu]
  | true =>
    cases ok with
    | false =>
      refine ⟨[.step t true, .step t false], hcall, by simp, ?_⟩
      simp [Lts.exec, Driver.lts, Driver.step, Bus.dispatch, Bus.ioctlAddDisk, hd, Pc.step,
        Bus.addUniqueStep, hm, hu, Bus.addCreateStep]
    | true =>
      refine ⟨[.step t true, .step t true, .step t true], hcall, by simp, ?_⟩
      simp [Lts.exec, Driver.lts, Driver.step, Bus.dispatch, Bus.ioctlAddDisk, hd, Pc.step,
        Bus.addUniqueStep, hm, hu, Bus.addCreateStep, Bus.addInsertStep]

namespace System

/-- The service's threads and the driver, as adding a disk finds them. -/
structure Embeds (σ : ServerState) (d : Driver) (v : Service) : Prop where
  next : σ.next = v.procCount
  processors : ∀ pr, pr ∈ σ.processors ↔ (v.procs pr).alive = true
  diskIds : ∀ pr, σ.diskIds pr = (v.procs pr).diskId
  storages : ∀ pr, σ.storages pr =
    if (v.procs pr).alive then some (v.procs pr).geometry else none
  threads : ∀ pr, pr ∈ σ.threads ↔ (v.procs pr).pc ≠ .exited
  diskMap : σ.diskMap = v.diskMap
  bus : σ.bus = d.bus

section Embeds

variable {σ : ServerState} {d d' : Driver} {v : Service} {pr : ProcId} {diskId : ULONG}
  {g : Geometry}

theorem Embeds.started (h : Embeds σ d v) (diskId : ULONG) (g : Geometry) (file : FileId) :
    Embeds (σ.started diskId g) d (v.createProc diskId file g) := by
  obtain ⟨hnext, hprocs, hids, hstorages, hthreads, hmap, hbus⟩ := h
  refine ⟨congrArg (· + 1) hnext, ?_, ?_, ?_, ?_, hmap, hbus⟩
  all_goals
    intro pr
    by_cases hpr : pr = v.procCount
    · simp [ServerState.started, hnext, hpr]
    · simp [ServerState.started, hnext, hpr, hprocs, hids, hstorages, hthreads]

theorem Embeds.delete (h : Embeds σ d v) : Embeds (σ.delete pr) d (v.deleteProc pr) := by
  obtain ⟨hnext, hprocs, hids, hstorages, hthreads, hmap, hbus⟩ := h
  refine ⟨hnext, ?_, ?_, ?_, ?_, hmap, hbus⟩
  all_goals
    intro pr₂
    by_cases hpr : pr₂ = pr
    · simp [hpr, hids, hthreads]
    · simp [hpr, hprocs, hids, hstorages, hthreads]

theorem Embeds.setMap (h : Embeds σ d v) (diskId : ULONG) (x : Option ProcId) :
    Embeds (σ.setMap diskId x) d (v.setMap diskId x) :=
  ⟨h.next, h.processors, h.diskIds, h.storages, h.threads,
    by simp [h.diskMap], h.bus⟩

theorem Embeds.setBus (h : Embeds σ d v) : Embeds (σ.setBus d'.bus) d' v :=
  ⟨h.next, h.processors, h.diskIds, h.storages, h.threads, h.diskMap, rfl⟩

theorem Embeds.removeDisk (h : Embeds σ d v) (diskId : ULONG) :
    Embeds (σ.containerRemoveDisk diskId) d (v.removeDisk diskId) := by
  unfold ServerState.containerRemoveDisk Service.removeDisk
  rw [h.diskMap]
  cases v.diskMap diskId with
  | none => exact h
  | some pr => exact h.delete.setMap diskId none

/-- What adding a disk finds does not tell where the workers are. -/
theorem Embeds.frame {v' : Service} (h : Embeds σ d v) (hcount : v'.procCount = v.procCount)
    (hprocs : ∀ pr, ∃ registered, v'.procs pr = { v.procs pr with registered })
    (hmap : v'.diskMap = v.diskMap) (hbus : d'.bus = d.bus) : Embeds σ d' v' := by
  obtain ⟨h₁, h₂, h₃, h₄, h₅, h₆, h₇⟩ := h
  refine ⟨h₁.trans hcount.symm, ?_, ?_, ?_, ?_, h₆.trans hmap.symm, h₇.trans hbus.symm⟩
  all_goals
    intro pr
    obtain ⟨x, hx⟩ := hprocs pr
    rw [hx]
  exacts [h₂ pr, h₃ pr, h₄ pr, h₅ pr]

variable {files : FileId → File}

/-- Steps of the driver's that the service has no part in. -/
theorem exec_driver {as : List Action} (he : Driver.lts.exec (fun _ _ => true) as d = some d')
    (ha : ∀ a ∈ as, a.external = true) :
    (lts files).exec (fun _ _ => true) (as.map .driver) ⟨d, v⟩ = some ⟨d', v⟩ := by
  induction as generalizing d with
  | nil => exact congrArg _ (congrArg (System.mk · v) (Option.some.inj he))
  | cons a as ih =>
    obtain ⟨d₁, h₁, h₂⟩ := Option.bind_eq_some_iff.mp he
    have hs : step ⟨d, v⟩ (.driver a) = some ⟨d₁, v⟩ := by
      have hd : d.step a = some d₁ := h₁
      simp [step, Service.step, ha a (by simp), perform, hd]
    rw [List.map_cons, Lts.exec_cons _ rfl hs]
    exact ih h₂ fun b hb => ha b (by simp [hb])

variable {k : ℕ} {o : Outcomes} {diskType diskName : WString}

/-- The worker is called and creates the processor. -/
theorem exec_create (hk : v.rpcs k = .idle) (diskId : ULONG) (file : FileId) (g : Geometry) :
    (lts files).exec (fun _ _ => true) [.rpcCall k (.addDisk diskId file g), .rpc k true] ⟨d, v⟩ =
      some ⟨d, (v.createProc diskId file g).setRpc k (.insert v.procCount)⟩ := by
  simp [Lts.exec, lts, step, Service.step, Service.rpcStep, perform, hk, Service.setRpc,
    Service.createProc]

/-- It finds the id taken, and deletes the processor. -/
theorem exec_taken {dp : ProcId} (hk : v.rpcs k = .insert pr)
    (hm : v.diskMap (v.procs pr).diskId = some dp) :
    (lts files).exec (fun _ _ => true) [.rpc k true, .rpc k true] ⟨d, v⟩ =
      some ⟨d, (v.deleteProc pr).setRpc k (.done false)⟩ := by
  simp [Lts.exec, lts, step, Service.step, Service.rpcStep, perform, hk, hm, Service.setRpc,
    Service.deleteProc, Service.setProc]

/-- It enters the processor in the map and calls the driver, which takes the disk or does not. -/
theorem exec_register (hk : v.rpcs k = .insert pr) (hmap : v.diskMap (v.procs pr).diskId = none)
    (hc : d.calls (.rpc k) = .idle) (hm : d.bus.fdo.mutex = none) (ok : Bool) :
    let dd := registerWithDriver (v.procs pr).diskId (v.procs pr).geometry pr pr
    let v' := v.setMap (v.procs pr).diskId (some pr)
    ∃ as d', (lts files).exec (fun _ _ => true) as ⟨d, v⟩ = some ⟨d',
        if ntSuccess (d.bus.ioctlAddDisk ok dd).1 then
          (v'.setProc pr fun x => { x with registered := true }).setRpc k (.done true)
        else (v'.removeDisk (v.procs pr).diskId).setRpc k (.done false)⟩ ∧
      d'.bus = (d.bus.ioctlAddDisk ok dd).2 := by
  intro dd v'
  obtain ⟨d₁, as, hcall, has, d₂, hrun, hbus, hret⟩ := Driver.exec_addDisk dd ok hc hm
  have e₁ : step ⟨d, v⟩ (.rpc k true) = some ⟨d, v'.setRpc k (.register pr)⟩ := by
    simp [step, Service.step, Service.rpcStep, perform, hk, hmap, v']
  have e₂ : step ⟨d, v'.setRpc k (.register pr)⟩ (.rpc k true) =
      some ⟨d₁, v'.setRpc k (.registering pr)⟩ := by
    have hcall' : d.step (.call (.rpc k) (.addDisk (registerWithDriver (v.procs pr).diskId
      (v.procs pr).geometry pr pr))) = some d₁ := hcall
    simp [step, Service.step, Service.rpcStep, perform, hcall', v', Service.setRpc]
  have e₃ : (lts files).exec (fun _ _ => true) (as.map .driver)
      ⟨d₁, v'.setRpc k (.registering pr)⟩ = some ⟨d₂, v'.setRpc k (.registering pr)⟩ := by
    refine exec_driver hrun fun a ha => ?_
    obtain ⟨ok, rfl⟩ := has a ha
    rfl
  have e₄ : step ⟨d₂, v'.setRpc k (.registering pr)⟩ (.rpc k true) =
      some ⟨d₂.put (.rpc k) (d₂.bus, .idle), if ntSuccess (d.bus.ioctlAddDisk ok dd).1 then
        (v'.setProc pr fun x => { x with registered := true }).setRpc k (.done true)
      else v'.setRpc k (.undo pr)⟩ := by
    simp only [step, Service.step, Service.rpcStep, Service.setRpc_rpcs, Function.update_self, hret]
    simp [perform, Driver.step, hret, Service.setRpc, Service.setProc]
  have hrun₃ : (lts files).exec (fun _ _ => true) (.rpc k true :: .rpc k true :: as.map .driver)
      ⟨d, v⟩ = some ⟨d₂, v'.setRpc k (.registering pr)⟩ := by
    rw [Lts.exec_cons _ rfl e₁, Lts.exec_cons _ rfl e₂, e₃]
  cases hs : ntSuccess (d.bus.ioctlAddDisk ok dd).1 with
  | true =>
    rw [hs] at e₄
    exact ⟨_, _, (Lts.exec_append hrun₃).trans (Lts.exec_cons [] rfl e₄), hbus⟩
  | false =>
    rw [hs] at e₄
    have e₅ : step ⟨d₂.put (.rpc k) (d₂.bus, .idle), v'.setRpc k (.undo pr)⟩ (.rpc k true) =
        some ⟨d₂.put (.rpc k) (d₂.bus, .idle),
          (v'.removeDisk (v.procs pr).diskId).setRpc k (.done false)⟩ := by
      simp [step, Service.step, Service.rpcStep, perform, v', Service.removeDisk, Service.setRpc,
        Service.setMap, Service.deleteProc, Service.setProc]
    have hrun₄ := (Lts.exec_append hrun₃).trans (Lts.exec_cons [.rpc k true] rfl e₄)
    exact ⟨_, _, hrun₄.trans (Lts.exec_cons [] rfl e₅), hbus⟩

/-- **`AddDisk`, once the thread is started, is what the worker's steps make of it**, when no other
thread acts. -/
theorem exec_addDisk (h : Embeds σ d v) (hk : v.rpcs k = .idle) (hc : d.calls (.rpc k) = .idle)
    (hm : d.bus.fdo.mutex = none) (hs : σ.StartsThread o diskType diskName)
    (hi : o.insert = true) (file : FileId) :
    ∃ as s, (lts files).exec (fun _ _ => true) as ⟨d, v⟩ = some s ∧
      s.service.rpcs k = .done (σ.addDisk o diskId diskType diskName).1 ∧
      Embeds (σ.addDisk o diskId diskType diskName).2 s.driver s.service := by
  obtain ⟨g, -, he⟩ := ServerState.createDiskProcessor_started diskId hs
  have hstarted := h.started diskId g file
  have hcreate : (lts files).exec (fun _ _ => true) _ ⟨d, v⟩ = _ := exec_create hk diskId file g
  let v₁ := (v.createProc diskId file g).setRpc k (.insert v.procCount)
  have hinserted : Embeds (σ.started diskId g) d v₁ :=
    hstarted.frame rfl (fun pr => ⟨_, rfl⟩) rfl rfl
  have hins : v₁.rpcs k = .insert v.procCount := by simp [v₁]
  have hself : v₁.procs v.procCount =
      { diskId, file, geometry := g, pc := .wait, alive := true } := by simp [v₁]
  cases hmap : σ.diskMap diskId with
  | some dp =>
    have hmap₁ : (σ.started diskId g).diskMap diskId = some dp := hmap
    have htaken : v₁.diskMap (v₁.procs v.procCount).diskId = some dp := by
      rw [hself]
      exact h.diskMap ▸ hmap
    refine ⟨_, ⟨d, (v₁.deleteProc v.procCount).setRpc k (.done false)⟩,
      (Lts.exec_append hcreate).trans (exec_taken hins htaken), ?_⟩
    simp only [ServerState.addDisk, he, hi, ServerState.containerAddDisk_taken hmap₁,
      Bool.true_eq_false, if_false]
    refine ⟨by simp, ?_⟩
    rw [h.next]
    exact hstarted.delete.frame rfl (fun pr => ⟨_, rfl⟩) rfl rfl
  | none =>
    have hmap₁ : (σ.started diskId g).diskMap diskId = none := hmap
    have hfree : v₁.diskMap (v₁.procs v.procCount).diskId = none := by
      rw [hself]
      exact h.diskMap ▸ hmap
    obtain ⟨as, d', hrun, hbus⟩ := exec_register hins hfree hc hm o.device
    refine ⟨_, _, (Lts.exec_append hcreate).trans hrun, ?_⟩
    rw [hself] at hbus ⊢
    -- the same call, in the words of the two
    have hreg : ((σ.started diskId g).setMap diskId (some σ.next)).registerWithDriver o diskId
        σ.next = (ntSuccess (d.bus.ioctlAddDisk o.device
          (registerWithDriver diskId g v.procCount v.procCount)).1,
        ((σ.started diskId g).setMap diskId (some σ.next)).setBus d'.bus) := by
      simp only [ServerState.registerWithDriver, hbus, ← h.bus, ← h.next]
      simp [ServerState.geometry, ServerState.started]
    have hmapped : Embeds (((σ.started diskId g).setMap diskId (some σ.next)).setBus d'.bus) d'
        (v₁.setMap diskId (some v.procCount)) := by
      rw [h.next]
      exact (hinserted.setMap diskId (some v.procCount)).setBus
    simp only [ServerState.addDisk, he, hi, ServerState.containerAddDisk_free hmap₁, hreg,
      Bool.true_eq_false, if_false]
    cases hok : ntSuccess (d.bus.ioctlAddDisk o.device
      (registerWithDriver diskId g v.procCount v.procCount)).1 with
    | true =>
      refine ⟨by simp, ?_⟩
      refine hmapped.frame rfl (fun pr => ?_) rfl rfl
      by_cases hpr : pr = v.procCount
      · subst hpr
        exact ⟨true, by simp⟩
      · exact ⟨_, by simp [hpr]; rfl⟩
    | false =>
      refine ⟨by simp, ?_⟩
      exact (hmapped.removeDisk diskId).frame rfl (fun pr => ⟨_, rfl⟩) rfl rfl

end Embeds

end System

end VirtualDisk
