import VirtualDisk.Service.AddDisk

/-!
# Service/RpcStatus — what the RPCs report

The RPC AddDisk reports a failure as the thread's last-error code, which a Win32 call that fails
sets and every other leaves.  The routines of `Service/AddDisk` are followed here with that code:
what fails without setting it is reported with the code the thread had before, and that is success
when it was zero.  The RPC RemoveDisk reports success whatever the driver answers.
-/

namespace VirtualDisk

open Machinery

/-! ## The last-error code -/

/-- A code a Win32 call that fails sets. -/
abbrev Win32Error := { code : ULONG // code ≠ 0 }

/-- What a call sets: nothing, when it does not fail. -/
abbrev Win32Result := Option Win32Error

/-- The last-error code after a call. -/
def Win32Result.set (r : Win32Result) (e : ULONG) : ULONG := (r.map Subtype.val).getD e

@[simp] theorem Win32Result.set_eq_zero {r : Win32Result} {e : ULONG} :
    r.set e = 0 ↔ r = none ∧ e = 0 := by
  cases r with
  | none => simp [set]
  | some c => simp [set, c.2]

def rpcOk : ULONG := 0
def rpcAccessDenied : ULONG := 5
def errorFileNotFound : ULONG := 2
def errorUnknownException : ULONG := 0xE0000239

/-! ## The outcomes -/

/-- What `IPlugin::CreateDisk` returns, if it returns. -/
inductive CreateDiskResult
  | storage (g : Geometry)
  | null
  | throws
  deriving DecidableEq

/-- `IPlugin::CreateDisk`, with what its last failing call set. -/
structure CreateDiskOutcome where
  result : CreateDiskResult
  code : Win32Result := none

/-- The storage created. -/
def CreateDiskResult.geometry : CreateDiskResult → Option Geometry
  | .storage g => some g
  | _ => none

/-- What opening a file and asking for its size gives. -/
inductive FileOpened
  | openFails (c : Win32Error)
  | sizeFails (c : Win32Error)
  | size (fileSize : ℕ)

/-- `CFilePlugin::CreateDisk`; `alloc` says whether `new` succeeds, `close` is the outcome of the
destructor's `CloseHandle`. -/
def fileCreateDisk (alloc : Bool) (file : FileOpened) (close : Win32Result) : CreateDiskOutcome :=
  if alloc = false then { result := .null }
  else match file with
    | .openFails c => { result := .null, code := some c }
    | .sizeFails c => { result := .null, code := close.or (some c) }
    | .size fileSize => match fileStorageInit fileSize with
      | none => { result := .null, code := close }
      | some g => { result := .storage g }

/-- The plugins, by type: what each makes of a name. -/
abbrev Plugins := WString → Option (WString → CreateDiskOutcome)

/-- The plugins are those of the map. -/
def Plugins.Of (plugins : Plugins) (σ : ServerState) : Prop :=
  σ.pluginMap = fun diskType =>
    (plugins diskType).map fun plugin diskName => (plugin diskName).result.geometry

/-- What the calls of `CDiskProcessor::~CDiskProcessor` set: the log's, `VirtualFree` or
`CloseHandle` of each member, the storage's `Release`. -/
structure Cleanup where
  format : Win32Result := none
  close : ProcHandle → Win32Result := fun _ => none
  release : Win32Result := none

/-- The outcomes of the calls of an RPC.  `beginThread` is what a `_beginthreadex` that fails sets;
`deviceIoControl` what a DeviceIoControl sets that the driver refuses. -/
structure RpcOutcomes where
  enter : Win32Result := none
  impersonate : ULONG := rpcOk
  impersonated : Win32Result := none
  alloc : Bool := true
  buffer : Win32Result := none
  event : Win32Result := none
  removeEvent : Win32Result := none
  beginThread : Option Win32Result := none
  insert : Bool := true
  device : Bool := true
  deviceIoControl : Win32Error := ⟨87, by decide⟩
  registered : Win32Result := none
  cleanup : Cleanup := {}

/-- The same, without the codes. -/
def RpcOutcomes.outcomes (o : RpcOutcomes) : Outcomes where
  alloc := o.alloc
  buffer := o.buffer.isNone
  event := o.event.isNone
  removeEvent := o.removeEvent.isNone
  thread := o.beginThread.isNone
  insert := o.insert
  device := o.device

/-! ## The routines -/

/-- A result, the state and the last-error code. -/
abbrev Rpc (α : Type) := α × ServerState × ULONG

namespace Rpc

/-- `CDiskServer::CreateDiskStorage`. -/
def createDiskStorage (plugins : Plugins) (diskType diskName : WString) (e : ULONG) :
    Option Geometry × ULONG :=
  match plugins (diskType.map towlower) with
  | none => (none, errorFileNotFound)
  | some plugin =>
    match plugin diskName with
    | ⟨.throws, _⟩ => (none, errorUnknownException)
    | ⟨.null, code⟩ => (none, code.set e)
    | ⟨.storage g, code⟩ => (some g, code.set e)

/-- The call on a member that is not NULL. -/
def closeMember (σ : ServerState) (c : Cleanup) (pr : ProcId) (e : ULONG) (h : ProcHandle) :
    ULONG :=
  if pr ∈ σ.handles h then (c.close h).set e else e

/-- `delete`, with `CDiskProcessor::~CDiskProcessor`. -/
def delete (σ : ServerState) (c : Cleanup) (pr : ProcId) (e : ULONG) : ServerState × ULONG :=
  let e := c.format.set e
  let e := closeMember σ c pr e .buffer
  let e := closeMember σ c pr e .event
  let e := closeMember σ c pr e .removeEvent
  let e := if (σ.storages pr).isSome then c.release.set e else e
  let e := closeMember σ c pr e .thread
  (σ.delete pr, e)

/-- `CDiskProcessor::Init`. -/
def init (plugins : Plugins) (σ : ServerState) (o : RpcOutcomes) (pr : ProcId)
    (diskType diskName : WString) (e : ULONG) : Rpc Bool :=
  match o.buffer with
  | some c => (false, σ, c)
  | none =>
    let σ := σ.acquire .buffer pr
    match o.event with
    | some c => (false, σ, c)
    | none =>
      let σ := σ.acquire .event pr
      match o.removeEvent with
      | some c => (false, σ, c)
      | none =>
        let σ := σ.acquire .removeEvent pr
        match createDiskStorage plugins diskType diskName e with
        | (none, e) => (false, σ, e)
        | (some g, e) =>
          let σ := σ.openStorage pr g
          match o.beginThread with
          | some r => (false, σ, r.set e)
          | none => (true, σ.beginThread pr, e)

/-- `CDiskServer::CreateDiskProcessor`. -/
def createDiskProcessor (plugins : Plugins) (σ : ServerState) (o : RpcOutcomes) (diskId : ULONG)
    (diskType diskName : WString) (e : ULONG) : Rpc (Option ProcId) :=
  if o.alloc = false then (none, σ, e)
  else
    let disk := σ.next
    match init plugins (σ.construct diskId) o disk diskType diskName e with
    | (false, σ, e) => (none, delete σ o.cleanup disk e)
    | (true, σ, e) => (some disk, σ, e)

/-- `CDiskContainer::RemoveDisk`. -/
def containerRemoveDisk (σ : ServerState) (c : Cleanup) (diskId : ULONG) (e : ULONG) :
    ServerState × ULONG :=
  match σ.diskMap diskId with
  | none => (σ, e)
  | some dp => ((delete σ c dp e).1.setMap diskId none, (delete σ c dp e).2)

/-- `CDiskServer::RegisterWithDriver`. -/
def registerWithDriver (σ : ServerState) (o : RpcOutcomes) (diskId : ULONG) (disk : ProcId)
    (e : ULONG) : Rpc Bool :=
  match σ.registerWithDriver o.outcomes diskId disk with
  | (true, σ) => (true, σ, e)
  | (false, σ) => (false, σ, o.registered.set o.deviceIoControl)

/-- `CDiskServer::AddDisk`. -/
def addDisk (plugins : Plugins) (σ : ServerState) (o : RpcOutcomes) (diskId : ULONG)
    (diskType diskName : WString) (e : ULONG) : Rpc Bool :=
  match createDiskProcessor plugins σ o diskId diskType diskName e with
  | (none, σ, e) => (false, σ, e)
  | (some disk, σ, e) =>
    if o.insert = false then (false, delete σ o.cleanup disk e)
    else match σ.containerAddDisk diskId disk with
      | (false, σ) => (false, delete σ o.cleanup disk e)
      | (true, σ) => match registerWithDriver σ o diskId disk e with
        | (false, σ, e) => (false, containerRemoveDisk σ o.cleanup diskId e)
        | (true, σ, e) => (true, σ, e)

end Rpc

/-- `IOCTL_BUSENUM_REMOVE_DISK`, with the mutex free: what the routine returns, and the bus after
it. -/
def Bus.ioctlRemoveDisk (b : Bus) (handle : ULONG) : NTSTATUS × Bus :=
  if b.fdo.devicePnPState = .deleted then (statusNoSuchDevice, b)
  else if b.fdo.numPDOs = 0 then (statusNoSuchDevice, b)
  else match b.findPdo handle with
    | none => (statusInvalidParameter, b)
    | some p => (statusSuccess, b.resetRemoveEvent p)

/-- **The service**, with what its plugins make of a name. -/
structure RpcServer extends CDiskServer where
  plugins : Plugins
  plugins_of : plugins.Of toServerState

namespace RpcServer

/-- **The RPC AddDisk**, called with the last-error code `e`: its status, and the state. -/
def rpcAddDisk (s : RpcServer) (o : RpcOutcomes) (diskId : ULONG) (diskType diskName : WString)
    (e : ULONG) : ULONG × ServerState :=
  let e := o.enter.set e
  if o.impersonate ≠ rpcOk then (rpcAccessDenied, s.toServerState)
  else
    match Rpc.addDisk s.plugins s.toServerState o diskId diskType diskName
      (o.impersonated.set e) with
    | (true, σ, _) => (rpcOk, σ)
    | (false, σ, e) => (e, σ)

/-- **The RPC RemoveDisk.** -/
def rpcRemoveDisk (s : RpcServer) (o : RpcOutcomes) (diskId : ULONG) : ULONG × ServerState :=
  if o.impersonate ≠ rpcOk then (rpcAccessDenied, s.toServerState)
  else (rpcOk, s.toServerState.setBus (s.bus.ioctlRemoveDisk diskId).2)

/-- **The status of AddDisk is faithful**: success is reported exactly when the disk was added. -/
def AddDiskReported (s : RpcServer) (o : RpcOutcomes) (diskId : ULONG)
    (diskType diskName : WString) (e : ULONG) : Prop :=
  (s.rpcAddDisk o diskId diskType diskName e).1 = rpcOk ↔
    o.impersonate = rpcOk ∧
      (s.toCDiskServer.addDisk o.outcomes diskId diskType diskName).1 = true

/-- **The status of RemoveDisk is faithful**: success is reported exactly when the driver accepted
the removal. -/
def RemoveDiskReported (s : RpcServer) (o : RpcOutcomes) (diskId : ULONG) : Prop :=
  (s.rpcRemoveDisk o diskId).1 = rpcOk ↔
    o.impersonate = rpcOk ∧ ntSuccess (s.bus.ioctlRemoveDisk diskId).1 = true

end RpcServer

/-! ## Failures that set no code -/

/-- No call of the destructor fails, for an object with these members. -/
structure Cleanup.Quiet (c : Cleanup) (members : List ProcHandle) (storage : Bool) : Prop where
  format : c.format = none
  close : ∀ h ∈ members, c.close h = none
  release : storage = true → c.release = none

/-- What `Init` acquires before the storage was acquired. -/
structure RpcOutcomes.Acquires (o : RpcOutcomes) : Prop where
  alloc : o.alloc = true
  buffer : o.buffer = none
  event : o.event = none
  removeEvent : o.removeEvent = none

/-- **`CDiskServer::AddDisk` fails, and no call sets the last-error code**: there is no memory for
the processor, the plugin returns NULL, the thread does not start, or the disk is not inserted. -/
inductive SilentFailure (plugins : Plugins) (σ : ServerState) (o : RpcOutcomes) (diskId : ULONG)
    (diskType diskName : WString) : Prop
  | alloc (h : o.alloc = false)
  | storage (ha : o.Acquires) (plugin : WString → CreateDiskOutcome)
      (hp : plugins (diskType.map towlower) = some plugin)
      (hr : plugin diskName = ⟨.null, none⟩)
      (hq : o.cleanup.Quiet [.buffer, .event, .removeEvent] false)
  | thread (ha : o.Acquires) (plugin : WString → CreateDiskOutcome)
      (hp : plugins (diskType.map towlower) = some plugin) (g : Geometry)
      (hr : plugin diskName = ⟨.storage g, none⟩) (ht : o.beginThread = some none)
      (hq : o.cleanup.Quiet [.buffer, .event, .removeEvent] true)
  | insert (ha : o.Acquires) (plugin : WString → CreateDiskOutcome)
      (hp : plugins (diskType.map towlower) = some plugin) (g : Geometry)
      (hr : plugin diskName = ⟨.storage g, none⟩) (ht : o.beginThread = none)
      (hd : o.insert = false ∨ σ.diskMap diskId ≠ none)
      (hq : o.cleanup.Quiet [.buffer, .event, .removeEvent, .thread] true)

namespace Rpc

variable {plugins : Plugins} {σ : ServerState} {o : RpcOutcomes} {c : Cleanup} {pr : ProcId}
  {diskId e : ULONG} {diskType diskName : WString} {h : ProcHandle}

/-! ## Without the codes

The routines do what those of `Service/AddDisk` do. -/

theorem createDiskStorage_fst (diskType diskName : WString) (e : ULONG) (hp : plugins.Of σ) :
    (createDiskStorage plugins diskType diskName e).1 = σ.createDiskStorage diskType diskName := by
  have hf : σ.findPlugin diskType = (plugins (diskType.map towlower)).map
      fun plugin diskName => (plugin diskName).result.geometry := congrFun hp _
  rw [createDiskStorage, ServerState.createDiskStorage, hf]
  cases plugins (diskType.map towlower) with
  | none => rfl
  | some plugin =>
    rcases hr : plugin diskName with ⟨⟨⟩, code⟩ <;> simp [hr, CreateDiskResult.geometry]

theorem init_fst (o : RpcOutcomes) (pr : ProcId) (diskType diskName : WString) (e : ULONG)
    (hp : plugins.Of σ) :
    ((init plugins σ o pr diskType diskName e).1, (init plugins σ o pr diskType diskName e).2.1) =
      σ.init o.outcomes pr diskType diskName := by
  have hs := createDiskStorage_fst diskType diskName e hp
  unfold init ServerState.init
  cases hb : o.buffer with
  | some c => simp [RpcOutcomes.outcomes, hb]
  | none =>
    cases he : o.event with
    | some c => simp [RpcOutcomes.outcomes, hb, he]
    | none =>
      cases hr : o.removeEvent with
      | some c => simp [RpcOutcomes.outcomes, hb, he, hr]
      | none =>
        simp only [ServerState.createDiskStorage_acquire, ← hs]
        rcases createDiskStorage plugins diskType diskName e with ⟨_ | g, e'⟩
        · simp [RpcOutcomes.outcomes, hb, he, hr]
        · cases ht : o.beginThread <;> simp [RpcOutcomes.outcomes, hb, he, hr, ht]

theorem createDiskProcessor_fst (o : RpcOutcomes) (diskId : ULONG) (diskType diskName : WString)
    (e : ULONG) (hp : plugins.Of σ) :
    ((createDiskProcessor plugins σ o diskId diskType diskName e).1,
      (createDiskProcessor plugins σ o diskId diskType diskName e).2.1) =
      σ.createDiskProcessor o.outcomes diskId diskType diskName := by
  have hi := init_fst (σ := σ.construct diskId) o σ.next diskType diskName e hp
  unfold createDiskProcessor ServerState.createDiskProcessor
  cases ha : o.alloc with
  | false => simp [RpcOutcomes.outcomes, ha]
  | true =>
    simp only [← hi]
    rcases init plugins (σ.construct diskId) o σ.next diskType diskName e with ⟨⟨⟩, σ', e'⟩
    · simp [RpcOutcomes.outcomes, ha, delete]
    · simp [RpcOutcomes.outcomes, ha]

/-- **`AddDisk` does what it does without the codes.** -/
theorem addDisk_fst (o : RpcOutcomes) (diskId : ULONG) (diskType diskName : WString) (e : ULONG)
    (hp : plugins.Of σ) :
    ((addDisk plugins σ o diskId diskType diskName e).1,
      (addDisk plugins σ o diskId diskType diskName e).2.1) =
      σ.addDisk o.outcomes diskId diskType diskName := by
  have hc := createDiskProcessor_fst o diskId diskType diskName e hp
  unfold addDisk ServerState.addDisk
  rw [← hc]
  rcases createDiskProcessor plugins σ o diskId diskType diskName e with ⟨_ | disk, σ', e'⟩
  · rfl
  · cases hi : o.insert with
    | false => simp [RpcOutcomes.outcomes, hi, delete]
    | true =>
      rcases hd : σ'.containerAddDisk diskId disk with ⟨⟨⟩, σ''⟩
      · simp [RpcOutcomes.outcomes, hi, hd, delete]
      · rcases hr : σ''.registerWithDriver o.outcomes diskId disk with ⟨⟨⟩, τ⟩
        · cases hm : τ.diskMap diskId <;>
            simp [hd, hr, registerWithDriver, containerRemoveDisk,
              ServerState.containerRemoveDisk, hm, delete, show o.outcomes.insert = true from hi]
        · simp [hd, hr, registerWithDriver, show o.outcomes.insert = true from hi]

/-! ## What is left in the last-error code -/

theorem closeMember_eq_zero : closeMember σ c pr e h = 0 ↔
    (pr ∈ σ.handles h → c.close h = none) ∧ e = 0 := by
  unfold closeMember
  split
  case isTrue hm => simp [hm]
  case isFalse hm => simp [hm]

/-- **A destructor leaves no code exactly when** none of its calls sets one. -/
theorem delete_eq_zero : (delete σ c pr e).2 = 0 ↔
    e = 0 ∧ c.format = none ∧ (∀ h, pr ∈ σ.handles h → c.close h = none) ∧
      ((σ.storages pr).isSome = true → c.release = none) := by
  have hr : ∀ e : ULONG, (if (σ.storages pr).isSome then c.release.set e else e) = 0 ↔
      ((σ.storages pr).isSome = true → c.release = none) ∧ e = 0 := by
    intro e
    split
    case isTrue hs => simp [hs]
    case isFalse hs => simp [hs]
  simp only [delete, closeMember_eq_zero, hr, Win32Result.set_eq_zero]
  constructor
  · rintro ⟨ht, hs, hre, hev, hb, hf, he⟩
    refine ⟨he, hf, fun h => ?_, hs⟩
    cases h
    exacts [hb, hev, hre, ht]
  · rintro ⟨he, hf, hc, hs⟩
    exact ⟨hc _, hs, hc _, hc _, hc _, hf, he⟩

/-- The members that a processor has. -/
structure Holds (σ : ServerState) (pr : ProcId) (members : List ProcHandle) (storage : Bool) :
    Prop where
  handles : ∀ h, pr ∈ σ.handles h ↔ h ∈ members
  storages : (σ.storages pr).isSome = storage

theorem Holds.construct (hf : σ.Fresh) : Holds (σ.construct diskId) σ.next [] false where
  handles h := by
    have hnot : σ.next ∉ σ.handles h := fun hm => Nat.lt_irrefl _ (hf.handles h _ hm)
    simpa using hnot
  storages := by
    have hnone : σ.storages σ.next = none := not_not.mp fun hs => Nat.lt_irrefl _ (hf.storages _ hs)
    rw [ServerState.construct_storages, hnone]
    rfl

theorem Holds.acquire {members : List ProcHandle} {storage : Bool} (hh : Holds σ pr members storage)
    (k : ProcHandle) : Holds (σ.acquire k pr) pr (members ++ [k]) storage where
  handles h := by
    by_cases hk : h = k
    · simp [hk]
    · simp [hk, hh.handles]
  storages := hh.storages

theorem Holds.openStorage {members : List ProcHandle} {storage : Bool}
    (hh : Holds σ pr members storage) (g : Geometry) :
    Holds (σ.openStorage pr g) pr members true where
  handles := hh.handles
  storages := by simp

theorem Holds.beginThread {members : List ProcHandle} {storage : Bool}
    (hh : Holds σ pr members storage) :
    Holds (σ.beginThread pr) pr (members ++ [.thread]) storage where
  handles := (hh.acquire .thread).handles
  storages := hh.storages

theorem Holds.delete_eq_zero {members : List ProcHandle} {storage : Bool}
    (hh : Holds σ pr members storage) :
    (delete σ c pr e).2 = 0 ↔ e = 0 ∧ c.Quiet members storage := by
  rw [Rpc.delete_eq_zero, hh.storages]
  simp only [hh.handles]
  constructor
  · exact fun ⟨he, hf, hc, hs⟩ => ⟨he, hf, hc, hs⟩
  · exact fun ⟨he, hq⟩ => ⟨he, hq.format, hq.close, hq.release⟩

end Rpc

namespace SilentFailure

variable {plugins : Plugins} {σ : ServerState} {o : RpcOutcomes} {diskId : ULONG}
  {diskType diskName : WString} {plugin : WString → CreateDiskOutcome} {code r : Win32Result}
  {g : Geometry}

/-- The silent failures of a call whose plugin has this outcome. -/
theorem iff_of_plugin (ha : o.Acquires) (hp : plugins (diskType.map towlower) = some plugin) :
    SilentFailure plugins σ o diskId diskType diskName ↔
      (plugin diskName = ⟨.null, none⟩ ∧ o.cleanup.Quiet [.buffer, .event, .removeEvent] false) ∨
      ∃ g, plugin diskName = ⟨.storage g, none⟩ ∧
        ((o.beginThread = some none ∧ o.cleanup.Quiet [.buffer, .event, .removeEvent] true) ∨
          (o.beginThread = none ∧ (o.insert = false ∨ σ.diskMap diskId ≠ none) ∧
            o.cleanup.Quiet [.buffer, .event, .removeEvent, .thread] true)) := by
  constructor
  · rintro (h | ⟨-, plugin', hp', hr, hq⟩ | ⟨-, plugin', hp', g, hr, ht, hq⟩ |
      ⟨-, plugin', hp', g, hr, ht, hd, hq⟩)
    · exact absurd (h.symm.trans ha.alloc) (by decide)
    all_goals obtain rfl := Option.some.inj (hp.symm.trans hp')
    · exact .inl ⟨hr, hq⟩
    · exact .inr ⟨g, hr, .inl ⟨ht, hq⟩⟩
    · exact .inr ⟨g, hr, .inr ⟨ht, hd, hq⟩⟩
  · rintro (⟨hr, hq⟩ | ⟨g, hr, ⟨ht, hq⟩ | ⟨ht, hd, hq⟩⟩)
    · exact .storage ha plugin hp hr hq
    · exact .thread ha plugin hp g hr ht hq
    · exact .insert ha plugin hp g hr ht hd hq

/-- Nothing fails silently but for memory, before the storage is created. -/
theorem acquires (h : SilentFailure plugins σ o diskId diskType diskName) (ha : o.alloc = true) :
    o.Acquires ∧ ∃ plugin, plugins (diskType.map towlower) = some plugin := by
  rcases h with h | ⟨ha, plugin, hp, -, -⟩ | ⟨ha, plugin, hp, -, -, -, -⟩ |
    ⟨ha, plugin, hp, -, -, -, -, -⟩
  · exact absurd (h.symm.trans ha) (by decide)
  all_goals exact ⟨ha, plugin, hp⟩

end SilentFailure

namespace Rpc

variable {plugins : Plugins} {σ : ServerState} {o : RpcOutcomes} {c : Cleanup} {pr : ProcId}
  {diskId e : ULONG} {diskType diskName : WString} {h : ProcHandle}

/-- Nothing is left to fail before the storage is asked for. -/
theorem createDiskProcessor_of_acquires (hacq : o.Acquires) :
    createDiskProcessor plugins σ o diskId diskType diskName e =
      let σ' := (((σ.construct diskId).acquire .buffer σ.next).acquire .event σ.next).acquire
        .removeEvent σ.next
      match createDiskStorage plugins diskType diskName e with
      | (none, e) => (none, delete σ' o.cleanup σ.next e)
      | (some g, e) => match o.beginThread with
        | some r => (none, delete (σ'.openStorage σ.next g) o.cleanup σ.next (r.set e))
        | none => (some σ.next, (σ'.openStorage σ.next g).beginThread σ.next, e) := by
  rcases hs : createDiskStorage plugins diskType diskName e with ⟨_ | g, e'⟩
  · simp [createDiskProcessor, init, hacq.alloc, hacq.buffer, hacq.event, hacq.removeEvent, hs]
  · cases ht : o.beginThread <;>
      simp [createDiskProcessor, init, hacq.alloc, hacq.buffer, hacq.event, hacq.removeEvent, hs,
        ht]

/-- **A processor that does not acquire its members** is not created, and has its own code. -/
theorem createDiskProcessor_of_not_acquires (hf : σ.Fresh) (ha : o.alloc = true)
    (hacq : ¬ o.Acquires) :
    (createDiskProcessor plugins σ o diskId diskType diskName e).1 = none ∧
      (createDiskProcessor plugins σ o diskId diskType diskName e).2.2 ≠ 0 := by
  have h₁ : Holds (σ.construct diskId) σ.next [] false := .construct hf
  have h₂ := h₁.acquire .buffer
  have h₃ := h₂.acquire .event
  have loud : ∀ (σ' : ServerState) (d : Win32Error) (m : List ProcHandle) (b : Bool),
      Holds σ' σ.next m b → (delete σ' o.cleanup σ.next d).2 ≠ 0 :=
    fun σ' d m b hh hz => d.2 (hh.delete_eq_zero.mp hz).1
  cases hb : o.buffer with
  | some d =>
    simp only [createDiskProcessor, init, ha, hb, Bool.true_eq_false, if_false]
    exact ⟨trivial, loud _ d _ _ h₁⟩
  | none =>
    cases hev : o.event with
    | some d =>
      simp only [createDiskProcessor, init, ha, hb, hev, Bool.true_eq_false, if_false]
      exact ⟨trivial, loud _ d _ _ h₂⟩
    | none =>
      cases hre : o.removeEvent with
      | some d =>
        simp only [createDiskProcessor, init, ha, hb, hev, hre, Bool.true_eq_false, if_false]
        exact ⟨trivial, loud _ d _ _ h₃⟩
      | none => exact absurd ⟨ha, hb, hev, hre⟩ hacq

/-- **A processor that was not created is reported with a code, unless it failed silently.** -/
theorem createDiskProcessor_none (plugins : Plugins) (o : RpcOutcomes) (diskId : ULONG)
    (diskType diskName : WString) (e : ULONG) (hf : σ.Fresh)
    (hn : (createDiskProcessor plugins σ o diskId diskType diskName e).1 = none) :
    (createDiskProcessor plugins σ o diskId diskType diskName e).2.2 = 0 ↔
      e = 0 ∧ SilentFailure plugins σ o diskId diskType diskName := by
  have h₁ : Holds (σ.construct diskId) σ.next [] false := .construct hf
  have h₄ := ((h₁.acquire .buffer).acquire .event).acquire .removeEvent
  cases ha : o.alloc with
  | false => simpa [createDiskProcessor, ha] using fun _ => .alloc ha
  | true =>
    by_cases hacq : o.Acquires
    · rw [createDiskProcessor_of_acquires hacq] at hn ⊢
      cases hp : plugins (diskType.map towlower) with
      | none =>
        simp only [createDiskStorage, hp]
        rw [h₄.delete_eq_zero]
        refine iff_of_false (fun h => absurd h.1 (by decide)) fun h => ?_
        obtain ⟨-, plugin, hp'⟩ := h.2.acquires ha
        exact absurd (hp.symm.trans hp') (by simp)
      | some plugin =>
        rw [SilentFailure.iff_of_plugin hacq hp]
        rcases hr : plugin diskName with ⟨⟨g⟩, code⟩
        · simp only [createDiskStorage, hp, hr] at hn ⊢
          cases ht : o.beginThread with
          | none => simp [ht] at hn
          | some r =>
            simp only
            rw [(h₄.openStorage g).delete_eq_zero, Win32Result.set_eq_zero,
              Win32Result.set_eq_zero]
            simp only [List.nil_append, List.cons_append, CreateDiskOutcome.mk.injEq,
              reduceCtorEq, false_and, false_or, CreateDiskResult.storage.injEq,
              Option.some.injEq]
            constructor
            · rintro ⟨⟨rfl, rfl, he⟩, hq⟩
              exact ⟨he, g, ⟨rfl, rfl⟩, .inl ⟨rfl, hq⟩⟩
            · rintro ⟨he, g', ⟨-, rfl⟩, ⟨rfl, hq⟩ | ⟨hnone, -⟩⟩
              exact ⟨⟨rfl, rfl, he⟩, hq⟩
        · simp only [createDiskStorage, hp, hr]
          rw [h₄.delete_eq_zero, Win32Result.set_eq_zero]
          simp only [List.nil_append, List.cons_append, CreateDiskOutcome.mk.injEq, true_and,
            reduceCtorEq, false_and, exists_false, or_false]
          constructor
          · exact fun ⟨⟨hc, he⟩, hq⟩ => ⟨he, hc, hq⟩
          · exact fun ⟨he, hc, hq⟩ => ⟨⟨hc, he⟩, hq⟩
        · simp only [createDiskStorage, hp, hr]
          rw [h₄.delete_eq_zero]
          refine iff_of_false (fun h => absurd h.1 (by decide)) ?_
          simp
    · -- what is not acquired sets its own code
      exact iff_of_false (createDiskProcessor_of_not_acquires hf ha hacq).2
        fun h => hacq (h.2.acquires ha).1

/-- **A processor that was created** holds all its members, and the map and the bus are as they
were; what was set meanwhile is what the plugin set. -/
theorem createDiskProcessor_some (hf : σ.Fresh) {disk : ProcId}
    (hs : (createDiskProcessor plugins σ o diskId diskType diskName e).1 = some disk) :
    ∃ plugin g code, o.Acquires ∧ plugins (diskType.map towlower) = some plugin ∧
      plugin diskName = ⟨.storage g, code⟩ ∧ o.beginThread = none ∧
      (createDiskProcessor plugins σ o diskId diskType diskName e).2.2 = code.set e ∧
      Holds (createDiskProcessor plugins σ o diskId diskType diskName e).2.1 disk
        [.buffer, .event, .removeEvent, .thread] true ∧
      (createDiskProcessor plugins σ o diskId diskType diskName e).2.1.diskMap = σ.diskMap := by
  have h₁ : Holds (σ.construct diskId) σ.next [] false := .construct hf
  have h₄ := ((h₁.acquire .buffer).acquire .event).acquire .removeEvent
  cases ha : o.alloc with
  | false => simp [createDiskProcessor, ha] at hs
  | true =>
    by_cases hacq : o.Acquires
    · rw [createDiskProcessor_of_acquires hacq] at hs ⊢
      cases hp : plugins (diskType.map towlower) with
      | none => simp [createDiskStorage, hp] at hs
      | some plugin =>
        rcases hr : plugin diskName with ⟨⟨g⟩, code⟩
        · cases ht : o.beginThread with
          | some r => simp [createDiskStorage, hp, hr, ht] at hs
          | none =>
            simp only [createDiskStorage, hp, hr, ht] at hs ⊢
            obtain rfl := Option.some.inj hs
            exact ⟨plugin, g, code, hacq, rfl, hr, trivial, rfl,
              (h₄.openStorage g).beginThread, rfl⟩
        · simp [createDiskStorage, hp, hr] at hs
        · simp [createDiskStorage, hp, hr] at hs
    · cases hs.symm.trans (createDiskProcessor_of_not_acquires hf ha hacq).1

/-- A disk that was added did not fail silently. -/
theorem not_silent_of_added (hf : σ.Fresh)
    (ht : (addDisk plugins σ o diskId diskType diskName e).1 = true) :
    ¬ SilentFailure plugins σ o diskId diskType diskName := by
  have hsome := @createDiskProcessor_some plugins σ o diskId e diskType diskName hf
  unfold addDisk at ht
  rcases hc : createDiskProcessor plugins σ o diskId diskType diskName e with ⟨_ | disk, σ', e'⟩
  all_goals simp only [hc] at ht hsome
  · exact absurd ht (by decide)
  · obtain ⟨plugin, g, code, hacq, hp, hr, hthread, -, -, hmap⟩ := hsome rfl
    rw [SilentFailure.iff_of_plugin hacq hp]
    rintro (⟨hr', -⟩ | ⟨g', -, ⟨ht', -⟩ | ⟨-, hd, -⟩⟩)
    · simp [hr] at hr'
    · simp [hthread] at ht'
    · cases hi : o.insert with
      | false => simp [hi] at ht
      | true =>
        obtain ⟨dp, hm⟩ := Option.ne_none_iff_exists'.mp (hd.resolve_left (by simp [hi]))
        simp [hi, ServerState.containerAddDisk_taken (hmap ▸ hm)] at ht

/-- What undoes the insertion keeps the code. -/
theorem containerRemoveDisk_ne_zero (he : e ≠ 0) : (containerRemoveDisk σ c diskId e).2 ≠ 0 := by
  unfold containerRemoveDisk
  split
  · exact he
  · exact fun hz => he (delete_eq_zero.mp hz).1

/-- **A disk that was not added is reported with a code, unless it failed silently** with the code
zero before. -/
theorem addDisk_failed (plugins : Plugins) (o : RpcOutcomes) (diskId : ULONG)
    (diskType diskName : WString) (e : ULONG) (hf : σ.Fresh)
    (hn : (addDisk plugins σ o diskId diskType diskName e).1 = false) :
    (addDisk plugins σ o diskId diskType diskName e).2.2 = 0 ↔
      e = 0 ∧ SilentFailure plugins σ o diskId diskType diskName := by
  have hnone := createDiskProcessor_none plugins o diskId diskType diskName e hf
  have hsome := @createDiskProcessor_some plugins σ o diskId e diskType diskName hf
  unfold addDisk at hn ⊢
  rcases hc : createDiskProcessor plugins σ o diskId diskType diskName e with ⟨_ | disk, σ', e'⟩
  all_goals simp only [hc] at hn hnone hsome ⊢
  · exact hnone trivial
  · obtain ⟨plugin, g, code, hacq, hp, hr, ht, rfl, hh, hmap⟩ := hsome rfl
    have hsilent : SilentFailure plugins σ o diskId diskType diskName ↔ code = none ∧
        (o.insert = false ∨ σ.diskMap diskId ≠ none) ∧
        o.cleanup.Quiet [.buffer, .event, .removeEvent, .thread] true := by
      rw [SilentFailure.iff_of_plugin hacq hp]
      simp [hr, ht, and_assoc]
    -- the processor is deleted, with what the plugin set still in place
    have undone : (o.insert = false ∨ σ.diskMap diskId ≠ none) →
        ((delete σ' o.cleanup disk (code.set e)).2 = 0 ↔
          e = 0 ∧ SilentFailure plugins σ o diskId diskType diskName) := by
      intro hd
      rw [hh.delete_eq_zero, Win32Result.set_eq_zero, hsilent]
      constructor
      · exact fun ⟨⟨hcode, he⟩, hq⟩ => ⟨he, hcode, hd, hq⟩
      · exact fun ⟨he, hcode, _, hq⟩ => ⟨⟨hcode, he⟩, hq⟩
    cases hi : o.insert with
    | false => exact undone (.inl hi)
    | true =>
      simp only [hi, Bool.true_eq_false, if_false] at hn ⊢
      cases hm : σ'.diskMap diskId with
      | some dp =>
        simp only [ServerState.containerAddDisk_taken hm]
        exact undone (.inr (by rw [← hmap, hm]; simp))
      | none =>
        simp only [ServerState.containerAddDisk_free hm] at hn ⊢
        -- the driver's refusal sets its code
        refine iff_of_false ?_ fun h => ?_
        · rcases hreg : (σ'.setMap diskId (some disk)).registerWithDriver o.outcomes diskId disk with
            ⟨⟨⟩, τ⟩
          · simp only [registerWithDriver, hreg]
            exact containerRemoveDisk_ne_zero (by simp [o.deviceIoControl.2])
          · simp [registerWithDriver, hreg] at hn
        · obtain ⟨-, hd, -⟩ := hsilent.mp h.2
          rw [← hmap, hm] at hd
          simp [hi] at hd

end Rpc

/-! ## The statuses -/

/-- The driver accepts the removal: it is not deleted, counts a disk and finds this one. -/
def Bus.AcceptsRemoval (b : Bus) (diskId : ULONG) : Prop :=
  b.fdo.devicePnPState ≠ .deleted ∧ b.fdo.numPDOs ≠ 0 ∧ (b.findPdo diskId).isSome = true

theorem Bus.ioctlRemoveDisk_accepted_iff (b : Bus) (diskId : ULONG) :
    ntSuccess (b.ioctlRemoveDisk diskId).1 = true ↔ b.AcceptsRemoval diskId := by
  unfold ioctlRemoveDisk AcceptsRemoval
  by_cases hd : b.fdo.devicePnPState = .deleted
  · simp only [hd, if_true, ne_eq, not_true_eq_false, false_and, iff_false]
    decide
  · by_cases hn : b.fdo.numPDOs = 0
    · simp only [hd, hn, if_false, if_true, ne_eq, not_true_eq_false, false_and, and_false,
        iff_false]
      decide
    · cases hf : b.findPdo diskId with
      | none =>
        simp only [hd, hn, if_false, Option.isSome_none, Bool.false_eq_true, and_false, iff_false]
        decide
      | some p =>
        simp only [hd, hn, if_false, Option.isSome_some, ne_eq, not_false_eq_true, and_self,
          iff_true]
        rfl

namespace RpcServer

variable {s : RpcServer} {o : RpcOutcomes} {diskId e : ULONG} {diskType diskName : WString}

/-- **AddDisk fails silently, called with the last-error code zero.** -/
def AddDiskSilent (s : RpcServer) (o : RpcOutcomes) (diskId : ULONG) (diskType diskName : WString)
    (e : ULONG) : Prop :=
  e = 0 ∧ o.enter = none ∧ o.impersonate = rpcOk ∧ o.impersonated = none ∧
    SilentFailure s.plugins s.toServerState o diskId diskType diskName

/-- What the RPC reports. -/
theorem rpcAddDisk_fst : (s.rpcAddDisk o diskId diskType diskName e).1 =
    if o.impersonate ≠ rpcOk then rpcAccessDenied
    else
      let r := Rpc.addDisk s.plugins s.toServerState o diskId diskType diskName
        (o.impersonated.set (o.enter.set e))
      if r.1 then rpcOk else r.2.2 := by
  unfold rpcAddDisk
  split
  · rfl
  · rcases hr : Rpc.addDisk s.plugins s.toServerState o diskId diskType diskName
      (o.impersonated.set (o.enter.set e)) with ⟨⟨⟩, σ, e'⟩ <;> simp [hr]

/-- **AddDisk reports faithfully exactly when** it does not fail silently with the code zero. -/
theorem addDiskReported_iff : s.AddDiskReported o diskId diskType diskName e ↔
    ¬ s.AddDiskSilent o diskId diskType diskName e := by
  have hadded := congrArg Prod.fst (Rpc.addDisk_fst o diskId diskType diskName
    (o.impersonated.set (o.enter.set e)) s.plugins_of)
  have hfail := Rpc.addDisk_failed s.plugins o diskId diskType diskName
    (o.impersonated.set (o.enter.set e)) s.fresh
  rw [AddDiskReported, rpcAddDisk_fst, AddDiskSilent,
    show (s.toCDiskServer.addDisk o.outcomes diskId diskType diskName).1 = _ from hadded.symm]
  by_cases hi : o.impersonate = rpcOk
  · rw [if_neg (not_not.mpr hi)]
    cases hr : (Rpc.addDisk s.plugins s.toServerState o diskId diskType diskName
        (o.impersonated.set (o.enter.set e))).1 with
    | false =>
      have hz := hfail hr
      rw [Win32Result.set_eq_zero, Win32Result.set_eq_zero] at hz
      simp only [hr, Bool.false_eq_true, if_false, and_false, iff_false, hi, true_and]
      rw [show rpcOk = 0 from rfl, hz]
      tauto
    | true =>
      simp only [hr, if_true, hi, true_and, true_iff]
      exact fun h => Rpc.not_silent_of_added s.fresh hr h.2.2.2
  · rw [if_pos hi]
    exact iff_of_true (iff_of_false (by decide) fun h => hi h.1) fun h => hi h.2.2.1

/-- **RemoveDisk reports faithfully exactly when** the driver accepts the removal, if
it is asked. -/
theorem removeDiskReported_iff : s.RemoveDiskReported o diskId ↔
    (o.impersonate = rpcOk → s.bus.AcceptsRemoval diskId) := by
  rw [RemoveDiskReported, rpcRemoveDisk, Bus.ioctlRemoveDisk_accepted_iff]
  by_cases hi : o.impersonate = rpcOk
  · simp [hi]
  · rw [if_pos hi]
    have hne : rpcAccessDenied ≠ rpcOk := by decide
    exact iff_of_true (iff_of_false hne fun h => hi h.1) fun h => absurd h hi

/-- **The RPCs' statuses are faithful exactly when** AddDisk does not fail silently with the code
zero, and RemoveDisk is called for a disk that the driver lets go. -/
theorem rpcStatus_iff (s : RpcServer) (o o' : RpcOutcomes) (diskId diskId' e : ULONG)
    (diskType diskName : WString) :
    (s.AddDiskReported o diskId diskType diskName e ↔
      ¬ s.AddDiskSilent o diskId diskType diskName e) ∧
    (s.RemoveDiskReported o' diskId' ↔
      (o'.impersonate = rpcOk → s.bus.AcceptsRemoval diskId')) :=
  ⟨addDiskReported_iff, removeDiskReported_iff⟩

/-- A service without disks, whose one file is too large. -/
def largeFile : RpcServer where
  pluginMap := fun _ => some fun _ => (fileCreateDisk true (.size (2 ^ 41)) none).result.geometry
  fresh := ⟨by simp, by simp, by simp, by simp, fun p hp => by cases hp⟩
  plugins := fun _ => some fun _ => fileCreateDisk true (.size (2 ^ 41)) none
  plugins_of := rfl

/-- **A disk that is too large is reported as added**, and one that there is not as removed. -/
theorem not_rpcStatus : ¬ ∀ (s : RpcServer) (o : RpcOutcomes) (diskId e : ULONG)
    (diskType diskName : WString),
    s.AddDiskReported o diskId diskType diskName e ∧ s.RemoveDiskReported o diskId := by
  intro h
  refine addDiskReported_iff.mp (h largeFile {} 1 0 [] []).1 ⟨rfl, rfl, rfl, rfl, ?_⟩
  exact .storage ⟨rfl, rfl, rfl, rfl⟩ _ rfl rfl
    ⟨rfl, fun _ _ => rfl, fun hs => absurd hs (by decide)⟩

end RpcServer

/-- **`IOCTL_BUSENUM_REMOVE_DISK` is what the driver's steps make of it**, when no other thread
acts. -/
theorem Driver.exec_ioctlRemoveDisk {d : Driver} {t : Tid} (handle : ULONG)
    (hidle : d.calls t = .idle) (hm : d.bus.fdo.mutex = none) :
    ∃ as d', Driver.lts.exec (fun _ _ => true) (.call t (.removeDisk handle) :: as) d = some d' ∧
      d'.bus = (d.bus.ioctlRemoveDisk handle).2 ∧
      d'.calls t = .ret (d.bus.ioctlRemoveDisk handle).1 := by
  by_cases hd : d.bus.fdo.devicePnPState = .deleted
  · refine ⟨[], ?_⟩
    simp [Lts.exec, Driver.lts, Driver.step, hidle, Bus.enter, Bus.dispatch,
      Bus.ioctlRemoveDisk, hd]
  · refine ⟨[.step t true], ?_⟩
    by_cases hn : d.bus.fdo.numPDOs = 0
    · simp [Lts.exec, Driver.lts, Driver.step, hidle, Bus.enter, Bus.dispatch,
        Bus.ioctlRemoveDisk, hd, Pc.step, Bus.removeDiskStep, hm, hn]
    · cases hf : d.bus.findPdo handle <;>
        simp [Lts.exec, Driver.lts, Driver.step, hidle, Bus.enter, Bus.dispatch,
          Bus.ioctlRemoveDisk, hd, Pc.step, Bus.removeDiskStep, hm, hn, hf]

end VirtualDisk
