import VirtualDisk.Driver.Moves
import VirtualDisk.Service.Storage

/-!
# Service/Server — the service's threads, step by step

`CDiskServer` in its own process: the Run loop, one thread per `CDiskProcessor`, and the RPC workers
that add and remove disks.  A step of a thread is a section under `m_cs`, one Win32 call, or the
plain code between two of these.  A step that enters the driver, leaves it, writes into a mapped
buffer or consumes a removal event says so: it comes with the action it makes there.

A processor's number also names its `m_Buffer` and its `m_hRemoveEvent`.
-/

namespace VirtualDisk

open Machinery

/-- A `CDiskProcessor`, in order of creation. -/
abbrev ProcId := ℕ

/-- A file, or what else a storage keeps its blocks in. -/
abbrev FileId := ℕ

/-- Where a disk thread is in `threadProc`: at the wait, woken to execute `m_req`, about to call
`SendReply`, inside it, about to call `RemoveDiskFinal`, or gone. -/
inductive ProcPc
  | wait
  | exec
  | reply
  | replying
  | final
  | exited
  deriving DecidableEq, Repr

/-- **`CDiskProcessor`**, with the locals of its thread.  `executed` is the origin of the request it
executed last, `alive` says that the object was created and not deleted, and `registered` that
`RegisterWithDriver` returned TRUE for it. -/
structure CDiskProcessor where
  diskId : ULONG := 0
  file : FileId := 0
  geometry : Geometry := ⟨0, 0⟩
  mReq : Tagged BusenumRequest := default
  hEvent : Bool := false
  pc : ProcPc := .exited
  b : Bool := false
  nBytes : ULONG := 0
  executed : Option (PdoId × IrpId) := none
  alive : Bool := false
  registered : Bool := false

/-- Where the Run loop is.  `issuing` and `waiting` are inside `GetRequest`. -/
inductive RunPc
  | issue
  | issuing (r : RqId)
  | waiting (r : RqId)
  | find
  | post (pr : ProcId)
  | setEvent (pr : ProcId)
  | stopped
  deriving DecidableEq, Repr

/-- The RPCs.  The file and the geometry of a new disk are what its plugin makes of the disk's type
and name. -/
inductive RpcCall
  | addDisk (diskId : ULONG) (file : FileId) (g : Geometry)
  | removeDisk (diskId : ULONG)

/-- Where an RPC worker is. -/
inductive RpcPc
  | idle
  | create (diskId : ULONG) (file : FileId) (g : Geometry)
  | insert (pr : ProcId)
  | duplicate (pr : ProcId)
  | register (pr : ProcId)
  | registering (pr : ProcId)
  | undo (pr : ProcId)
  | unregister (diskId : ULONG)
  | unregistering
  | done (ok : Bool)

/-- What a storage operation does.  A `complete` one is `CFileStorage`'s with every call
succeeding in full; any plugin may otherwise return TRUE or FALSE or throw, report a count or not,
and leave the buffer and the file as it likes. -/
inductive IoOutcome
  | complete
  | other (ok : Bool) (count : Option ULONG) (buffer : Bytes) (file : File)

/-- A storage operation that was performed, and what it reported. -/
structure Execution where
  proc : ProcId
  file : FileId
  origin : Option (PdoId × IrpId)
  code : ULONG
  position : ℕ
  length : ℕ
  ok : Bool
  count : Option ULONG
  deriving DecidableEq

/-- **The service.**  `executions` is the record of the storage operations, the latest first. -/
structure Service where
  procs : ProcId → CDiskProcessor := fun _ => {}
  procCount : ℕ := 0
  diskMap : ULONG → Option ProcId := fun _ => none
  run : RunPc := .issue
  req : Tagged BusenumRequest := default
  rqCount : ℕ := 0
  rpcs : ℕ → RpcPc := fun _ => .idle
  files : FileId → File
  executions : List Execution := []

/-! ## A storage operation -/

namespace IoOutcome

/-- The byte a request starts at, as `ReadBlocks` and `WriteBlocks` compute it. -/
def position (req : BusenumRequest) (g : Geometry) : ℕ :=
  (ioPosition req.logicalBlockAddress g.blockSize).toNat

/-- The bytes a request asks for. -/
def length (req : BusenumRequest) (g : Geometry) : ℕ :=
  (ioLength req.transferBlocks g.blockSize).toNat

/-- The result of a storage operation, and the buffer and the file after it. -/
def perform (out : IoOutcome) (req : BusenumRequest) (g : Geometry) (buffer : Bytes) (f : File) :
    (Bool × Option ULONG) × Bytes × File :=
  match out with
  | .complete =>
    if req.code = scsiopRead.toUInt32 then
      let r := f.read (position req g) (length req g) buffer
      ((true, some (UInt32.ofNat r.2)), r.1, f)
    else
      ((true, some (ioLength req.transferBlocks g.blockSize)), buffer,
        f.write (position req g) (length req g) buffer)
  | .other ok count buffer' f' => ((ok, count), buffer', f')

end IoOutcome

namespace Service

/-! ## Updates -/

@[simps -fullyApplied]
def setProc (v : Service) (pr : ProcId) (f : CDiskProcessor → CDiskProcessor) : Service :=
  { v with procs := Function.update v.procs pr (f (v.procs pr)) }

@[simps -fullyApplied]
def setRun (v : Service) (pc : RunPc) : Service := { v with run := pc }

@[simps -fullyApplied]
def setRpc (v : Service) (k : ℕ) (pc : RpcPc) : Service :=
  { v with rpcs := Function.update v.rpcs k pc }

@[simps -fullyApplied]
def setMap (v : Service) (diskId : ULONG) (x : Option ProcId) : Service :=
  { v with diskMap := Function.update v.diskMap diskId x }

/-- A new processor, its thread at the wait. -/
@[simps -fullyApplied]
def createProc (v : Service) (diskId : ULONG) (file : FileId) (g : Geometry) : Service :=
  { v with
    procs := Function.update v.procs v.procCount
      { diskId, file, geometry := g, pc := .wait, alive := true }
    procCount := v.procCount + 1 }

/-- `delete` on a processor. -/
@[simps! -fullyApplied]
def deleteProc (v : Service) (pr : ProcId) : Service :=
  v.setProc pr fun x => { x with alive := false }

/-- `CDiskContainer::RemoveDisk`, under `m_cs`: the processor found under the id is deleted. -/
def removeDisk (v : Service) (diskId : ULONG) : Service :=
  match v.diskMap diskId with
  | none => v
  | some pr => (v.deleteProc pr).setMap diskId none

section RemoveDisk

variable (v : Service) (diskId : ULONG)

@[simp] theorem removeDisk_run : (v.removeDisk diskId).run = v.run := by
  unfold removeDisk
  split <;> rfl

@[simp] theorem removeDisk_req : (v.removeDisk diskId).req = v.req := by
  unfold removeDisk
  split <;> rfl

@[simp] theorem removeDisk_rqCount : (v.removeDisk diskId).rqCount = v.rqCount := by
  unfold removeDisk
  split <;> rfl

@[simp] theorem removeDisk_rpcs : (v.removeDisk diskId).rpcs = v.rpcs := by
  unfold removeDisk
  split <;> rfl

@[simp] theorem removeDisk_procCount : (v.removeDisk diskId).procCount = v.procCount := by
  unfold removeDisk
  split <;> rfl

@[simp] theorem removeDisk_files : (v.removeDisk diskId).files = v.files := by
  unfold removeDisk
  split <;> rfl

@[simp] theorem removeDisk_executions : (v.removeDisk diskId).executions = v.executions := by
  unfold removeDisk
  split <;> rfl

/-- A deletion leaves everything of a processor but its life. -/
theorem removeDisk_procs (pr : ProcId) : ∃ alive,
    (v.removeDisk diskId).procs pr = { v.procs pr with alive } := by
  unfold removeDisk
  split
  · exact ⟨_, rfl⟩
  · next pr' _ =>
    by_cases hpr : pr = pr'
    · subst hpr
      exact ⟨false, by simp⟩
    · exact ⟨_, by simp [hpr]; rfl⟩

end RemoveDisk

/-- A storage operation was performed for `m_req`: the thread has its result, the file its new
content, and the operation is on record. -/
@[simps -fullyApplied]
def executed (v : Service) (pr : ProcId) (result : Bool × Option ULONG) (f : File) : Service :=
  let x := v.procs pr
  { v with
    procs := Function.update v.procs pr { x with
      pc := .reply
      b := result.1
      nBytes := result.2.getD x.nBytes
      executed := x.mReq.origin }
    files := Function.update v.files x.file f
    executions :=
      { proc := pr
        file := x.file
        origin := x.mReq.origin
        code := x.mReq.val.code
        position := IoOutcome.position x.mReq.val x.geometry
        length := IoOutcome.length x.mReq.val x.geometry
        ok := result.1
        count := result.2 } :: v.executions }

/-! ## The threads -/

/-- The next step of `CDiskServer::Run`.  `FindDisk` takes no lock, and is one step here as it is
where nobody writes the map meanwhile (`Service.ListServer`). -/
def runStep (v : Service) (d : Driver) : Option (Option Action × Service) :=
  match v.run with
  | .issue =>
    some (some (.call .run (.getRequest v.rqCount 0)),
      { v.setRun (.issuing v.rqCount) with rqCount := v.rqCount + 1 })
  | .issuing r => match d.calls .run with
    | .ret status =>
      some (some (.leave .run), v.setRun (if status = statusPending then .waiting r else .stopped))
    | _ => none
  | .waiting r =>
    let x := d.bus.requests r
    if x.completed then
      some (none, { v.setRun .find with
        req := if x.status = statusSuccess then x.systemBuffer.getD v.req else v.req })
    else none
  | .find =>
    some (none, v.setRun (match v.diskMap v.req.val.handle with
      | none => .issue
      | some pr => .post pr))
  | .post pr => some (none, (v.setProc pr fun x => { x with mReq := v.req }).setRun (.setEvent pr))
  | .setEvent pr => some (none, (v.setProc pr fun x => { x with hEvent := true }).setRun .issue)
  | .stopped => none

/-- What `SendReply` sends. -/
def reply (x : CDiskProcessor) : Tagged BusenumReply where
  val :=
    { handle := x.mReq.val.handle
      status := if x.b then statusSuccess else statusUnsuccessful
      code := x.mReq.val.code
      numBytes := x.nBytes }
  origin := x.executed

/-- The next step of `CDiskProcessor::threadProc`. -/
def diskStep (v : Service) (d : Driver) (pr : ProcId) (out : IoOutcome) :
    Option (Option Action × Service) :=
  let x := v.procs pr
  match x.pc with
  | .wait =>
    if ¬ x.alive then none
    else if x.hEvent then
      some (none, v.setProc pr fun x => { x with hEvent := false, pc := .exec })
    else if d.bus.events pr then
      some (some (.userWait pr), v.setProc pr fun x => { x with pc := .final })
    else none
  | .exec =>
    if x.mReq.val.code = scsiopRead.toUInt32 ∨ x.mReq.val.code = scsiopWrite.toUInt32 then
      let r := out.perform x.mReq.val x.geometry (d.bus.memory pr) (v.files x.file)
      some (some (.userWrite pr r.2.1), v.executed pr r.1 r.2.2)
    else some (none, v.setProc pr fun x => { x with pc := .reply })
  | .reply =>
    some (some (.call (.disk pr) (.sendReply (reply x))),
      v.setProc pr fun x => { x with pc := .replying })
  | .replying => match d.calls (.disk pr) with
    | .ret _ => some (some (.leave (.disk pr)), v.setProc pr fun x => { x with pc := .wait })
    | _ => none
  | .final => some (none, (v.removeDisk x.diskId).setProc pr fun x => { x with pc := .exited })
  | .exited => none

/-- The next step of an RPC worker; `ok` is the outcome of `CreateDiskProcessor`. -/
def rpcStep (v : Service) (d : Driver) (k : ℕ) (ok : Bool) : Option (Option Action × Service) :=
  match v.rpcs k with
  | .idle => none
  | .create diskId file g =>
    if ok then some (none, (v.createProc diskId file g).setRpc k (.insert v.procCount))
    else some (none, v.setRpc k (.done false))
  | .insert pr => match v.diskMap (v.procs pr).diskId with
    | none => some (none, (v.setMap (v.procs pr).diskId (some pr)).setRpc k (.register pr))
    | some _ => some (none, v.setRpc k (.duplicate pr))
  | .duplicate pr => some (none, (v.deleteProc pr).setRpc k (.done false))
  | .register pr =>
    some (some (.call (.rpc k) (.addDisk
      (registerWithDriver (v.procs pr).diskId (v.procs pr).geometry pr pr))),
      v.setRpc k (.registering pr))
  | .registering pr => match d.calls (.rpc k) with
    | .ret status =>
      some (some (.leave (.rpc k)),
        if ntSuccess status then
          (v.setProc pr fun x => { x with registered := true }).setRpc k (.done true)
        else v.setRpc k (.undo pr))
    | _ => none
  | .undo pr => some (none, (v.removeDisk (v.procs pr).diskId).setRpc k (.done false))
  | .unregister diskId => some (some (.call (.rpc k) (.removeDisk diskId)), v.setRpc k .unregistering)
  | .unregistering => match d.calls (.rpc k) with
    | .ret _ => some (some (.leave (.rpc k)), v.setRpc k (.done true))
    | _ => none
  | .done _ => some (none, v.setRpc k .idle)

end Service

/-! ## The two processes together -/

/-- The driver and the service. -/
structure System where
  driver : Driver := {}
  service : Service

/-- What can happen: something in the driver that the service has no part in (a thread of the system
enters a routine or leaves it, an IRP is cancelled, a thread inside the driver makes its next step),
or a step of the service. -/
inductive SysAction
  | driver (a : Action)
  | run
  | disk (pr : ProcId) (out : IoOutcome)
  | rpcCall (k : ℕ) (c : RpcCall)
  | rpc (k : ℕ) (ok : Bool)

/-- A routine that is not entered through an IOCTL of the bus. -/
def Call.external : Call → Bool
  | .getRequest _ _ | .sendReply _ | .addDisk _ | .removeDisk _ => false
  | _ => true

/-- An action that is no step of the service's own code. -/
def Action.external : Action → Bool
  | .call (.sys _) c => c.external
  | .step _ _ | .leave (.sys _) | .cancelIrp (.sys _) _ | .cancelRequest (.sys _) _ => true
  | _ => false

/-- A step of the service, with the action it makes in the driver. -/
def Service.step (v : Service) (d : Driver) : SysAction → Option (Option Action × Service)
  | .driver a => if a.external then some (some a, v) else none
  | .run => v.runStep d
  | .disk pr out => v.diskStep d pr out
  | .rpcCall k c => match v.rpcs k with
    | .idle => some (none, v.setRpc k (match c with
      | .addDisk diskId file g => .create diskId file g
      | .removeDisk diskId => .unregister diskId))
    | _ => none
  | .rpc k ok => v.rpcStep d k ok

namespace System

/-- The driver after an action, if there is one. -/
def perform (d : Driver) : Option Action → Option Driver
  | none => some d
  | some a => d.step a

/-- **One step of the system.** -/
def step (s : System) (a : SysAction) : Option System :=
  (s.service.step s.driver a).bind fun r => (perform s.driver r.1).map fun d => ⟨d, r.2⟩

/-- **The system**, started with these files. -/
def lts (files : FileId → File) : Lts System SysAction :=
  ⟨{ service := { files := files } }, step⟩

end System

end VirtualDisk
