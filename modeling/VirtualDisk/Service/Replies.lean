import Mathlib.Data.List.Induction
import VirtualDisk.Service.Serves

/-!
# Service/Replies — what a reply depends on

`threadProc` keeps `b` and `nBytes` outside its loop, and a storage operation that throws or fails
may leave `nBytes` alone.  A reply then carries the count of an earlier request (`lastResult`); it
is its request's own when the operation reported a count, and at no other time (`ownReply_iff`).

`System.locals` ties the loop, run here over any sequence of requests, to the threads of the system.
-/

namespace VirtualDisk

open Machinery

/-! ## The loop -/

/-- A request that a disk thread is woken for, and what its storage operation comes to: the result
(FALSE when it throws) and the count, if one was reported. -/
structure Handled where
  req : BusenumRequest
  ok : Bool
  count : Option ULONG

namespace Handled

/-- The thread calls its storage. -/
def isTransfer (q : Handled) : Bool :=
  q.req.code = scsiopRead.toUInt32 || q.req.code = scsiopWrite.toUInt32

/-- What the request asks for, in bytes, for blocks of this size. -/
def asked (blockSize : ULONG) (q : Handled) : ℕ := q.req.transferBlocks.toNat * blockSize.toNat

/-- The storage reports at most what was asked. -/
def Modest (blockSize : ULONG) (q : Handled) : Prop :=
  ∀ n, q.count = some n → n.toNat ≤ q.asked blockSize

/-- **The storage is called and reports a count.** -/
def Reports (q : Handled) : Prop := q.isTransfer = true ∧ q.count.isSome = true

end Handled

namespace CDiskProcessor

/-- One round of `threadProc`, up to the reply. -/
def handle (x : CDiskProcessor) (q : Handled) : CDiskProcessor :=
  let x := { x with mReq := { x.mReq with val := q.req } }
  if q.isTransfer then { x with b := q.ok, nBytes := q.count.getD x.nBytes } else x

/-- The thread after these requests. -/
def handled (history : List Handled) : CDiskProcessor := history.foldl handle {}

/-- The reply to a request after these. -/
def replyTo (history : List Handled) (q : Handled) : BusenumReply :=
  (Service.reply ((handled history).handle q)).val

/-- A round in which the storage is called. -/
theorem handle_of_transfer {x : CDiskProcessor} {q : Handled} (h : q.isTransfer = true) :
    (x.handle q).b = q.ok ∧ (x.handle q).nBytes = q.count.getD x.nBytes ∧
      (x.handle q).mReq.val = q.req := by
  simp [handle, h]

/-- …and one in which it is not. -/
theorem handle_of_not_transfer {x : CDiskProcessor} {q : Handled} (h : q.isTransfer = false) :
    (x.handle q).b = x.b ∧ (x.handle q).nBytes = x.nBytes := by
  simp [handle, h]

end CDiskProcessor

open CDiskProcessor

/-- **A reply is its request's own**: no history makes a difference to it; its count is within what
was asked, of a storage that reports no more; and it is zero for a failure without a count. -/
structure OwnReply (q : Handled) : Prop where
  same : ∀ history history', replyTo history q = replyTo history' q
  bounded : ∀ history blockSize, (∀ r ∈ history ++ [q], r.Modest blockSize) →
    (replyTo history q).numBytes.toNat ≤ q.asked blockSize
  failed : ∀ history, q.ok = false → q.count = none → (replyTo history q).numBytes = 0

variable {q : Handled} {history : List Handled}

/-- The reply to a request whose operation reported a count. -/
theorem replyTo_of_reports {n : ULONG} (ht : q.isTransfer = true) (hc : q.count = some n) :
    replyTo history q =
      { handle := q.req.handle
        status := if q.ok then statusSuccess else statusUnsuccessful
        code := q.req.code
        numBytes := n } := by
  obtain ⟨hb, hn, hreq⟩ := handle_of_transfer (x := handled history) ht
  simp [replyTo, Service.reply, hb, hn, hreq, hc]

/-- A count of one. -/
def oneByte : Handled where
  req := { (default : BusenumRequest) with code := scsiopRead.toUInt32 }
  ok := true
  count := some 1

/-- **A reply without a count of its own has the one before it.** -/
theorem replyTo_oneByte (h : ¬ q.Reports) : replyTo [oneByte] q ≠ replyTo [] q := by
  intro he
  cases ht : q.isTransfer with
  | false =>
    have hs := congrArg BusenumReply.status he
    simp only [replyTo, Service.reply, (handle_of_not_transfer ht).1] at hs
    exact absurd hs (by decide)
  | true =>
    have hc : q.count = none := by
      by_contra hne
      exact h ⟨ht, Option.isSome_iff_ne_none.mpr hne⟩
    have hn := congrArg BusenumReply.numBytes he
    simp only [replyTo, Service.reply, (handle_of_transfer ht).2.1, hc, Option.getD_none] at hn
    exact absurd hn (by decide)

/-- **A reply is its request's own exactly when** its storage was called and reported a count. -/
theorem ownReply_iff (q : Handled) : OwnReply q ↔ q.Reports := by
  constructor
  · intro h
    by_contra hr
    exact replyTo_oneByte hr (h.same _ _)
  · rintro ⟨ht, hc⟩
    obtain ⟨n, hc⟩ := Option.isSome_iff_exists.mp hc
    refine ⟨fun _ _ => ?_, fun history blockSize hm => ?_, fun _ _ hnone => ?_⟩
    · rw [replyTo_of_reports ht hc, replyTo_of_reports ht hc]
    · rw [replyTo_of_reports ht hc]
      exact hm q (by simp) n hc
    · exact absurd (hc.symm.trans hnone) (by simp)

/-- A READ of one block whose storage fails without a count. -/
def failedRead : Handled where
  req := { (default : BusenumRequest) with code := scsiopRead.toUInt32, transferBlocks := 1 }
  ok := false
  count := none

/-- **A failed READ is answered with the count of the one before it.** -/
theorem not_ownReply : ¬ ∀ q : Handled, OwnReply q := by
  intro h
  have hzero := (h failedRead).failed [oneByte] rfl rfl
  exact absurd hzero (by decide)

/-! ## The storages of the repository -/

/-- `CFileStorage::ReadBlocks` and `WriteBlocks`, as what they return and write to `*nBytes`: the
file is not asked if the position cannot be set. -/
def fileStorageResult (seek ok : Bool) (count : ULONG) : Bool × Option ULONG :=
  if seek then (ok, some count) else (false, none)

/-- `CVmdkStorage::ReadBlocks` and `WriteBlocks`. -/
def vmdkStorageResult (ok : Bool) (transferBlocks sectorSize : ULONG) : Bool × Option ULONG :=
  if ok then (true, some (transferBlocks * sectorSize)) else (false, some 0)

/-- **A transfer on a virtual disk of the library has its own reply.** -/
theorem ownReply_vmdk {sectorSize : ULONG} {ok : Bool} (ht : q.isTransfer = true)
    (hr : (q.ok, q.count) = vmdkStorageResult ok q.req.transferBlocks sectorSize) : OwnReply q := by
  have hc : q.count = (vmdkStorageResult ok q.req.transferBlocks sectorSize).2 :=
    congrArg Prod.snd hr
  refine (ownReply_iff q).mpr ⟨ht, ?_⟩
  cases ok <;> simp [hc, vmdkStorageResult]

/-- **A transfer on a file has its own reply exactly when** the position is set. -/
theorem ownReply_file_iff {seek ok : Bool} {count : ULONG} (ht : q.isTransfer = true)
    (hr : (q.ok, q.count) = fileStorageResult seek ok count) : OwnReply q ↔ seek = true := by
  have hc : q.count = (fileStorageResult seek ok count).2 := congrArg Prod.snd hr
  rw [ownReply_iff, Handled.Reports, hc]
  cases seek <;> simp [fileStorageResult, ht]

/-! ## The threads of the system -/

/-- The locals of a thread after operations with these results, the latest first. -/
def lastResult (results : List (Bool × Option ULONG)) : Bool × ULONG :=
  results.foldr (fun r x => (r.1, r.2.getD x.2)) (false, 0)

/-- The loop's locals are those of its storage operations. -/
theorem locals_handled (history : List Handled) :
    ((handled history).b, (handled history).nBytes) =
      lastResult ((history.filter Handled.isTransfer).map fun q => (q.ok, q.count)).reverse := by
  induction history using List.reverseRecOn with
  | nil => rfl
  | append_singleton history q ih =>
    have hstep : handled (history ++ [q]) = (handled history).handle q := by
      simp [handled]
    rw [hstep, List.filter_append, List.map_append, List.reverse_append]
    cases ht : q.isTransfer with
    | false =>
      rw [(handle_of_not_transfer ht).1, (handle_of_not_transfer ht).2]
      simpa [ht] using ih
    | true =>
      have hn : (handled history).nBytes = _ := congrArg Prod.snd ih
      rw [(handle_of_transfer ht).1, (handle_of_transfer ht).2.1, hn]
      simp [ht, lastResult]

/-- The results of a processor's storage operations, the latest first. -/
def Service.results (v : Service) (pr : ProcId) : List (Bool × Option ULONG) :=
  (v.executions.filter fun e => e.proc = pr).map fun e => (e.ok, e.count)

namespace System

variable {d : Driver} {v v' : Service} {a : SysAction} {act : Option Action} {pr : ProcId}

/-- **A thread's locals are those of its storage operations**; one not created has performed
none. -/
structure Locals (v : Service) (pr : ProcId) : Prop where
  locals : ((v.procs pr).b, (v.procs pr).nBytes) = lastResult (v.results pr)
  unborn : v.procCount ≤ pr → (v.procs pr).pc = .exited ∧ v.results pr = []

/-- A step without a storage operation. -/
theorem Locals.keep (h : Locals v pr) (m : Serves d v a act v')
    (he : v'.executions = v.executions) : Locals v' pr := by
  have hres : v'.results pr = v.results pr := by rw [Service.results, he]; rfl
  -- all but the creation leave the locals alone
  have same : (v'.procs pr).b = (v.procs pr).b → (v'.procs pr).nBytes = (v.procs pr).nBytes →
      (v.procCount ≤ pr → (v'.procs pr).pc = .exited) → Locals v' pr := fun hb hn hpc =>
    ⟨by rw [hb, hn, hres, h.locals],
      fun hle => ⟨hpc (Nat.le_trans m.procCount_le hle),
        hres ▸ (h.unborn (Nat.le_trans m.procCount_le hle)).2⟩⟩
  have dead : ∀ pc, (v.procs pr).pc = pc → pc ≠ .exited → ¬ v.procCount ≤ pr :=
    fun pc hpc hne hle => hne (hpc.symm.trans (h.unborn hle).1)
  cases m.proc pr with
  | keep hk =>
    obtain ⟨_, _, hk⟩ := hk
    exact same (by rw [hk]) (by rw [hk]) fun hle => by rw [hk]; exact (h.unborn hle).1
  | create hpr hcount hk =>
    obtain ⟨diskId, file, g, -, hk⟩ := hk
    refine ⟨?_, fun hle => ?_⟩
    · rw [hk, hres, (h.unborn (Nat.le_of_eq hpr.symm)).2]
      rfl
    · rw [hpr, hcount] at hle
      exact absurd hle (Nat.not_succ_le_self _)
  | post _ _ _ hk | setEvent _ _ _ hk =>
    exact same (by rw [hk]) (by rw [hk]) fun hle => by rw [hk]; exact (h.unborn hle).1
  | wake _ hpc _ hk | removed _ hpc _ hk | executeNone _ hpc _ hk | reply _ hpc _ hk
  | replied _ hpc _ hk =>
    exact same (by rw [hk]) (by rw [hk]) fun hle => absurd hle (dead _ hpc (by decide))
  | execute out _ _ hk =>
    obtain ⟨result, f, rfl⟩ := hk
    exact absurd (congrArg List.length he) (by simp)
  | final _ hpc hk =>
    obtain ⟨_, hk⟩ := hk
    exact same (by rw [hk]) (by rw [hk]) fun hle => by rw [hk]

/-- A storage operation of one thread. -/
theorem Locals.executed {pr' : ProcId} {result : Bool × Option ULONG} {f : File} (h : Locals v pr)
    (hpc : (v.procs pr').pc = .exec) : Locals (v.executed pr' result f) pr := by
  by_cases hpr : pr = pr'
  · subst hpr
    have hres : (v.executed pr result f).results pr = (result.1, result.2) :: v.results pr := by
      simp [Service.results]
    have hn : (v.procs pr).nBytes = _ := congrArg Prod.snd h.locals
    refine ⟨?_, fun hle => ?_⟩
    · rw [hres, Service.executed_procs, Function.update_self]
      simp [lastResult, hn]
    · have hex := (h.unborn hle).1
      rw [hpc] at hex
      cases hex
  · have hres : (v.executed pr' result f).results pr = v.results pr := by
      simp [Service.results, Ne.symm hpr]
    refine ⟨?_, fun hle => ?_⟩
    · rw [hres, Service.executed_procs, Function.update_of_ne hpr, h.locals]
    · rw [hres, Service.executed_procs, Function.update_of_ne hpr]
      exact h.unborn hle

variable {s : System} {files : FileId → File}

/-- **The threads of the system are such loops**, in every reachable state. -/
theorem locals (h : (lts files).Reachable s) (pr : ProcId) : Locals s.service pr := by
  refine invariant (I := fun _ v => ∀ pr, Locals v pr) ?_ ?_ (fun _ _ _ _ _ _ _ hi _ _ => hi) h pr
  · exact fun pr => ⟨rfl, fun _ => ⟨rfl, rfl⟩⟩
  · intro s a act v' d' _ _ hi m _ pr
    by_cases he : v'.executions = s.service.executions
    · exact (hi pr).keep m he
    · cases m with
      | execute hpc hc => exact (hi pr).executed hpc
      | final | undo => exact absurd (by simp) he
      | _ => exact absurd rfl he

/-- **What `SendReply` sends is what the last storage operation of the thread came to**, with the
latest count that was reported. -/
theorem reply_val (h : (lts files).Reachable s) (pr : ProcId) :
    (Service.reply (s.service.procs pr)).val.status =
        (if (lastResult (s.service.results pr)).1 then statusSuccess else statusUnsuccessful) ∧
      (Service.reply (s.service.procs pr)).val.numBytes =
        (lastResult (s.service.results pr)).2 := by
  rw [← (locals h pr).locals]
  exact ⟨rfl, rfl⟩

end System

end VirtualDisk
