import VirtualDisk.Service.Contents

/-!
# Service/Refinement — the driver and the service are a flat array of blocks

In a faultless run of disks that are backed by files of their own, each disk is a flat array of
blocks: a READ that is completed returns for each of its blocks what was written to it last.  The
order is that of the hand-outs, in which each request stands between its arrival and its completion.
It is not the order of arrival: a request on the disk's queue is overtaken by one that finds a
GET_REQUEST waiting.
-/

namespace VirtualDisk

open Machinery Machinery.Bytes

variable {t : Tid} {p q : PdoId} {i j : IrpId} {d : Driver} {v : Service} {pr : ProcId}

namespace System

variable {s : System} {files : FileId → File}

/-! ## The specification -/

/-- **A storage operation is what the IRP asks of its disk**: the disk's own processor performs it,
on the disk's file and on exactly the bytes of its blocks. -/
structure Performs (d : Driver) (v : Service) (p : PdoId) (i : IrpId) (e : Execution) : Prop where
  origin : e.origin = some (p, i)
  proc : e.proc = (d.bus.pdos p).buffer
  file : e.file = (processor d v p).file
  code : e.code = (d.bus.irps i).srb.cdb.operationCode.toUInt32
  position : e.position = (d.bus.irps i).srb.cdb.firstBlock * (d.bus.pdos p).blockSize.toNat
  length : e.length = (d.bus.irps i).srb.cdb.blockCount * (d.bus.pdos p).blockSize.toNat

/-- The processor has a request whose reply is still to be taken. -/
def Unanswered (d : Driver) (v : Service) (pr : ProcId) : Prop :=
  (v.procs pr).hEvent = true ∨ (v.procs pr).pc = .exec ∨ (v.procs pr).pc = .reply ∨
    ((v.procs pr).pc = .replying ∧ d.calls (.disk pr) = .idle) ∨
    (d.calls (.disk pr)).carries ≠ none

/-- **Every READ that is completed returns the latest data of each of its blocks**, in this order of
the requests of each disk, the latest first. -/
def ReadsLatest (files : FileId → File) (s : System) (order : PdoId → List IrpId) : Prop :=
  ∀ p i newer older, order p = newer ++ i :: older → i ∈ s.driver.bus.completed →
    (s.driver.bus.irps i).srb.cdb.operationCode = scsiopRead →
    ∀ n, (s.driver.bus.irps i).srb.cdb.firstBlock ≤ n →
      n < (s.driver.bus.irps i).srb.cdb.firstBlock + (s.driver.bus.irps i).srb.cdb.blockCount →
      Agree (s.driver.bus.pdos p).blockSize.toNat
        ((s.driver.bus.irps i).srb.dataBuffer.window
          ((n - (s.driver.bus.irps i).srb.cdb.firstBlock) * (s.driver.bus.pdos p).blockSize.toNat))
        (BlockWrite.latest (s.driver.bus.pdos p).blockSize.toNat
          (files (processor s.driver s.service p).file).bytes (s.driver.bus.writes older) n)

/-- **Every disk is a flat array of blocks.** -/
structure FlatArrays (files : FileId → File) (s : System) : Prop where
  /-- Every storage operation is what an IRP asks of its disk, -/
  performed : ∀ e ∈ s.service.executions, ∃ p, ∃ i ∈ s.driver.bus.handedOut p,
    Performs s.driver s.service p i e
  /-- …and no two are for the same one. -/
  once : (s.service.executions.map Execution.origin).Nodup
  /-- An IRP that was sent is on its disk's queue, its current one, in a thread's hands or
  completed. -/
  kept : ∀ p i, .arrive p i ∈ s.driver.bus.trace → i ∈ (s.driver.bus.pdos p).irpQueue ∨
    (s.driver.bus.pdos p).currentIrp = some i ∨ (∃ t, i ∈ (s.driver.calls t).hand) ∨
    i ∈ s.driver.bus.completed
  /-- A request that was handed out was executed, or is still to be. -/
  served : ∀ p, ∀ i ∈ s.driver.bus.handedOut p,
    s.service.hasExecuted p i = true ∨ Ahead s.driver s.service p i
  /-- One that is completed was handed out and executed. -/
  completed : ∀ i ∈ s.driver.bus.completed, ∃ p, i ∈ s.driver.bus.handedOut p ∧
    s.service.hasExecuted p i = true
  /-- A processor is given a request when it has none left to answer. -/
  slot : ∀ pr, s.service.run = .post pr → ¬ Unanswered s.driver s.service pr
  /-- Each file is the array of its disk, or as it was at first. -/
  stored : Stored files s.driver s.service
  /-- A request is handed out once, after it arrived and before it is completed; -/
  order : Justified Event.Follows s.driver.bus.trace
  /-- …so it comes after those completed before it arrived. -/
  after : ∀ p i j newer older, s.driver.bus.trace = newer ++ .arrive p j :: older →
    .complete i ∈ older → i ∈ s.driver.bus.handedOut p → j ∈ s.driver.bus.handedOut p →
    ∃ later earlier, s.driver.bus.handedOut p = later ++ earlier ∧ j ∈ later ∧ i ∈ earlier
  reads : ReadsLatest files s s.driver.bus.handedOut

/-! ## The refinement -/

namespace Coherent

/-- **A storage operation is performed as its IRP asks.** -/
theorem performs (h : Coherent d v) {e : Execution} (he : e ∈ v.executions) :
    ∃ p, ∃ i ∈ d.bus.handedOut p, Performs d v p i e := by
  obtain ⟨p, i, hown⟩ := h.answers.executed e he
  obtain ⟨q, j, hor, hmem⟩ := h.once.handed e he
  cases hown.origin.symm.trans hor
  have hsize := (h.sized p i (h.order.arrive_of_mem hmem)).2
  have hg : (v.procs e.proc).geometry.blockSize = (d.bus.pdos p).blockSize := by
    rw [hown.proc]
    exact (h.geometry p hown.exists_pdo).2.symm
  refine ⟨p, i, hmem, hor, hown.proc, hown.file.trans ?_, hown.code, ?_, ?_⟩
  · rw [hown.proc]
    rfl
  · rw [hown.position, position_busSetupRequest, hg]
  · rw [hown.length, length_busSetupRequest (hg ▸ hsize.buffer), hg]

/-- **`m_req` is not overwritten before its reply is taken.** -/
theorem not_unanswered (h : Coherent d v) (hrun : v.run = .post pr) : ¬ Unanswered d v pr := by
  obtain ⟨he, hdisk⟩ := h.tokens.free h.registry (show v.run.hands = some pr by rw [hrun]; rfl)
  obtain ⟨hexec, hreply, hidle⟩ := h.tokens.not_exec hdisk
  rintro (hev | hpc | hpc | ⟨hpc, hi⟩ | hcar)
  · cases he.symm.trans hev
  · exact hexec hpc
  · exact hreply hpc
  · exact hidle hpc hi
  · obtain ⟨rep, hrep⟩ := Option.ne_none_iff_exists'.mp hcar
    obtain ⟨pr', htid, hpc⟩ := h.calling.carries _ rep hrep
    obtain rfl := Tid.disk.inj htid
    obtain ⟨p, i, hor, -⟩ := h.tokens.carries pr rep hrep
    cases hdisk.symm.trans ((token_carries hpc hrep).trans hor)

/-- An IRP that was sent to a disk is kept until it is completed. -/
theorem kept (h : Coherent d v) (harr : .arrive p i ∈ d.bus.trace) :
    i ∈ (d.bus.pdos p).irpQueue ∨ (d.bus.pdos p).currentIrp = some i ∨
      (∃ t, i ∈ (d.calls t).hand) ∨ i ∈ d.bus.completed := by
  obtain ⟨k, hk⟩ := h.sent.covered i (h.sent.arrived p i harr)
  cases k with
  | hand t => exact .inr (.inr (.inl ⟨t, hk⟩))
  | queue q =>
    obtain rfl := h.sent.once p q i harr (h.sent.queued q i hk)
    exact .inl hk
  | current q =>
    have hk : (d.bus.pdos q).currentIrp = some i := Option.mem_toList.mp hk
    obtain rfl := h.sent.once p q i harr (h.sent.current q i hk)
    exact .inr (.inl hk)
  | done => exact .inr (.inr (.inr hk))

/-- An IRP that is completed had its reply taken, by its own disk. -/
theorem accepted (h : Coherent d v) (hi : i ∈ d.bus.completed) :
    ∃ p rep, .accept p i rep ∈ d.bus.trace ∧ i ∈ d.bus.handedOut p ∧
      ∀ q, i ∈ d.bus.handedOut q → q = p := by
  obtain ⟨p, rep, hacc⟩ := h.order.accept_of_completed hi
  have hmem : i ∈ d.bus.handedOut p := Event.handedTo_of_accept h.order.follows hacc
  exact ⟨p, rep, hacc, hmem, fun q hq =>
    h.sent.once q p i (h.order.arrive_of_mem hq) (h.order.arrive_of_mem hmem)⟩

end Coherent

/-- **The driver and the service are a flat array of blocks for each disk**, in every faultless run
of disks that are backed by files of their own. -/
theorem flat_arrays (h : (lts files).Reach Faultless s)
    (hb : FileBacked files s.driver s.service) : FlatArrays files s := by
  have hc := coherent h
  have hdata := data h hb
  refine {
    performed := fun e he => hc.performs he
    once := hc.once.nodup
    kept := fun p i => hc.kept
    served := fun p i hi => (executed_or_ahead h hi).imp_left Service.hasExecuted_iff.mpr
    completed := fun i hi => ?_
    slot := fun pr => hc.not_unanswered
    stored := hdata.stored
    order := hc.order.follows
    after := fun p i j newer older => hc.order.handedOut_before hc.sent
    reads := fun p i newer older hsplit hdone hop n => ?_ }
  · obtain ⟨p, rep, hacc, hmem, -⟩ := hc.accepted hi
    obtain ⟨hor, e, he, hoe, -⟩ := hc.answers.accepted p i rep hacc
    exact ⟨p, hmem, Service.hasExecuted_iff.mpr ⟨e, he, hoe.trans hor⟩⟩
  · obtain ⟨q, rep, hacc, -, huniq⟩ := hc.accepted hdone
    obtain rfl := huniq p (hsplit ▸ List.mem_append_right _ List.mem_cons_self)
    exact BlockWrite.agree_latest (hdata.returned p i rep hacc hop newer older hsplit)

/-! ## Runs -/

/-- Whether a step is faultless. -/
def faultless (s : System) : SysAction → Bool
  | .driver a => s.driver.Regular a && match a with
    | .call _ (.scsi p _ srb) => Fits (s.driver.bus.pdos p) srb
    | _ => true
  | .disk _ out => match out with
    | .complete => true
    | .other _ _ _ _ => false
  | .rpcCall _ c => match c with
    | .addDisk _ _ _ => true
    | .removeDisk _ => false
  | .run | .rpc _ _ => true

theorem faultless_sound (s : System) (x : SysAction) (h : faultless s x = true) :
    Faultless s x := by
  cases x with
  | driver a =>
    simp only [faultless, Bool.and_eq_true] at h
    refine ⟨h.1, ?_⟩
    rintro t p i srb rfl
    simpa using h.2
  | disk pr out =>
    cases out with
    | complete => rfl
    | other => cases h
  | rpcCall k c =>
    cases c with
    | addDisk diskId file g => exact ⟨diskId, file, g, rfl⟩
    | removeDisk => cases h
  | _ => trivial

/-- A WRITE of one block of ones. -/
def writeSrb : ScsiRequestBlock where
  cdb := { operationCode := scsiopWrite, transferBlocksLsb := 1 }
  dataTransferLength := 512
  dataBuffer := fun _ => 1

/-- One disk, on the file of its processor. -/
def OneDisk (s : System) : Prop :=
  s.driver.bus.pdoCount = 1 ∧
    (processor s.driver s.service 0).geometry = ⟨8, 512⟩

instance : DecidablePred OneDisk := fun s => by unfold OneDisk; infer_instance

/-- One disk is backed by a file of its own. -/
theorem fileBacked_of_oneDisk (h : OneDisk s) :
    FileBacked (fun _ => ⟨4096, fun _ => 0⟩) s.driver s.service := by
  have hzero : ∀ p < s.driver.bus.pdoCount, p = 0 := fun p hp => Nat.lt_one_iff.mp (h.1 ▸ hp)
  refine ⟨fun p hp => ?_, fun p hp q hq _ => (hzero p hp).trans (hzero q hq).symm⟩
  rw [hzero p hp, h.2]
  rfl

/-- A WRITE, and then a READ of the same block. -/
theorem flat_arrays_read : ∃ s, blockLts.Reach Faultless s ∧
    (OneDisk s ∧ s.driver.bus.handedOut 0 = [1, 0] ∧ s.driver.bus.completed = [1, 0] ∧
      (s.driver.bus.irps 1).srb.dataBuffer 511 = 1) ∧
    FlatArrays (fun _ => ⟨4096, fun _ => 0⟩) s := by
  obtain ⟨s, hs, hp⟩ := blockLts.exists_reach faultless_sound
    (addRun 0 0 ++ getRun ++ (routine (.sys 0) (.scsi 0 0 writeSrb) 8).map .driver ++
      answerRun 0 .complete ++ getRun ++ readRun 0 1 ++ answerRun 0 .complete)
    (fun s => OneDisk s ∧ s.driver.bus.handedOut 0 = [1, 0] ∧ s.driver.bus.completed = [1, 0] ∧
      (s.driver.bus.irps 1).srb.dataBuffer 511 = 1) (by decide +kernel)
  exact ⟨s, hs, hp, flat_arrays hs (fileBacked_of_oneDisk hp.1)⟩

/-- **A READ does not return what was dispatched before it**: it overtakes a WRITE on the queue. -/
theorem not_readsLatest : ¬ ∀ (files : FileId → File) (s : System),
    (lts files).Reach Faultless s → FileBacked files s.driver s.service →
    ReadsLatest files s s.driver.bus.dispatched := by
  intro h
  obtain ⟨s, hs, hone, hsize, hdisp, hdone, hread, hfound, hwrite, hdata⟩ :=
    blockLts.exists_reach faultless_sound
      (addRun 0 0 ++ (routine (.sys 0) (.scsi 0 0 writeSrb) 7).map .driver ++ [.run] ++
        (steps .run 1 ++ routine (.sys 1) (.scsi 0 1 readSrb) 8 ++ steps .run 3).map .driver ++
        [.run] ++ answerRun 0 .complete)
      (fun s => OneDisk s ∧ (s.driver.bus.pdos 0).blockSize = 512 ∧
        s.driver.bus.dispatched 0 = [1, 0] ∧ s.driver.bus.completed = [1] ∧
        (s.driver.bus.irps 1).srb.cdb = readSrb.cdb ∧
        (s.driver.bus.irps 1).srb.dataBuffer 0 = 0 ∧
        (s.driver.bus.irps 0).srb.cdb = writeSrb.cdb ∧
        (s.driver.bus.irps 0).srb.dataBuffer 0 = 1) (by decide +kernel)
  have hlatest := h _ s hs (fileBacked_of_oneDisk hone) 0 1 [] [0] hdisp
    (by rw [hdone]; exact List.mem_singleton_self _) (by rw [hread]; rfl) 0
    (by rw [hread]; decide) (by rw [hread]; decide) 0 (by rw [hsize]; decide)
  have hwrites : s.driver.bus.writes [0] = [(s.driver.bus.irps 0).srb.blockWrite] := by
    simp [Bus.writes, hwrite, writeSrb]
  have hcovers : (s.driver.bus.irps 0).srb.blockWrite.covers 0 = true := by
    simp only [BlockWrite.covers, ScsiRequestBlock.blockWrite, hwrite]
    decide
  rw [hwrites, BlockWrite.latest_of_covers hcovers] at hlatest
  simp [ScsiRequestBlock.blockWrite, hfound, hdata] at hlatest

end System

end VirtualDisk
