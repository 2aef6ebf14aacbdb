import VirtualDisk.Machinery.BlockArray
import VirtualDisk.Service.Executions

/-!
# Service/Contents — what the files hold, and the buffers between them and the requesters

In a faultless run of disks that are backed by files of their own, the file of a disk holds what the
WRITEs executed on it made of its initial content, in the order in which their requests were handed
out.  Until a WRITE is executed the mapped buffer holds its data, from then on until a reply is
taken the buffer holds what a READ found, and the reply hands that over.
-/

namespace VirtualDisk

open Machinery Machinery.Bytes

variable {t : Tid} {a : Action} {b b' : Bus} {pc pc' : Pc} {p q : PdoId} {i j : IrpId} {r : RqId}
variable {d d' : Driver} {v v' : Service} {pr : ProcId} {x : SysAction} {act : Option Action}

/-! ## The writes a list of IRPs makes -/

/-- The write a WRITE asks for. -/
def ScsiRequestBlock.blockWrite (srb : ScsiRequestBlock) : BlockWrite :=
  ⟨srb.cdb.firstBlock, srb.cdb.blockCount, srb.dataBuffer⟩

namespace Bus

/-- **The writes the WRITEs among these IRPs make**, the latest first. -/
def writes (b : Bus) (is : List IrpId) : List BlockWrite :=
  (is.filter fun i => (b.irps i).srb.cdb.operationCode = scsiopWrite).map fun i =>
    (b.irps i).srb.blockWrite

/-- **The array of a disk** that held `init` at first, after the WRITEs among these IRPs. -/
def array (b : Bus) (p : PdoId) (init : Bytes) (is : List IrpId) : Bytes :=
  BlockWrite.contents (b.pdos p).blockSize.toNat init (b.writes is)

/-- The byte of the disk an IRP starts at. -/
def offset (b : Bus) (p : PdoId) (i : IrpId) : ℕ :=
  (b.irps i).srb.cdb.firstBlock * (b.pdos p).blockSize.toNat

/-- The bytes it asks for. -/
def byteCount (b : Bus) (p : PdoId) (i : IrpId) : ℕ :=
  (b.irps i).srb.cdb.blockCount * (b.pdos p).blockSize.toNat

variable {init : Bytes} {is : List IrpId}

@[simp] theorem array_nil : b.array p init [] = init := rfl

/-- A WRITE is made on top of those before it. -/
theorem array_cons_of_write (h : (b.irps i).srb.cdb.operationCode = scsiopWrite) :
    b.array p init (i :: is) = (b.array p init is).overwrite (b.offset p i) (b.byteCount p i)
      (b.irps i).srb.dataBuffer := by
  simp [array, writes, h, ScsiRequestBlock.blockWrite, offset, byteCount]

/-- Any other IRP leaves the array alone. -/
theorem array_cons_of_ne (h : (b.irps i).srb.cdb.operationCode ≠ scsiopWrite) :
    b.array p init (i :: is) = b.array p init is := by
  simp [array, writes, h]

end Bus

namespace Moves

/-- **The bytes an IRP is about stay the same.** -/
theorem range (m : Moves t b a pc b' pc') (hp : p < b.pdoCount) (hi : (b.irps i).arrived = true) :
    b'.offset p i = b.offset p i ∧ b'.byteCount p i = b.byteCount p i := by
  obtain ⟨-, -, hsize, -⟩ := m.identity hp
  simp only [Bus.offset, Bus.byteCount, (m.cdb hi).2, hsize, and_self]

/-- **The array of a disk stays the same** as long as the list of the IRPs does. -/
theorem array (m : Moves t b a pc b' pc') (hp : p < b.pdoCount) {init : Bytes} {is : List IrpId}
    (his : ∀ i ∈ is, (b.irps i).arrived = true) : b'.array p init is = b.array p init is := by
  have hsize := (m.identity hp).2.2.1
  induction is with
  | nil => rfl
  | cons i is ih =>
    have ih := ih fun j hj => his j (List.mem_cons_of_mem _ hj)
    have hi := his i List.mem_cons_self
    have hcdb := (m.cdb hi).2
    by_cases hop : (b.irps i).srb.cdb.operationCode = scsiopWrite
    · have hne : (b.irps i).srb.cdb.operationCode ≠ scsiopRead := by
        rw [hop]
        decide
      rw [Bus.array_cons_of_write hop, Bus.array_cons_of_write (hcdb ▸ hop), ih, (m.range hp hi).1,
        (m.range hp hi).2, (m.dataBuffer hi hne).1]
    · rw [Bus.array_cons_of_ne hop, Bus.array_cons_of_ne (hcdb ▸ hop), ih]

/-- **The mapped buffer of a disk** is written into when a packet is started. -/
theorem memory (m : Moves t b a pc b' pc') : b'.memory = b.memory ∨
    ∃ p r i, pc.starts = some p ∧ a = .step t true ∧ b' = b.startIrp p r i := by
  cases m
  case startSetup p r i => exact .inr ⟨_, _, _, rfl, rfl, rfl⟩
  case nextSetup p r i k => exact .inr ⟨_, _, _, rfl, rfl, rfl⟩
  all_goals exact .inl rfl

/-- A reply is taken with its data. -/
theorem acceptAnswer {rep : Tagged BusenumReply} (m : Moves t b a (.replyTake p rep) b' pc')
    (hi : (b.pdos p).currentIrp = some i) (hc : (b.irps i).cancel = false) :
    b' = b.acceptAnswer p i rep := by
  cases m with
  | replyTakeNone _ hn => cases hi.symm.trans hn
  | replyTakeCancelled _ hj hcancel =>
    cases hi.symm.trans hj
    cases hc.symm.trans hcancel
  | replyTake _ hj =>
    cases hi.symm.trans hj
    rfl

end Moves

/-! ## A storage operation of a request -/

section Perform

variable {pdo : PdoDeviceData} {srb : ScsiRequestBlock} {g : Geometry} {buffer : Bytes} {f : File}

/-- **A request is for the blocks of its CDB.** -/
theorem position_busSetupRequest : IoOutcome.position (busSetupRequest pdo srb) g =
    srb.cdb.firstBlock * g.blockSize.toNat := by
  rw [IoOutcome.position, toNat_ioPosition]
  simp only [busSetupRequest, Cdb.toNat_logicalBlockAddress, Cdb.firstBlock]

theorem length_busSetupRequest (h : srb.cdb.blockCount * g.blockSize.toNat ≤ bufferSize) :
    IoOutcome.length (busSetupRequest pdo srb) g = srb.cdb.blockCount * g.blockSize.toNat := by
  have hblocks : (busSetupRequest pdo srb).transferBlocks.toNat = srb.cdb.blockCount := by
    simp only [busSetupRequest, UInt16.toNat_toUInt32, Cdb.toNat_transferBlocks, Cdb.blockCount]
  rw [IoOutcome.length, toNat_ioLength, hblocks]
  rw [hblocks]
  exact Nat.lt_of_le_of_lt h (by decide)

/-- Its code is that of its CDB. -/
theorem code_busSetupRequest {op : UCHAR} :
    (busSetupRequest pdo srb).code = op.toUInt32 ↔ srb.cdb.operationCode = op :=
  UInt8.toUInt32_inj

variable {req : BusenumRequest}

/-- The count of a storage operation that is done in full. -/
theorem IoOutcome.ofNat_length :
    UInt32.ofNat (IoOutcome.length req g) = ioLength req.transferBlocks g.blockSize :=
  UInt32.ofNat_toNat

/-- **A read inside the file** fills the buffer from it. -/
theorem IoOutcome.perform_read (hc : req.code = scsiopRead.toUInt32)
    (hle : position req g + length req g ≤ f.size) :
    complete.perform req g buffer f = ((true, some (ioLength req.transferBlocks g.blockSize)),
      overwrite buffer 0 (length req g) (window f.bytes (position req g)), f) := by
  rw [perform, if_pos hc, File.read_of_le hle, ← ofNat_length]

/-- **Any other operation** writes the buffer to the file. -/
theorem IoOutcome.perform_write (hc : req.code ≠ scsiopRead.toUInt32) :
    complete.perform req g buffer f = ((true, some (ioLength req.transferBlocks g.blockSize)),
      buffer, f.write (position req g) (length req g) buffer) := by
  rw [perform, if_neg hc]

end Perform

/-! ## What is known of a state -/

/-- An operation was performed for the IRP. -/
def Service.hasExecuted (v : Service) (p : PdoId) (i : IrpId) : Bool :=
  v.executions.any fun e => e.origin = some (p, i)

theorem Service.hasExecuted_iff : v.hasExecuted p i = true ↔
    ∃ e ∈ v.executions, e.origin = some (p, i) := by
  simp [hasExecuted]

namespace System

variable {s : System} {files : FileId → File}

/-- The processor of a disk. -/
def processor (d : Driver) (v : Service) (p : PdoId) : CDiskProcessor :=
  v.procs (d.bus.pdos p).buffer

/-- **The disks are backed by files of their own**, each opened by `CFileStorage`. -/
structure FileBacked (files : FileId → File) (d : Driver) (v : Service) : Prop where
  init : ∀ p < d.bus.pdoCount, fileStorageInit (files (processor d v p).file).size =
    some (processor d v p).geometry
  distinct : ∀ p < d.bus.pdoCount, ∀ q < d.bus.pdoCount,
    (processor d v p).file = (processor d v q).file → p = q

/-- **What is known of the states of a faultless run.** -/
structure Coherent (d : Driver) (v : Service) : Prop where
  linked : d.Linked
  locked : d.Locked
  owned : d.Owned
  sent : d.Sent
  order : d.InOrder
  cancel : ∀ i, (d.bus.irps i).cancel = false
  serial : ∀ p, Driver.Serial d.bus p
  sized : ∀ p i, .arrive p i ∈ d.bus.trace →
    d.bus.Known p ∧ Sized (d.bus.pdos p) (d.bus.irps i).srb
  geometry : ∀ p < d.bus.pdoCount, (d.bus.pdos p).nBlocks = (processor d v p).geometry.nBlocks ∧
    (d.bus.pdos p).blockSize = (processor d v p).geometry.blockSize
  registry : Registry d v
  calling : Calling d v
  tokens : Tokens d v
  once : Once d v
  answers : Answers d v
  past : ∀ p, ∀ i ∈ d.bus.handedOut p,
    (d.bus.pdos p).currentIrp = some i ∨ v.hasExecuted p i = true

namespace Coherent

/-- An IRP whose request was handed out arrived at a disk that exists. -/
theorem handed (h : Coherent d v) (hi : i ∈ d.bus.handedOut p) :
    p < d.bus.pdoCount ∧ (d.bus.irps i).arrived = true := by
  have harr := h.order.arrive_of_mem hi
  exact ⟨(h.sized p i harr).1.1, h.sent.arrived p i harr⟩

/-- So did a current one, which fits. -/
theorem current (h : Coherent d v) (hi : (d.bus.pdos p).currentIrp = some i) :
    p < d.bus.pdoCount ∧ (d.bus.irps i).arrived = true ∧
      Sized (d.bus.pdos p) (d.bus.irps i).srb := by
  have harr := h.sent.current p i hi
  obtain ⟨hp, hs⟩ := h.sized p i harr
  exact ⟨hp.1, h.sent.arrived p i harr, hs⟩

/-- Nothing is handed out for a disk that does not exist. -/
theorem handedOut_new (h : Coherent d v) (hp : d.bus.pdoCount ≤ p) : d.bus.handedOut p = [] :=
  List.eq_nil_iff_forall_not_mem.mpr fun _ hi => absurd (h.handed hi).1 (Nat.not_lt.mpr hp)

/-- **A request that is about to be handed out was not executed.** -/
theorem not_executed (h : Coherent d v) (hs : (d.calls t).starts = some p)
    (hi : i ∈ (d.calls t).hand) : v.hasExecuted p i = false := by
  rw [Bool.eq_false_iff]
  intro hex
  obtain ⟨e, he, hor⟩ := Service.hasExecuted_iff.mp hex
  obtain ⟨q, j, hor', hmem⟩ := h.once.handed e he
  cases hor.symm.trans hor'
  exact h.order.not_mem_handedOut h.owned hs hi hmem

end Coherent

/-- **A request that was handed out is the current one, or was executed.** -/
theorem current_or_executed (h : (lts files).Reach Faultless s)
    (hi : i ∈ s.driver.bus.handedOut p) : (s.driver.bus.pdos p).currentIrp = some i ∨
      s.service.hasExecuted p i = true := by
  rcases executed_or_ahead h hi with he | ⟨k, -, ht⟩
  · exact .inr (Service.hasExecuted_iff.mpr he)
  · left
    refine ((tokens (orderly_of_faultless h)).flow.live k p i ht).2.resolve_left fun hd => ?_
    cases hd.symm.trans ((Driver.inOrder (driver_regular h)).drained p)

/-- **The states of a faultless run are coherent.** -/
theorem coherent (h : (lts files).Reach Faultless s) : Coherent s.driver s.service := by
  have hd := driver_regular h
  have hor := orderly_of_faultless h
  exact {
    linked := Driver.linked hd
    locked := Driver.locked hd
    owned := Driver.owned (hd.mono fun _ _ _ _ h => Driver.keepsOwner_of_regular h)
    sent := Driver.sent hd
    order := Driver.inOrder hd
    cancel := (Driver.inService hd).irp
    serial := Driver.serial (driver_noLateStart hor)
    sized := System.sized h
    geometry := System.geometry h
    registry := System.registry h
    calling := System.calling h
    tokens := System.tokens hor
    once := System.once h
    answers := System.answers hor
    past := fun _ _ => current_or_executed h }

/-- So is the state between the service's part of a step and the driver's. -/
theorem coherent_of_serves (h : (lts files).Reach Faultless s) (hC : Faultless s x)
    (m : Serves s.driver s.service x act v') (hd : perform s.driver act = some d') :
    Coherent s.driver v' := by
  have hc := coherent h
  have hor := orderly_of_faultless h
  have hdr := driver_reachable h
  exact { hc with
    geometry := fun p hp => by
      rw [processor, (m.storage (hc.registry.owner p hp).1).2]
      exact hc.geometry p hp
    registry := hc.registry.serve m hd
    calling := hc.calling.serve m
    tokens := serve_tokens hor (orderly_step h hor hC) hc.tokens m hd
    once := hc.once.serve hc.tokens hc.registry (Driver.rqOwned hdr) (Driver.fills hdr)
      (waits (hor.mono fun _ _ _ _ hC => hC.keepsRequests)) hc.order m hd
    answers := hc.answers.serve hc.tokens hc.registry (Driver.arrived hdr) m
    past := fun p i hi => (hc.past p i hi).imp_right fun he => by
      obtain ⟨e, he, hor⟩ := Service.hasExecuted_iff.mp he
      exact Service.hasExecuted_iff.mpr ⟨e, m.executions_subset he, hor⟩ }

/-! ## The assertions -/

/-- **What the files hold**: each disk's, what the executed WRITEs made of it; any other, what it
held at first. -/
structure Stored (files : FileId → File) (d : Driver) (v : Service) : Prop where
  size : ∀ p < d.bus.pdoCount, (v.files (processor d v p).file).size =
    (files (processor d v p).file).size
  bytes : ∀ p < d.bus.pdoCount, (v.files (processor d v p).file).bytes =
    d.bus.array p (files (processor d v p).file).bytes
      ((d.bus.handedOut p).filter (v.hasExecuted p))
  others : ∀ f, (∀ p < d.bus.pdoCount, (processor d v p).file ≠ f) → v.files f = files f

/-- **What the mapped buffers hold**: the data of a WRITE that is still to be executed, and what a
READ that was executed found. -/
structure Buffered (d : Driver) (v : Service) : Prop where
  write : ∀ p i, (d.bus.pdos p).currentIrp = some i →
    (d.bus.irps i).srb.cdb.operationCode = scsiopWrite → v.hasExecuted p i = false →
    Agree (d.bus.byteCount p i) (d.bus.memory (d.bus.pdos p).buffer) (d.bus.irps i).srb.dataBuffer
  read : ∀ p i, (d.bus.pdos p).currentIrp = some i →
    (d.bus.irps i).srb.cdb.operationCode = scsiopRead → v.hasExecuted p i = true →
    Agree (d.bus.byteCount p i) (d.bus.memory (d.bus.pdos p).buffer)
      ((v.files (processor d v p).file).bytes.window (d.bus.offset p i))

/-- **What the requesters have**: a READ whose reply was taken has what the WRITEs handed out before
it had made of the disk. -/
def Returned (files : FileId → File) (d : Driver) (v : Service) : Prop :=
  ∀ p i rep, .accept p i rep ∈ d.bus.trace →
    (d.bus.irps i).srb.cdb.operationCode = scsiopRead →
    ∀ newer older, d.bus.handedOut p = newer ++ i :: older →
      Agree (d.bus.byteCount p i) (d.bus.irps i).srb.dataBuffer
        ((d.bus.array p (files (processor d v p).file).bytes older).window (d.bus.offset p i))

/-- Every storage operation was done in full. -/
def InFull (v : Service) : Prop :=
  ∀ e ∈ v.executions, e.ok = true ∧ ∃ n, e.count = some n ∧ n.toNat = e.length

/-! ## Steps of the service that execute nothing -/

/-- A disk keeps its file when its processor does. -/
theorem file_of_serves (h : Registry d v) (m : Serves d v x act v') (hp : p < d.bus.pdoCount) :
    (processor d v' p).file = (processor d v p).file := (m.storage (h.owner p hp).1).1

theorem FileBacked.of_serves (h : FileBacked files d v') (hr : Registry d v)
    (m : Serves d v x act v') : FileBacked files d v := by
  refine ⟨fun p hp => ?_, fun p hp q hq heq => h.distinct p hp q hq ?_⟩
  · rw [← file_of_serves hr m hp, h.init p hp, processor, (m.storage (hr.owner p hp).1).2]
    rfl
  · rw [file_of_serves hr m hp, file_of_serves hr m hq, heq]

theorem Stored.serve (h : Stored files d v) (hr : Registry d v) (m : Serves d v x act v')
    (he : v'.executions = v.executions) (hf : v'.files = v.files) : Stored files d v' := by
  have hex : v'.hasExecuted = v.hasExecuted := by
    funext p i
    rw [Service.hasExecuted, he, Service.hasExecuted]
  refine ⟨fun p hp => ?_, fun p hp => ?_, fun f hne => ?_⟩
  · rw [file_of_serves hr m hp, hf]
    exact h.size p hp
  · rw [file_of_serves hr m hp, hf, hex]
    exact h.bytes p hp
  · rw [hf]
    exact h.others f fun p hp => file_of_serves hr m hp ▸ hne p hp

theorem Buffered.serve (h : Buffered d v) (hc : Coherent d v) (m : Serves d v x act v')
    (he : v'.executions = v.executions) (hf : v'.files = v.files) : Buffered d v' := by
  have hex : v'.hasExecuted = v.hasExecuted := by
    funext p i
    rw [Service.hasExecuted, he, Service.hasExecuted]
  refine ⟨fun p i hi hop hn => h.write p i hi hop (hex ▸ hn), fun p i hi hop hn => ?_⟩
  rw [file_of_serves hc.registry m (hc.current hi).1, hf]
  exact h.read p i hi hop (hex ▸ hn)

theorem Returned.serve (h : Returned files d v) (hc : Coherent d v) (m : Serves d v x act v') :
    Returned files d v' := by
  intro p i rep hacc hop newer older hsplit
  have hi : i ∈ d.bus.handedOut p := hsplit ▸ List.mem_append_right _ List.mem_cons_self
  rw [file_of_serves hc.registry m (hc.handed hi).1]
  exact h p i rep hacc hop newer older hsplit

/-! ## Moves of the driver -/

/-- A disk keeps its processor. -/
theorem processor_of_moves (m : Moves t d.bus a (d.calls t) b' pc') (hp : p < d.bus.pdoCount) :
    processor (d.put t (b', pc')) v p = processor d v p := by
  rw [processor, Driver.put_bus, (m.identity hp).2.2.2.1]
  rfl

theorem FileBacked.of_moves (h : FileBacked files (d.put t (b', pc')) v)
    (m : Moves t d.bus a (d.calls t) b' pc') : FileBacked files d v := by
  have hlt : ∀ {p}, p < d.bus.pdoCount → p < b'.pdoCount := fun hp =>
    Nat.lt_of_lt_of_le hp m.pdoCount_le
  refine ⟨fun p hp => ?_, fun p hp q hq heq => h.distinct p (hlt hp) q (hlt hq) ?_⟩
  · exact processor_of_moves m hp ▸ h.init p (hlt hp)
  · rw [processor_of_moves m hp, processor_of_moves m hq, heq]

/-- **What a move hands out**: nothing, or the request of the IRP in hand, which
was not executed. -/
theorem Coherent.handedOut_move (h : Coherent d v) (m : Moves t d.bus a (d.calls t) b' pc')
    (p : PdoId) :
    (b'.handedOut p = d.bus.handedOut p ∧
      ∀ i, (b'.pdos p).currentIrp = some i → (d.bus.pdos p).currentIrp = some i) ∨
    ∃ r i, b'.handedOut p = i :: d.bus.handedOut p ∧ b' = d.bus.startIrp p r i ∧
      v.hasExecuted p i = false ∧ .arrive p i ∈ d.bus.trace ∧
      (d.calls t).starts = some p := by
  refine (m.exchange (h.linked.new _ (Nat.le_refl _))).handedOut.imp_right ?_
  rintro ⟨i, hnew, hcur, hs, ha⟩
  obtain ⟨r, j, -, hb, rfl⟩ := m.starts hs ha
  obtain rfl : j = i := by simpa using hcur
  exact ⟨r, j, hnew, rfl, h.not_executed hs (Pc.mem_hand_of_bears hb), h.sent.carried t p j hb,
    hs⟩

/-- The buffer of a disk that has a current IRP is left alone. -/
theorem Coherent.memory_move (h : Coherent d v) (m : Moves t d.bus a (d.calls t) b' pc')
    (hi : (d.bus.pdos p).currentIrp = some i) :
    b'.memory (d.bus.pdos p).buffer = d.bus.memory (d.bus.pdos p).buffer := by
  rcases m.memory with heq | ⟨q, r, j, hs, -, rfl⟩
  · rw [heq]
  · have htested := Pc.tested_of_starts hs
    have hq := h.linked.mentions t q (Pc.mem_mentions_of_locked (Pc.locked_of_tested htested))
    have hne : (d.bus.pdos p).buffer ≠ (d.bus.pdos q).buffer := by
      intro heq
      obtain rfl := h.registry.injective p (h.current hi).1 q hq.1 heq
      cases hi.symm.trans (h.locked.tested t p htested)
    simp [hne]

/-- **A move keeps what the files hold**: a disk that is added has its file as it was at first. -/
theorem Stored.move (h : Stored files d v) (hc : Coherent d v)
    (hb : FileBacked files (d.put t (b', pc')) v) (m : Moves t d.bus a (d.calls t) b' pc') :
    Stored files (d.put t (b', pc')) v := by
  have hnew : ∀ p < b'.pdoCount, d.bus.pdoCount ≤ p →
      v.files (processor (d.put t (b', pc')) v p).file =
        files (processor (d.put t (b', pc')) v p).file ∧ b'.handedOut p = [] := by
    intro p hp hge
    obtain ⟨k, pr, -, -, -, -, -, -, hpdo⟩ := hc.registry.creates m hp hge
    refine ⟨h.others _ fun q hq heq => ?_, ?_⟩
    · have hq' := Nat.lt_of_lt_of_le hq m.pdoCount_le
      obtain rfl := hb.distinct q hq' p hp ((congrArg _ (processor_of_moves m hq)).trans heq)
      exact Nat.lt_irrefl _ (Nat.lt_of_lt_of_le hq hge)
    · rcases hc.handedOut_move m p with ⟨hsame, -⟩ | ⟨r, i, -, -, -, harr, -⟩
      · exact hsame.trans (hc.handedOut_new hge)
      · exact absurd (hc.sized p i harr).1.1 (Nat.not_lt.mpr hge)
  refine ⟨fun p hp => ?_, fun p hp => ?_, fun f hne => h.others f fun p hp => ?_⟩
  · rcases Nat.lt_or_ge p d.bus.pdoCount with hlt | hge
    · rw [processor_of_moves m hlt]
      exact h.size p hlt
    · rw [(hnew p hp hge).1]
  · rcases Nat.lt_or_ge p d.bus.pdoCount with hlt | hge
    · have hfilter : (b'.handedOut p).filter (v.hasExecuted p) =
          (d.bus.handedOut p).filter (v.hasExecuted p) := by
        rcases hc.handedOut_move m p with ⟨hsame, -⟩ | ⟨r, i, hcons, -, hn, -⟩
        · rw [hsame]
        · rw [hcons, List.filter_cons_of_neg (by simp [hn])]
      rw [processor_of_moves m hlt, h.bytes p hlt, Driver.put_bus, hfilter, m.array hlt]
      exact fun i hi => (hc.handed (List.mem_of_mem_filter hi)).2
    · obtain ⟨hfile, hnil⟩ := hnew p hp hge
      rw [hfile, Driver.put_bus, hnil]
      rfl
  · rw [← processor_of_moves m hp]
    exact hne p (Nat.lt_of_lt_of_le hp m.pdoCount_le)

/-- **A move keeps what the buffers hold**: a packet is started with the data of its WRITE. -/
theorem Buffered.move (h : Buffered d v) (hc : Coherent d v)
    (m : Moves t d.bus a (d.calls t) b' pc') : Buffered (d.put t (b', pc')) v := by
  have hkeep : ∀ {p i}, (d.bus.pdos p).currentIrp = some i →
      b'.memory (b'.pdos p).buffer = d.bus.memory (d.bus.pdos p).buffer := by
    intro p i hi
    rw [(m.identity (hc.current hi).1).2.2.2.1, hc.memory_move m hi]
  refine ⟨fun p i hi hop hn => ?_, fun p i hi hop hex => ?_⟩
  · rw [Driver.put_bus] at hi hop ⊢
    rcases hc.handedOut_move m p with ⟨-, hold⟩ | ⟨r, j, -, rfl, -, harr, -⟩
    · have hi := hold i hi
      obtain ⟨hp, harr, -⟩ := hc.current hi
      rw [(m.cdb harr).2] at hop
      have hne : (d.bus.irps i).srb.cdb.operationCode ≠ scsiopRead := by
        rw [hop]
        decide
      rw [hkeep hi, (m.range hp harr).2, (m.dataBuffer harr hne).1]
      exact h.write p i hi hop hn
    · obtain rfl : j = i := by simpa using hi
      have hop : (d.bus.irps j).srb.cdb.operationCode = scsiopWrite := by simpa using hop
      have hlen := (hc.sized p j harr).2.length (by rw [hop]; decide)
      have hcount : (d.bus.startIrp p r j).byteCount p j =
          (d.bus.irps j).srb.dataTransferLength.toNat := by
        rw [hlen]
        simp [Bus.byteCount]
      rw [hcount]
      simpa [setupBuffer, setupCopy, hop] using agree_overwrite_zero
  · rw [Driver.put_bus] at hi hop ⊢
    rcases hc.handedOut_move m p with ⟨-, hold⟩ | ⟨r, j, -, rfl, hn, -⟩
    · have hi := hold i hi
      obtain ⟨hp, harr, -⟩ := hc.current hi
      rw [(m.cdb harr).2] at hop
      rw [hkeep hi, (m.range hp harr).1, (m.range hp harr).2, processor_of_moves m hp]
      exact h.read p i hi hop hex
    · obtain rfl : j = i := by simpa using hi
      cases hn.symm.trans hex

/-- **A reply counts the bytes of its IRP**, whose request was executed. -/
theorem Coherent.numBytes (h : Coherent d v) (hf : InFull v) {rep : Tagged BusenumReply}
    (hpc : d.calls t = .replyTake p rep) (hi : (d.bus.pdos p).currentIrp = some i) :
    rep.val.numBytes.toNat = d.bus.byteCount p i ∧ v.hasExecuted p i = true := by
  obtain ⟨hor, pr, rfl⟩ := h.tokens.origin_of_accept h.calling (h.serial p) hpc hi
  obtain ⟨e, he, hoe, hrep⟩ := h.answers.carried pr rep (by rw [hpc]; rfl)
  obtain ⟨-, n, hn, hlen⟩ := hf e he
  obtain ⟨q, j, hown⟩ := h.answers.executed e he
  have horigin := hoe.trans hor
  cases hown.origin.symm.trans horigin
  obtain ⟨hp, -, hsize⟩ := h.current hi
  have hg : (v.procs e.proc).geometry.blockSize = (d.bus.pdos p).blockSize := by
    rw [hown.proc]
    exact (h.geometry p hp).2.symm
  refine ⟨?_, Service.hasExecuted_iff.mpr ⟨e, he, horigin⟩⟩
  rw [hrep.numBytes n hn, hlen, hown.length, length_busSetupRequest (hg ▸ hsize.buffer), hg]
  rfl

/-- The IRPs handed out before a READ that is the current one were executed, and it writes
nothing. -/
theorem Coherent.array_of_current (h : Coherent d v) {init : Bytes} {is : List IrpId}
    (hi : (d.bus.pdos p).currentIrp = some i) (his : d.bus.handedOut p = i :: is)
    (hop : (d.bus.irps i).srb.cdb.operationCode ≠ scsiopWrite) :
    d.bus.array p init ((d.bus.handedOut p).filter (v.hasExecuted p)) = d.bus.array p init is := by
  have hnodup := h.order.nodup p
  rw [his, List.nodup_cons] at hnodup
  have hall : is.filter (v.hasExecuted p) = is := by
    refine List.filter_eq_self.mpr fun j hj => ?_
    refine (h.past p j (his ▸ List.mem_cons_of_mem _ hj)).resolve_left fun hj' => ?_
    obtain rfl := Option.some.inj (hi.symm.trans hj')
    exact hnodup.1 hj
  rw [his, List.filter_cons, hall]
  split
  · exact Bus.array_cons_of_ne hop
  · rfl

/-- **A move keeps what the requesters have**: a READ's reply is taken with what the buffer
holds. -/
theorem Returned.move (h : Returned files d v) (hs : Stored files d v) (hb : Buffered d v)
    (hf : InFull v) (hc : Coherent d v) (m : Moves t d.bus a (d.calls t) b' pc') :
    Returned files (d.put t (b', pc')) v := by
  intro p i rep hacc hop newer older hsplit
  rw [Driver.put_bus] at hacc hop hsplit ⊢
  rcases m.accepts hacc with hold | ⟨hpc, hi⟩
  · -- the reply was taken before
    obtain ⟨newer', hsplit'⟩ : ∃ newer', d.bus.handedOut p = newer' ++ i :: older := by
      rcases hc.handedOut_move m p with ⟨hsame, -⟩ | ⟨r, j, hcons, rfl, hn, -⟩
      · exact ⟨newer, hsame ▸ hsplit⟩
      · rw [hcons] at hsplit
        rcases newer with _ | ⟨j', newer⟩
        · obtain ⟨rfl, -⟩ := List.cons.inj hsplit
          obtain ⟨hor, e, he, hoe, -⟩ := hc.answers.accepted p j rep hold
          rw [Service.hasExecuted_iff.mpr ⟨e, he, hoe.trans hor⟩] at hn
          cases hn
        · exact ⟨newer, (List.cons.inj hsplit).2⟩
    have hmem : ∀ j ∈ i :: older, j ∈ d.bus.handedOut p := fun j hj =>
      hsplit' ▸ List.mem_append_right _ hj
    obtain ⟨hp, harr⟩ := hc.handed (hmem i List.mem_cons_self)
    have hsrb : (b'.irps i).srb = (d.bus.irps i).srb :=
      (m.srb harr).resolve_right fun ⟨q, _, _, hcur, _⟩ => hc.order.not_current hc.owned hold hcur
    rw [hsrb] at hop
    rw [(m.range hp harr).1, (m.range hp harr).2, hsrb, processor_of_moves m hp, m.array hp
      fun j hj => (hc.handed (hmem j (List.mem_cons_of_mem _ hj))).2]
    exact h p i rep hold hop newer' older hsplit'
  · -- the reply is taken now
    obtain ⟨hp, harr, -⟩ := hc.current hi
    obtain ⟨is, his⟩ := hc.order.current p i hi
    obtain ⟨hlen, hex⟩ := hc.numBytes hf hpc hi
    rw [(m.cdb harr).2] at hop
    have holder : older = is := by
      rcases hc.handedOut_move m p with ⟨hsame, -⟩ | ⟨r, j, -, -, -, -, hstart⟩
      · rw [hsame, his] at hsplit
        rcases newer with _ | ⟨j, newer⟩
        · exact (List.cons.inj hsplit).2.symm
        · have hnodup := hc.order.nodup p
          obtain ⟨rfl, htail⟩ := List.cons.inj hsplit
          rw [his, htail] at hnodup
          exact absurd (List.mem_append_right _ List.mem_cons_self) (List.nodup_cons.mp hnodup).1
      · rw [hpc] at hstart
        cases hstart
    subst holder
    have hread := hb.read p i hi hop hex
    rw [hs.bytes p hp, hc.array_of_current hi his (by rw [hop]; decide)] at hread
    rw [(m.range hp harr).1, (m.range hp harr).2, processor_of_moves m hp, m.array hp
      fun j hj => (hc.handed (his ▸ List.mem_cons_of_mem _ hj)).2]
    rw [hpc] at m
    obtain rfl := m.acceptAnswer hi (hc.cancel i)
    refine Agree.trans ?_ hread
    simpa [replyData, replyCopy, hop, hlen] using agree_overwrite_zero

/-! ## An execution -/

/-- **A thread executes the current request of its disk**, which was not executed before, on a range
inside the disk's file. -/
structure Executes (d : Driver) (v : Service) (pr : ProcId) (p : PdoId) (i : IrpId) : Prop where
  lt : p < d.bus.pdoCount
  buffer : (d.bus.pdos p).buffer = pr
  current : (d.bus.pdos p).currentIrp = some i
  origin : (v.procs pr).mReq.origin = some (p, i)
  fresh : v.hasExecuted p i = false
  code : ∀ op : UCHAR, (v.procs pr).mReq.val.code = op.toUInt32 ↔
    (d.bus.irps i).srb.cdb.operationCode = op
  position : IoOutcome.position (v.procs pr).mReq.val (v.procs pr).geometry = d.bus.offset p i
  length : IoOutcome.length (v.procs pr).mReq.val (v.procs pr).geometry = d.bus.byteCount p i
  fits : d.bus.offset p i + d.bus.byteCount p i ≤ (v.files (v.procs pr).file).size

/-- **What a thread is about to execute.** -/
theorem Coherent.executes (h : Coherent d v) (hb : FileBacked files d v) (hs : Stored files d v)
    (hpc : (v.procs pr).pc = .exec) : ∃ p i, Executes d v pr p i := by
  obtain ⟨p, i, hor, hcur, hp, rfl⟩ := h.tokens.current_of_exec h.order hpc
  have hval := (h.tokens.mReq _ p i hor).2.2
  obtain ⟨-, -, hsize⟩ := h.current hcur
  obtain ⟨hn, hbs⟩ := h.geometry p hp
  have hgeo : (processor d v p).geometry = (v.procs (d.bus.pdos p).buffer).geometry := rfl
  refine ⟨p, i, hp, rfl, hcur, hor, ?_, fun op => ?_, ?_, ?_, ?_⟩
  · rw [Bool.eq_false_iff]
    intro hex
    obtain ⟨e, he, hoe⟩ := Service.hasExecuted_iff.mp hex
    exact h.once.ahead p i ⟨.disk _, hpc, (token_exec hpc).trans hor⟩ e he hoe
  · rw [hval]
    exact code_busSetupRequest
  · rw [hval, position_busSetupRequest, ← hgeo, ← hbs]
    rfl
  · rw [hval, length_busSetupRequest, ← hgeo, ← hbs]
    · rfl
    · rw [← hgeo, ← hbs]
      exact hsize.buffer
  · have hinit := Backing.toNat_of_init (b := .file _) (hb.init p hp)
    calc d.bus.offset p i + d.bus.byteCount p i
        = ((d.bus.irps i).srb.cdb.firstBlock + (d.bus.irps i).srb.cdb.blockCount) *
            (d.bus.pdos p).blockSize.toNat := (Nat.add_mul ..).symm
      _ ≤ (d.bus.pdos p).nBlocks.toNat * (d.bus.pdos p).blockSize.toNat :=
          Nat.mul_le_mul_right _ hsize.blocks
      _ = (files (processor d v p).file).size / 512 * 512 := by
          rw [hn, hbs, hinit.1, hinit.2]
          rfl
      _ ≤ (files (processor d v p).file).size := Nat.div_mul_le_self ..
      _ = (v.files (processor d v p).file).size := (hs.size p hp).symm

/-- The service after an execution that is done in full. -/
abbrev executedIn (d : Driver) (v : Service) (pr : ProcId) : Service :=
  v.executed pr
    (IoOutcome.complete.perform (v.procs pr).mReq.val (v.procs pr).geometry (d.bus.memory pr)
      (v.files (v.procs pr).file)).1
    (IoOutcome.complete.perform (v.procs pr).mReq.val (v.procs pr).geometry (d.bus.memory pr)
      (v.files (v.procs pr).file)).2.2

/-- The buffer after it. -/
abbrev bufferAfter (d : Driver) (v : Service) (pr : ProcId) : Bytes :=
  (IoOutcome.complete.perform (v.procs pr).mReq.val (v.procs pr).geometry (d.bus.memory pr)
    (v.files (v.procs pr).file)).2.1

/-- The other files are left alone. -/
theorem executedIn_files_of_ne {f : FileId} (hf : (v.procs pr).file ≠ f) :
    (executedIn d v pr).files f = v.files f := by
  simp [Ne.symm hf]

namespace Executes

/-- The range lies in the file. -/
theorem inside (h : Executes d v pr p i) :
    IoOutcome.position (v.procs pr).mReq.val (v.procs pr).geometry +
      IoOutcome.length (v.procs pr).mReq.val (v.procs pr).geometry ≤
        (v.files (v.procs pr).file).size := by
  rw [h.position, h.length]
  exact h.fits

/-- A READ changes no file, and the buffer holds what it found. -/
theorem read (h : Executes d v pr p i) (hop : (d.bus.irps i).srb.cdb.operationCode = scsiopRead) :
    (executedIn d v pr).files = v.files ∧
    Agree (d.bus.byteCount p i) (bufferAfter d v pr)
      ((v.files (v.procs pr).file).bytes.window (d.bus.offset p i)) := by
  have hcode := (h.code scsiopRead).mpr hop
  rw [executedIn, bufferAfter, IoOutcome.perform_read hcode h.inside, h.position, h.length]
  exact ⟨by simp, agree_overwrite_zero⟩

/-- **A WRITE** makes its range of the file what the buffer holds. -/
theorem write (h : Executes d v pr p i)
    (hop : (d.bus.irps i).srb.cdb.operationCode ≠ scsiopRead) :
    (executedIn d v pr).files (v.procs pr).file = (v.files (v.procs pr).file).write
      (d.bus.offset p i) (d.bus.byteCount p i) (d.bus.memory pr) := by
  have hcode := fun hc => hop ((h.code scsiopRead).mp hc)
  rw [executedIn, IoOutcome.perform_write hcode, h.position, h.length]
  simp

/-- **What has been executed then**: one IRP more. -/
theorem hasExecuted (h : Executes d v pr p i) (q : PdoId) (j : IrpId) :
    (executedIn d v pr).hasExecuted q j = (decide (q = p ∧ j = i) || v.hasExecuted q j) := by
  rw [Service.hasExecuted, Service.executed_executions, List.any_cons, h.origin]
  congr 1
  simp [eq_comm]

end Executes

/-- The IRPs handed out for a disk that were executed, after an execution. -/
theorem Executes.filter (h : Executes d v pr p i) (hi : d.InOrder) (q : PdoId) :
    (d.bus.handedOut q).filter ((executedIn d v pr).hasExecuted q) =
      if q = p then i :: (d.bus.handedOut q).filter (v.hasExecuted q)
      else (d.bus.handedOut q).filter (v.hasExecuted q) := by
  by_cases hq : q = p
  · subst hq
    obtain ⟨is, his⟩ := hi.current q i h.current
    have hnodup := hi.nodup q
    rw [his, List.nodup_cons] at hnodup
    rw [if_pos rfl, his, List.filter_cons_of_pos (by simp [h.hasExecuted]),
      List.filter_cons_of_neg (by simp [h.fresh])]
    refine congrArg _ (List.filter_congr fun j hj => ?_)
    have hne : j ≠ i := by
      rintro rfl
      exact hnodup.1 hj
    simp [h.hasExecuted, hne]
  · rw [if_neg hq]
    exact List.filter_congr fun j _ => by simp [h.hasExecuted, hq]

/-- **An execution keeps what the files hold**: a WRITE is one more of those executed. -/
theorem Stored.execute (h : Stored files d v) (hx : Executes d v pr p i) (hi : d.InOrder)
    (hb : FileBacked files d v) (hbuf : Buffered d v) (hr : Registry d v)
    (m : Serves d v x act (executedIn d v pr))
    (hrw : (d.bus.irps i).srb.cdb.isReadWrite = true) :
    Stored files d (executedIn d v pr) := by
  have hfile : (processor d v p).file = (v.procs pr).file := by rw [processor, hx.buffer]
  -- another disk's file is another file
  have hne : ∀ q < d.bus.pdoCount, q ≠ p → (v.procs pr).file ≠ (processor d v q).file :=
    fun q hq hqp heq => hqp (hb.distinct q hq p hx.lt (heq.symm.trans hfile.symm))
  refine ⟨fun q hq => ?_, fun q hq => ?_, fun f hf => ?_⟩
  · rw [file_of_serves hr m hq, ← h.size q hq]
    by_cases hqp : q = p
    · subst hqp
      rw [hfile]
      by_cases hop : (d.bus.irps i).srb.cdb.operationCode = scsiopRead
      · rw [(hx.read hop).1]
      · rw [hx.write hop, File.size_write_of_le hx.fits]
    · rw [executedIn_files_of_ne (hne q hq hqp)]
  · rw [file_of_serves hr m hq, hx.filter hi q]
    by_cases hqp : q = p
    · subst hqp
      have hold := h.bytes q hq
      rw [if_pos rfl]
      by_cases hop : (d.bus.irps i).srb.cdb.operationCode = scsiopRead
      · rw [(hx.read hop).1, hold, Bus.array_cons_of_ne (by rw [hop]; decide)]
      · have hw : (d.bus.irps i).srb.cdb.operationCode = scsiopWrite := by
          simpa [Cdb.isReadWrite, hop] using hrw
        have hdata := hbuf.write q i hx.current hw hx.fresh
        rw [Bus.array_cons_of_write hw, ← hold, ← overwrite_congr hdata, hfile, hx.write hop,
          hx.buffer]
        rfl
    · rw [if_neg hqp, executedIn_files_of_ne (hne q hq hqp)]
      exact h.bytes q hq
  · have hf' : ∀ q < d.bus.pdoCount, (processor d v q).file ≠ f := fun q hq =>
      file_of_serves hr m hq ▸ hf q hq
    rw [executedIn_files_of_ne (hfile ▸ hf' p hx.lt)]
    exact h.others f hf'

/-- **An execution keeps what the buffers hold**: a READ fills its disk's. -/
theorem Buffered.execute (h : Buffered d v) (hx : Executes d v pr p i) (hc : Coherent d v)
    (hb : FileBacked files d v) (m : Serves d v x act (executedIn d v pr)) :
    Buffered { d with bus := d.bus.setMemory pr (bufferAfter d v pr) } (executedIn d v pr) := by
  have hfile : (processor d v p).file = (v.procs pr).file := by rw [processor, hx.buffer]
  have hmem : ∀ {q}, q < d.bus.pdoCount → q ≠ p →
      (d.bus.setMemory pr (bufferAfter d v pr)).memory (d.bus.pdos q).buffer =
        d.bus.memory (d.bus.pdos q).buffer := by
    intro q hq hqp
    have hne : (d.bus.pdos q).buffer ≠ pr := fun heq =>
      hqp (hc.registry.injective q hq p hx.lt (heq.trans hx.buffer.symm))
    simp [hne]
  refine ⟨fun q j hj hop hn => ?_, fun q j hj hop hex => ?_⟩
  · rw [hx.hasExecuted, Bool.or_eq_false_iff] at hn
    have hqp : q ≠ p := by
      rintro rfl
      obtain rfl := Option.some.inj (hx.current.symm.trans hj)
      simp at hn
    have hold := h.write q j hj hop hn.2
    rw [← hmem (hc.current hj).1 hqp] at hold
    exact hold
  · have hq := (hc.current hj).1
    by_cases hqp : q = p
    · subst hqp
      obtain rfl := Option.some.inj (hx.current.symm.trans hj)
      obtain ⟨hfiles, hread⟩ := hx.read hop
      show Agree (d.bus.byteCount q i) ((d.bus.setMemory pr (bufferAfter d v pr)).memory
        (d.bus.pdos q).buffer) (((executedIn d v pr).files
          (processor d (executedIn d v pr) q).file).bytes.window (d.bus.offset q i))
      rw [file_of_serves hc.registry m hq, hfiles, hfile, hx.buffer]
      simpa using hread
    · have hne : (v.procs pr).file ≠ (processor d v q).file := fun heq =>
        hqp (hb.distinct q hq p hx.lt (heq.symm.trans hfile.symm))
      have hold := h.read q j hj hop (by simpa [hx.hasExecuted, hqp] using hex)
      rw [← hmem hq hqp, ← executedIn_files_of_ne hne, ← file_of_serves hc.registry m hq] at hold
      exact hold

/-- An operation that is done in full is counted. -/
theorem InFull.execute (h : InFull v) (hx : Executes d v pr p i) : InFull (executedIn d v pr) := by
  intro e he
  rcases List.mem_cons.mp he with rfl | he
  · by_cases hop : (d.bus.irps i).srb.cdb.operationCode = scsiopRead
    · rw [IoOutcome.perform_read ((hx.code _).mpr hop) hx.inside]
      exact ⟨rfl, _, rfl, rfl⟩
    · rw [IoOutcome.perform_write fun hc => hop ((hx.code _).mp hc)]
      exact ⟨rfl, _, rfl, rfl⟩
  · exact h e he

/-! ## The invariant -/

/-- **What the files, the buffers and the requesters hold.** -/
structure Data (files : FileId → File) (d : Driver) (v : Service) : Prop where
  stored : Stored files d v
  buffered : Buffered d v
  returned : Returned files d v
  inFull : InFull v

namespace Data

/-- A step of the service that executes nothing keeps it. -/
theorem serve (h : Data files d v) (hc : Coherent d v) (m : Serves d v x act v')
    (he : v'.executions = v.executions) (hf : v'.files = v.files) : Data files d v' where
  stored := h.stored.serve hc.registry m he hf
  buffered := h.buffered.serve hc m he hf
  returned := h.returned.serve hc m
  inFull := fun e => he ▸ h.inFull e

/-- A move of the driver keeps it. -/
theorem move (h : Data files d v) (hc : Coherent d v)
    (hb : FileBacked files (d.put t (b', pc')) v) (m : Moves t d.bus a (d.calls t) b' pc') :
    Data files (d.put t (b', pc')) v where
  stored := h.stored.move hc hb m
  buffered := h.buffered.move hc m
  returned := h.returned.move h.stored h.buffered h.inFull hc m
  inFull := h.inFull

/-- An execution keeps it. -/
theorem execute (h : Data files d v) (hc : Coherent d v) (ha : d.Arrived)
    (hb : FileBacked files d v) (hpc : (v.procs pr).pc = .exec)
    (m : Serves d v x act (executedIn d v pr)) :
    Data files { d with bus := d.bus.setMemory pr (bufferAfter d v pr) } (executedIn d v pr) := by
  obtain ⟨p, i, hx⟩ := hc.executes hb h.stored hpc
  have hrw := ha.readWrite i (ha.current p i hx.current)
  have hs := h.stored.execute hx hc.order hb h.buffered hc.registry m hrw
  exact {
    stored := ⟨hs.size, hs.bytes, hs.others⟩
    buffered := h.buffered.execute hx hc hb m
    returned := h.returned.serve hc m
    inFull := h.inFull.execute hx }

end Data

/-- A mapped buffer is written into by an execution. -/
theorem execution_of_userWrite {f : Bytes}
    (m : Serves d v x (some (.userWrite pr f)) v') : ∃ out, x = .disk pr out ∧
      (v.procs pr).pc = .exec ∧
      f = (out.perform (v.procs pr).mReq.val (v.procs pr).geometry (d.bus.memory pr)
        (v.files (v.procs pr).file)).2.1 ∧
      v' = v.executed pr
        (out.perform (v.procs pr).mReq.val (v.procs pr).geometry (d.bus.memory pr)
          (v.files (v.procs pr).file)).1
        (out.perform (v.procs pr).mReq.val (v.procs pr).geometry (d.bus.memory pr)
          (v.files (v.procs pr).file)).2.2 := by
  cases m with
  | execute hpc hc => exact ⟨_, rfl, hpc, rfl, rfl⟩
  | driver h => cases h

/-- **The files, the buffers and the requesters hold what they must**, in every faultless run of
disks that are backed by files of their own. -/
theorem data (h : (lts files).Reach Faultless s) (hb : FileBacked files s.driver s.service) :
    Data files s.driver s.service := by
  refine h.invariant (I := fun s => FileBacked files s.driver s.service →
    Data files s.driver s.service) (fun _ => ?_) (fun s x s' hr hi hC hs hb => ?_) hb
  · refine ⟨⟨?_, ?_, fun _ _ => rfl⟩, ⟨?_, ?_⟩, ?_, ?_⟩
    · intro p hp
      cases hp
    · intro p hp
      cases hp
    · rintro p i ⟨⟩
    · rintro p i ⟨⟩
    · rintro p i rep ⟨⟩
    · rintro e ⟨⟩
  obtain ⟨d', v'⟩ := s'
  obtain ⟨act, m, hd⟩ := step_serves hs
  have hc := coherent hr
  have hc' := coherent_of_serves hr hC m hd
  cases act with
  | none =>
    obtain rfl := Option.some.inj hd
    rcases m.execution with ⟨he, hf⟩ | ⟨_, _, -, -, hact, -⟩
    · exact (hi (hb.of_serves hc.registry m)).serve hc m he hf
    · cases hact
  | some a =>
    rcases Driver.step_moves hd with ⟨t, b', pc', hm, rfl⟩ | ⟨pr, f, rfl, rfl⟩ | ⟨e, rfl, -, rfl⟩
    · rcases m.execution with ⟨he, hf⟩ | ⟨_, _, -, -, hact, -⟩
      · have hdata := (hi ((hb.of_moves hm).of_serves hc.registry m)).serve hc m he hf
        exact hdata.move hc' hb hm
      · cases hact
        cases hm.thread
    · obtain ⟨out, rfl, hpc, rfl, rfl⟩ := execution_of_userWrite m
      obtain rfl : out = .complete := hC
      have hb : FileBacked files s.driver s.service :=
        FileBacked.of_serves ⟨hb.init, hb.distinct⟩ hc.registry m
      exact (hi hb).execute hc (Driver.arrived (driver_reachable hr)) hb hpc m
    · rcases m.execution with ⟨he, hf⟩ | ⟨_, _, -, -, hact, -⟩
      · have hb : FileBacked files s.driver s.service :=
          FileBacked.of_serves ⟨hb.init, hb.distinct⟩ hc.registry m
        have hdata := (hi hb).serve hc m he hf
        exact ⟨⟨hdata.stored.size, hdata.stored.bytes, hdata.stored.others⟩,
          ⟨hdata.buffered.write, hdata.buffered.read⟩, hdata.returned, hdata.inFull⟩
      · cases hact

end System

end VirtualDisk
