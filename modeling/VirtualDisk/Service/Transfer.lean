import VirtualDisk.Driver.Completion
import VirtualDisk.Service.Contents
import VirtualDisk.Service.Limits

/-!
# Service/Transfer — a request from its SRB to its completion

`BusSetupRequest`, the operation of `CFileStorage`, `SendReply` and `Bus_ProcessReply`, one after
the other, for any address and any length.  None of them knows the size of the disk: the driver
passes the address on, the storage seeks there, and the file decides.  A READ past the end of the
file succeeds with the bytes there are, a WRITE past it makes the file longer.
-/

namespace VirtualDisk

open Machinery Machinery.Bytes

variable {st : Storage} {n : ℕ} {pdo : PdoDeviceData} {srb : ScsiRequestBlock} {x : CDiskProcessor}
  {buffer : Bytes} {f : File} {out : IoOutcome}

/-! ## The request -/

/-- An operation of `CFileStorage`: all of its calls succeed, or it returns FALSE or throws. -/
def IoOutcome.OfFile : IoOutcome → Prop
  | .complete => True
  | .other ok _ _ _ => ok = false

/-- What a request comes to: the SRB as it is completed, the file, and the bytes counted. -/
structure Transfer where
  srb : ScsiRequestBlock
  file : File
  numBytes : ULONG

/-- The result of the file operation for a request of the PDO, and the buffer and the file after it;
`buffer` is what was mapped before. -/
def fileOperation (pdo : PdoDeviceData) (srb : ScsiRequestBlock) (g : Geometry) (buffer : Bytes)
    (f : File) (out : IoOutcome) : (Bool × Option ULONG) × Bytes × File :=
  out.perform (busSetupRequest pdo srb) g (setupBuffer srb buffer) f

/-- What the processor `x` sends then. -/
def transferReply (pdo : PdoDeviceData) (srb : ScsiRequestBlock) (x : CDiskProcessor)
    (buffer : Bytes) (f : File) (out : IoOutcome) : BusenumReply :=
  let r := fileOperation pdo srb x.geometry buffer f out
  (Service.reply { x with
    mReq := ⟨busSetupRequest pdo srb, x.mReq.origin⟩
    b := r.1.1
    nBytes := r.1.2.getD x.nBytes }).val

/-- **A request of the PDO, executed by the processor `x`.** -/
def transfer (pdo : PdoDeviceData) (srb : ScsiRequestBlock) (x : CDiskProcessor) (buffer : Bytes)
    (f : File) (out : IoOutcome) : Transfer :=
  let r := fileOperation pdo srb x.geometry buffer f out
  let rep := transferReply pdo srb x buffer f out
  { srb := (replySrb pdo srb rep r.2.1).2
    file := r.2.2
    numBytes := rep.numBytes }

/-- A request is refused beyond the end of its disk, and success is complete. -/
structure RangeChecked (st : Storage) (srb : ScsiRequestBlock) (f : File) (r : Transfer) :
    Prop where
  refused : st.geometry.nBlocks.toNat < srb.cdb.firstBlock + srb.cdb.blockCount →
    r.srb.srbStatus ≠ srbStatusSuccess ∧ r.file = f
  complete : r.srb.srbStatus = srbStatusSuccess →
    r.numBytes.toNat = srb.cdb.blockCount * st.geometry.blockSize.toNat

/-- **What the file makes of a request.** -/
structure FileTransfer (st : Storage) (srb : ScsiRequestBlock) (buffer : Bytes) (f : File)
    (out : IoOutcome) (r : Transfer) : Prop where
  success : r.srb.srbStatus = srbStatusSuccess ↔ out = .complete
  read : out = .complete → srb.cdb.operationCode = scsiopRead → r.file = f ∧
    r.srb.dataTransferLength = r.numBytes ∧
    r.numBytes.toNat = min (srb.cdb.blockCount * 512) (f.size - srb.cdb.firstBlock * 512)
  write : out = .complete → srb.cdb.operationCode = scsiopWrite →
    r.numBytes.toNat = srb.cdb.blockCount * 512 ∧
    r.file.size = max f.size ((srb.cdb.firstBlock + srb.cdb.blockCount) * 512) ∧
    r.file.bytes = overwrite f.bytes (srb.cdb.firstBlock * 512) (srb.cdb.blockCount * 512)
      (setupBuffer srb buffer)
  inside : srb.cdb.firstBlock + srb.cdb.blockCount ≤ st.geometry.nBlocks.toNat →
    st.geometry.nBlocks.toNat * 512 ≤ f.size → r.srb.srbStatus = srbStatusSuccess →
    r.numBytes.toNat = srb.cdb.blockCount * 512 ∧ r.file.size = f.size

/-! ## The file decides -/

/-- The SRB of a reply does not depend on the PDO. -/
theorem replySrb_snd (pdo pdo' : PdoDeviceData) (srb : ScsiRequestBlock) (rep : BusenumReply)
    (buffer : Bytes) : (replySrb pdo srb rep buffer).2 = (replySrb pdo' srb rep buffer).2 := by
  unfold replySrb
  split <;> rfl

/-- A plain file's blocks have 512 bytes. -/
theorem Storage.blockSize_file (hst : st.backing = .file n) :
    st.geometry.blockSize.toNat = 512 := by
  rw [st.toNat_blockSize, hst]
  rfl

/-- **The SRB succeeds as the file operation does**, whatever the address. -/
theorem transfer_success (hout : out.OfFile) :
    (transfer pdo srb x buffer f out).srb.srbStatus = srbStatusSuccess ↔ out = .complete := by
  have hfields := (replySrb_fields pdo srb (transferReply pdo srb x buffer f out)
    (fileOperation pdo srb x.geometry buffer f out).2.1).1
  have hstatus : (transferReply pdo srb x buffer f out).status =
      if (fileOperation pdo srb x.geometry buffer f out).1.1 then statusSuccess
      else statusUnsuccessful := rfl
  rw [transfer, hfields, hstatus]
  cases out with
  | complete =>
    have hok : (fileOperation pdo srb x.geometry buffer f .complete).1.1 = true := by
      simp only [fileOperation, IoOutcome.perform]
      split <;> rfl
    simp [hok]
  | other ok count buffer' f' =>
    obtain rfl : ok = false := hout
    have hne : statusUnsuccessful ≠ statusSuccess := by decide
    have herror : srbStatusError ||| srbStatusAutosenseValid ≠ srbStatusSuccess := by decide
    simp [fileOperation, IoOutcome.perform, hne, herror]

section Complete

variable (hg : x.geometry.blockSize.toNat = 512) (hfit : srb.cdb.blockCount * 512 ≤ bufferSize)
include hg hfit

/-- The bytes a request is for. -/
theorem length_of_fit :
    IoOutcome.length (busSetupRequest pdo srb) x.geometry = srb.cdb.blockCount * 512 := by
  rw [length_busSetupRequest (by rw [hg]; exact hfit), hg]

/-- **A READ** leaves the file alone and counts the bytes there are. -/
theorem transfer_read (pdo : PdoDeviceData) (buffer : Bytes) (f : File)
    (hop : srb.cdb.operationCode = scsiopRead) :
    (transfer pdo srb x buffer f .complete).file = f ∧
    (transfer pdo srb x buffer f .complete).srb.dataTransferLength =
      (transfer pdo srb x buffer f .complete).numBytes ∧
    (transfer pdo srb x buffer f .complete).numBytes.toNat =
      min (srb.cdb.blockCount * 512) (f.size - srb.cdb.firstBlock * 512) := by
  have hcode : (busSetupRequest pdo srb).code = scsiopRead.toUInt32 := code_busSetupRequest.mpr hop
  have hres : fileOperation pdo srb x.geometry buffer f .complete =
      ((true, some (UInt32.ofNat (min (srb.cdb.blockCount * 512)
        (f.size - srb.cdb.firstBlock * 512)))),
        (f.read (srb.cdb.firstBlock * 512) (srb.cdb.blockCount * 512) (setupBuffer srb buffer)).1,
        f) := by
    rw [fileOperation, IoOutcome.perform, if_pos hcode, length_of_fit hg hfit,
      position_busSetupRequest, hg]
    rfl
  refine ⟨?_, ?_, ?_⟩
  · rw [transfer, hres]
  · rw [transfer, replySrb_dataTransferLength, replyData, if_pos hop]
  · rw [transfer, transferReply, hres]
    show (UInt32.ofNat (min _ _)).toNat = _
    rw [UInt32.toNat_ofNat']
    refine Nat.mod_eq_of_lt (Nat.lt_of_le_of_lt (Nat.min_le_left _ _) ?_)
    exact Nat.lt_of_le_of_lt hfit (by decide)

/-- **A WRITE** counts all of its bytes and extends a file that is too short. -/
theorem transfer_write (pdo : PdoDeviceData) (buffer : Bytes) (f : File)
    (hop : srb.cdb.operationCode = scsiopWrite) :
    (transfer pdo srb x buffer f .complete).numBytes.toNat = srb.cdb.blockCount * 512 ∧
    (transfer pdo srb x buffer f .complete).file.size =
      max f.size ((srb.cdb.firstBlock + srb.cdb.blockCount) * 512) ∧
    (transfer pdo srb x buffer f .complete).file.bytes = overwrite f.bytes
      (srb.cdb.firstBlock * 512) (srb.cdb.blockCount * 512) (setupBuffer srb buffer) := by
  have hcode : (busSetupRequest pdo srb).code ≠ scsiopRead.toUInt32 := fun h =>
    absurd (hop.symm.trans (code_busSetupRequest.mp h)) (by decide)
  have hres : fileOperation pdo srb x.geometry buffer f .complete =
      ((true, some (ioLength (busSetupRequest pdo srb).transferBlocks x.geometry.blockSize)),
        setupBuffer srb buffer,
        f.write (srb.cdb.firstBlock * 512) (srb.cdb.blockCount * 512)
          (setupBuffer srb buffer)) := by
    rw [fileOperation, IoOutcome.perform_write hcode, length_of_fit hg hfit,
      position_busSetupRequest, hg]
  refine ⟨?_, ?_, ?_⟩
  · rw [transfer, transferReply, hres]
    exact length_of_fit hg hfit
  · rw [transfer, hres, Nat.add_mul]
    rfl
  · rw [transfer, hres]
    rfl

end Complete

/-- **A request is never refused for its address**: the SRB succeeds as the file operation does; a
READ past the end of the file gets the bytes there are, a WRITE extends the file; inside the disk,
success means that every byte was transferred. -/
theorem fileTransfer (hst : st.backing = .file n) (hx : x.geometry = st.geometry)
    (hrw : srb.cdb.isReadWrite = true) (hfit : srb.cdb.blockCount * 512 ≤ bufferSize)
    (hout : out.OfFile) :
    FileTransfer st srb buffer f out (transfer pdo srb x buffer f out) := by
  have hg : x.geometry.blockSize.toNat = 512 := by rw [hx]; exact st.blockSize_file hst
  refine ⟨transfer_success hout, ?_, ?_, fun hin hsize hs => ?_⟩
  · rintro rfl hop
    exact transfer_read hg hfit pdo buffer f hop
  · rintro rfl hop
    exact transfer_write hg hfit pdo buffer f hop
  · obtain rfl := (transfer_success hout).mp hs
    have hle : (srb.cdb.firstBlock + srb.cdb.blockCount) * 512 ≤ f.size :=
      Nat.le_trans (Nat.mul_le_mul_right 512 hin) hsize
    rcases Bool.or_eq_true_iff.mp hrw with hop | hop
    · obtain ⟨hfile, -, hbytes⟩ := transfer_read hg hfit pdo buffer f (of_decide_eq_true hop)
      refine ⟨?_, by rw [hfile]⟩
      rw [hbytes]
      omega
    · obtain ⟨hbytes, hsz, -⟩ := transfer_write hg hfit pdo buffer f (of_decide_eq_true hop)
      exact ⟨hbytes, by rw [hsz]; exact Nat.max_eq_left hle⟩

/-! ## Past the end of eight blocks -/

/-- A request for the first block past the eight of `smallFile`. -/
def pastTheEnd (operationCode : UCHAR) : ScsiRequestBlock where
  cdb := { operationCode, logicalBlockByte3 := 8, transferBlocksLsb := 1 }
  dataTransferLength := 512

/-- The file of eight blocks. -/
def eightBlocksFile : File := ⟨4096, fun _ => 0⟩

/-- What comes of the request. -/
def pastTheEndTransfer (operationCode : UCHAR) : Transfer :=
  transfer {} (pastTheEnd operationCode) { geometry := Driver.smallFile.geometry } (fun _ => 0)
    eightBlocksFile .complete

/-- A WRITE of it gives the file nine blocks. -/
theorem fileTransfer_pastTheEnd :
    FileTransfer Driver.smallFile (pastTheEnd scsiopWrite) (fun _ => 0) eightBlocksFile .complete
      (pastTheEndTransfer scsiopWrite) ∧ (pastTheEndTransfer scsiopWrite).file.size = 4608 := by
  have h : FileTransfer Driver.smallFile (pastTheEnd scsiopWrite) (fun _ => 0) eightBlocksFile
      .complete (pastTheEndTransfer scsiopWrite) :=
    fileTransfer (n := 4096) rfl rfl (by decide) (by decide) trivial
  exact ⟨h, (h.write rfl rfl).2.1⟩

/-- **Past the end of the disk a WRITE succeeds and makes the file longer, and a READ succeeds with
nothing read.** -/
theorem not_rangeChecked :
    ¬ RangeChecked Driver.smallFile (pastTheEnd scsiopWrite) eightBlocksFile
      (pastTheEndTransfer scsiopWrite) ∧
    ¬ RangeChecked Driver.smallFile (pastTheEnd scsiopRead) eightBlocksFile
      (pastTheEndTransfer scsiopRead) := by
  constructor
  · intro h
    have hsize := congrArg File.size (h.refused (by decide)).2
    rw [pastTheEndTransfer, (transfer_write rfl (by decide) _ _ _ rfl).2.1] at hsize
    exact absurd hsize (by decide)
  · intro h
    have hok : (pastTheEndTransfer scsiopRead).srb.srbStatus = srbStatusSuccess :=
      (transfer_success (show IoOutcome.complete.OfFile from trivial)).mpr rfl
    have hbytes := h.complete hok
    rw [pastTheEndTransfer, (transfer_read rfl (by decide) _ _ _ rfl).2.2] at hbytes
    exact absurd hbytes (by decide)

/-! ## In the system -/

/-- **The operation and the answer are these steps of the system**: the disk's thread, at a request
of the PDO's current IRP, performs the operation and takes the reply into the driver. -/
theorem System.exec_transfer {s : System} {files : FileId → File} {pr : ProcId} {p : PdoId}
    {i : IrpId} (out : IoOutcome) (buffer : Bytes) (hexec : (s.service.procs pr).pc = .exec)
    (hreq : (s.service.procs pr).mReq.val =
      busSetupRequest (s.driver.bus.pdos p) (s.driver.bus.irps i).srb)
    (hrw : (s.driver.bus.irps i).srb.cdb.isReadWrite = true)
    (hbuf : (s.driver.bus.pdos p).buffer = pr)
    (hmem : s.driver.bus.memory pr = setupBuffer (s.driver.bus.irps i).srb buffer)
    (hidle : s.driver.calls (.disk pr) = .idle) (hd : s.driver.bus.fdo.devicePnPState ≠ .deleted)
    (hm : s.driver.bus.fdo.mutex = none) (hn : s.driver.bus.fdo.numPDOs ≠ 0)
    (hf : s.driver.bus.findPdo (s.driver.bus.pdos p).serialNo = some p)
    (hl : (s.driver.bus.pdos p).pdoLock = none) (hi : (s.driver.bus.pdos p).currentIrp = some i)
    (hc : (s.driver.bus.irps i).cancel = false) :
    ∃ s', (lts files).exec (fun _ _ => true) [.disk pr out, .disk pr out,
        .driver (.step (.disk pr) true), .driver (.step (.disk pr) true)] s = some s' ∧
      (s'.driver.bus.irps i).srb = (transfer (s.driver.bus.pdos p) (s.driver.bus.irps i).srb
        (s.service.procs pr) buffer (s.service.files (s.service.procs pr).file) out).srb ∧
      s'.service.files (s.service.procs pr).file = (transfer (s.driver.bus.pdos p)
        (s.driver.bus.irps i).srb (s.service.procs pr) buffer
        (s.service.files (s.service.procs pr).file) out).file := by
  have hcode : (s.service.procs pr).mReq.val.code = scsiopRead.toUInt32 ∨
      (s.service.procs pr).mReq.val.code = scsiopWrite.toUInt32 := by
    rw [hreq]
    exact (Bool.or_eq_true_iff.mp hrw).imp (fun h => code_busSetupRequest.mpr (of_decide_eq_true h))
      fun h => code_busSetupRequest.mpr (of_decide_eq_true h)
  have hperform : out.perform (s.service.procs pr).mReq.val (s.service.procs pr).geometry
      (s.driver.bus.memory pr) (s.service.files (s.service.procs pr).file) =
      fileOperation (s.driver.bus.pdos p) (s.driver.bus.irps i).srb (s.service.procs pr).geometry
        buffer (s.service.files (s.service.procs pr).file) out := by
    rw [hreq, hmem]
    rfl
  set r := fileOperation (s.driver.bus.pdos p) (s.driver.bus.irps i).srb
    (s.service.procs pr).geometry buffer (s.service.files (s.service.procs pr).file) out with hr
  have hstep : s.step (.disk pr out) = some ⟨{ s.driver with
      bus := s.driver.bus.setMemory pr r.2.1 }, s.service.executed pr r.1 r.2.2⟩ := by
    simp only [step, Service.step, Service.diskStep, hexec, if_pos hcode, hperform,
      Option.bind_some, perform, Driver.step, Option.map_some]
  have hfind : (s.driver.bus.setMemory pr r.2.1).findPdo (s.driver.bus.pdos p).serialNo = some p :=
    hf
  rw [Lts.exec_cons _ rfl hstep]
  simp [Lts.exec, lts, step, Service.step, Service.diskStep, perform, Driver.step, Bus.enter,
    Bus.dispatch, hidle, hd, Action.external, Pc.step, Bus.replyFindStep, hm, hn, Service.reply,
    hreq, busSetupRequest, hfind, Bus.replyTakeStep, hl, hi, Bus.acceptReply, hc]
  refine ⟨?_, rfl⟩
  rw [hbuf, Function.update_self]
  exact replySrb_snd _ _ _ _ _

end VirtualDisk
