import VirtualDisk.Driver.HandOut
import VirtualDisk.Service.Correspondence

/-!
# Service/Faultless — runs in which nothing is cancelled, removed or cut short

In a *faultless* run disks are only added, no IRP is cancelled, every request fits its disk and
every file operation is done in full.  The driver's part of such a run is a regular one and its
service's part an orderly one, and no request gets lost: the current IRP of a disk is always the
request of some stage of the service.
-/

namespace VirtualDisk

open Machinery

variable {t : Tid} {a : Action} {b b' : Bus} {pc pc' : Pc} {p q : PdoId} {i j : IrpId} {r : RqId}
variable {d d' : Driver} {v v' : Service} {pr : ProcId} {x : SysAction} {act : Option Action}

/-! ## Requests that fit -/

namespace Cdb

/-- **The first block of a READ(10)/WRITE(10)**: a big-endian integer of four bytes. -/
def firstBlock (c : Cdb) : ℕ :=
  c.logicalBlockByte0.toNat * 2 ^ 24 + c.logicalBlockByte1.toNat * 2 ^ 16
    + c.logicalBlockByte2.toNat * 2 ^ 8 + c.logicalBlockByte3.toNat

/-- **The number of its blocks**: a big-endian integer of two bytes. -/
def blockCount (c : Cdb) : ℕ := c.transferBlocksMsb.toNat * 2 ^ 8 + c.transferBlocksLsb.toNat

end Cdb

/-- **The SRB fits the disk**: its blocks are on the disk, its length is theirs, and that is no
longer than the mapped buffer. -/
structure Fits (d : PdoDeviceData) (srb : ScsiRequestBlock) : Prop where
  blocks : srb.cdb.firstBlock + srb.cdb.blockCount ≤ d.nBlocks.toNat
  length : srb.dataTransferLength.toNat = srb.cdb.blockCount * d.blockSize.toNat
  buffer : srb.dataTransferLength.toNat ≤ bufferSize

instance (d : PdoDeviceData) (srb : ScsiRequestBlock) : Decidable (Fits d srb) :=
  decidable_of_iff (srb.cdb.firstBlock + srb.cdb.blockCount ≤ d.nBlocks.toNat ∧
    srb.dataTransferLength.toNat = srb.cdb.blockCount * d.blockSize.toNat ∧
    srb.dataTransferLength.toNat ≤ bufferSize)
    ⟨fun h => ⟨h.1, h.2.1, h.2.2⟩, fun h => ⟨h.blocks, h.length, h.buffer⟩⟩

/-- What an answer leaves of it: a READ's length is overwritten by the count of the bytes read. -/
structure Sized (d : PdoDeviceData) (srb : ScsiRequestBlock) : Prop where
  blocks : srb.cdb.firstBlock + srb.cdb.blockCount ≤ d.nBlocks.toNat
  buffer : srb.cdb.blockCount * d.blockSize.toNat ≤ bufferSize
  length : srb.cdb.operationCode ≠ scsiopRead →
    srb.dataTransferLength.toNat = srb.cdb.blockCount * d.blockSize.toNat

theorem Fits.sized {d : PdoDeviceData} {srb : ScsiRequestBlock} (h : Fits d srb) : Sized d srb where
  blocks := h.blocks
  buffer := h.length ▸ h.buffer
  length _ := h.length

namespace Moves

/-- The SRB of an IRP stays sized. -/
theorem sized (m : Moves t b a pc b' pc') (hp : p < b.pdoCount) (hi : (b.irps i).arrived = true)
    (h : Sized (b.pdos p) (b.irps i).srb) : Sized (b'.pdos p) (b'.irps i).srb := by
  obtain ⟨-, hn, hb, -, -⟩ := m.identity hp
  have hcdb := (m.cdb hi).2
  refine ⟨?_, ?_, fun hop => ?_⟩
  · rw [hcdb, hn]
    exact h.blocks
  · rw [hcdb, hb]
    exact h.buffer
  · rw [hcdb] at hop
    rw [(m.dataBuffer hi hop).2, hcdb, hb]
    exact h.length hop

/-- The disks on the list are counted. -/
theorem counted_of_regular (m : Moves t b a pc b' pc') (hpc : pc.regular = true)
    (h : b.fdo.numPDOs = b.fdo.listOfPDOs.length) :
    b'.fdo.numPDOs = b'.fdo.listOfPDOs.length := by
  cases m
  case addInsert => simp [h]
  all_goals first
    | exact h
    | cases hpc

end Moves

/-- The FDO counts its disks in a regular run. -/
theorem Driver.counted_of_regular {s : Driver} (h : lts.Reach (fun s a => s.Regular a = true) s) :
    s.bus.fdo.numPDOs = s.bus.fdo.listOfPDOs.length := by
  refine h.invariant (I := fun s => s.bus.fdo.numPDOs = s.bus.fdo.listOfPDOs.length) rfl ?_
  intro s a s' hr hi _ hs
  rcases step_moves hs with ⟨t, b', pc', m, rfl⟩ | ⟨m, f, -, rfl⟩ | ⟨e, -, -, rfl⟩
  · exact m.counted_of_regular ((inService hr).pc t) hi
  · exact hi
  · exact hi

/-! ## The GET_REQUEST of the Run loop -/

/-- Where a thread is that was called for a GET_REQUEST, when none is refused. -/
def Pc.asks : Pc → Bool
  | .idle | .getInsert _ | .getLoop _ => true
  | .nextPacket _ k | .nextRequest _ k | .nextIrp _ _ k | .nextSetup _ _ _ k => k ≠ .reply
  | .nextPutBack _ _ k | .nextComplete _ k => k ≠ .reply
  | .ret status => status = statusPending
  | _ => false

theorem Pc.asks_nextReturn {k : NextCaller} (h : k ≠ .reply) : (nextReturn k).asks = true := by
  cases k with
  | getRequest p => rfl
  | reply => exact absurd rfl h

/-- **A GET_REQUEST ends with STATUS_PENDING** in a regular run. -/
theorem Moves.asks (m : Moves t b a pc b' pc') (ha : pc.allows a = true) (hr : pc'.regular = true)
    (hd : b.fdo.devicePnPState ≠ .deleted)
    (hc : ∀ c, a = .call t c → ∃ r f, c = .getRequest r f) (h : pc.asks = true) :
    pc'.asks = true := by
  cases m
  case getInsertDeleted hdel => exact absurd hdel hd
  all_goals first
    | rfl
    | (cases h; done)
    | (cases ha; done)
    | (cases hr; done)
    | exact h
    | exact Pc.asks_nextReturn (by simpa [Pc.asks] using h)
    | (obtain ⟨_, _, hc⟩ := hc _ rfl; cases hc)

namespace System

/-! ## The condition -/

/-- **The steps of a faultless run**: nothing is cancelled or removed, the SRBs fit their disks, and
the file operations are done in full. -/
def Faultless (s : System) : SysAction → Prop
  | .driver a => s.driver.Regular a = true ∧
      ∀ t p i srb, a = .call t (.scsi p i srb) → Fits (s.driver.bus.pdos p) srb
  | .disk _ out => out = .complete
  | .rpcCall _ c => ∃ diskId file g, c = .addDisk diskId file g
  | .run | .rpc _ _ => True

variable {s : System} {files : FileId → File}

/-- No RPC worker removes a disk. -/
theorem not_unregistering (h : (lts files).Reach Faultless s) :
    ∀ k, (∀ diskId, s.service.rpcs k ≠ .unregister diskId) ∧
      s.service.rpcs k ≠ .unregistering := by
  refine invariant (I := fun _ v => ∀ k, (∀ diskId, v.rpcs k ≠ .unregister diskId) ∧
    v.rpcs k ≠ .unregistering) ?_ ?_ (fun _ _ _ _ _ _ _ hv _ _ => hv) h
  · exact fun k => ⟨nofun, nofun⟩
  · intro s x act v' d' _ hC hi m _ k
    have hset : ∀ k' w, ((∀ diskId, w ≠ .unregister diskId) ∧ w ≠ .unregistering) →
        (∀ diskId, Function.update s.service.rpcs k' w k ≠ .unregister diskId) ∧
          Function.update s.service.rpcs k' w k ≠ .unregistering := by
      intro k' w hw
      rw [Function.update_apply]
      split
      · exact hw
      · exact hi k
    cases m with
    | rpcRemove =>
      obtain ⟨_, _, _, hc⟩ := hC
      cases hc
    | unregister hk => exact absurd hk ((hi _).1 _)
    | rpcAdd | createFailed | create | insert | insertTaken | duplicate | register | registered
    | registerFailed | unregistered | rpcDone => exact hset _ _ ⟨nofun, nofun⟩
    | undo =>
      simp only [Service.setRpc_rpcs, Service.removeDisk_rpcs]
      exact hset _ _ ⟨nofun, nofun⟩
    | final => simpa using hi k
    | _ => exact hi k

/-- **The driver's part of a faultless run is regular.** -/
theorem regular_of_serves (h : (lts files).Reach Faultless s) (hC : Faultless s x)
    (m : Serves s.driver s.service x (some a) v') : s.driver.Regular a = true := by
  cases m with
  | driver => exact hC.1
  | unregister hk => exact absurd hk ((not_unregistering h _).1 _)
  | _ => rfl

theorem driver_regular (h : (lts files).Reach Faultless s) :
    Driver.lts.Reach (fun d a => d.Regular a = true) s.driver :=
  driver_reach (fun _ _ _ _ hr hC m => regular_of_serves hr hC m) h

/-- A regular action withdraws no GET_REQUEST. -/
theorem keepsRequests_of_regular (h : d.Regular a = true) : a.keepsRequests = true := by
  cases a with
  | call t c => cases c <;> first | rfl | cases h
  | cancelRequest => cases h
  | _ => rfl

/-- **A processor whose disk has a request under way is in the map**, so no other enters it under
that id. -/
theorem diskMap_of_genuine {q : Tagged BusenumRequest} (hr : Registry d v) (hi : d.InOrder)
    (hdr : d.Drained) (hg : d.bus.Genuine q) (hq : q.origin = some (p, i)) :
    v.diskMap q.val.handle = some (d.bus.pdos p).buffer := by
  have hp := (hg p i hq).1
  rw [handle_of_genuine hg hq, (hr.owner p hp).2.2]
  refine hr.live p hp ?_
  by_contra hs
  rw [Bool.not_eq_false] at hs
  cases (hi.drained p).symm.trans (hdr.signalled p hs)

/-- A faultless step is orderly. -/
theorem orderly_step (hr : (lts files).Reach Faultless s) (ho : (lts files).Reach Orderly s)
    (hC : Faultless s x) : Orderly s x := by
  have hd := driver_regular hr
  refine ⟨?_, ?_, ?_⟩
  · cases x with
    | driver a => exact keepsRequests_of_regular hC.1
    | _ => trivial
  · cases x with
    | rpc k ok =>
      intro pr hk hnone q hq hhandle
      have hgen : s.driver.bus.Genuine q ∧ q.origin ≠ none := by
        simp only [searching] at hq
        split at hq
        · exact ⟨Driver.genuine hd _ q hq, (Driver.fills hd).origin _ q hq⟩
        · exact ⟨Driver.genuine hd _ q hq, (Driver.fills hd).origin _ q hq⟩
        · next hrun =>
          obtain rfl := Option.some.inj hq
          exact ⟨req_genuine hr, by simpa [token, hrun] using (tokens ho).runs (.inl hrun)⟩
        · cases hq
      obtain ⟨⟨p, i⟩, ho⟩ := Option.ne_none_iff_exists'.mp hgen.2
      have hm := diskMap_of_genuine (registry hr) (Driver.inOrder hd) (Driver.drained hd) hgen.1 ho
      rw [hhandle, hnone] at hm
      cases hm
    | _ => trivial
  · cases x with
    | driver a =>
      cases a with
      | step t ok =>
        cases ok with
        | true => exact fun p _ => (Driver.inOrder hd).drained p
        | false => trivial
      | _ => trivial
    | _ => trivial

/-- **The service's part of a faultless run is orderly.** -/
theorem orderly_of_faultless (h : (lts files).Reach Faultless s) :
    (lts files).Reach Orderly s := h.mono fun _ _ hr ho hC => orderly_step hr ho hC

/-- **Every request is sized for its disk**, which is on the list. -/
theorem sized (h : (lts files).Reach Faultless s) : ∀ p i, .arrive p i ∈ s.driver.bus.trace →
    s.driver.bus.Known p ∧ Sized (s.driver.bus.pdos p) (s.driver.bus.irps i).srb := by
  refine invariant (I := fun d _ => ∀ p i, .arrive p i ∈ d.bus.trace →
    d.bus.Known p ∧ Sized (d.bus.pdos p) (d.bus.irps i).srb) ?_
    (fun _ _ _ _ _ _ _ hi _ _ => hi) ?_ h
  · rintro p i ⟨⟩
  · intro s x act v' d' hr hC hv m hd
    rcases Driver.step_moves hd with ⟨t, b', pc', hm, rfl⟩ | ⟨n, f, -, rfl⟩ | ⟨e, -, -, rfl⟩
    · intro p i harr
      rcases hm.of_arrive harr with hold | ⟨srb, rfl, hp, -, -, rfl⟩
      · obtain ⟨hp, hsize⟩ := hv p i hold
        have hi := (Driver.sent (driver_reachable hr)).arrived p i hold
        exact ⟨hm.known hp, hm.sized hp.1 hi hsize⟩
      · cases m with
        | driver =>
          refine ⟨Bus.known_of_exposed hp, ?_⟩
          simpa using (hC.2 t p i srb rfl).sized
    · exact hv
    · exact hv

/-- **A PDO has the geometry of its processor's storage**, in every state reached. -/
theorem geometry {C : System → SysAction → Prop} (h : (lts files).Reach C s) :
    ∀ p < s.driver.bus.pdoCount,
      (s.driver.bus.pdos p).nBlocks =
        (s.service.procs (s.driver.bus.pdos p).buffer).geometry.nBlocks ∧
      (s.driver.bus.pdos p).blockSize =
        (s.service.procs (s.driver.bus.pdos p).buffer).geometry.blockSize := by
  refine invariant (I := fun d v => ∀ p < d.bus.pdoCount,
    (d.bus.pdos p).nBlocks = (v.procs (d.bus.pdos p).buffer).geometry.nBlocks ∧
    (d.bus.pdos p).blockSize = (v.procs (d.bus.pdos p).buffer).geometry.blockSize) ?_ ?_ ?_ h
  · intro p hp
    cases hp
  · intro s x act v' d' hr _ hi m _ p hp
    rw [(m.storage ((registry hr).owner p hp).1).2]
    exact hi p hp
  · intro s x act v' d' hr _ hv m hd
    rcases Driver.step_moves hd with ⟨t, b', pc', hm, rfl⟩ | ⟨n, f, -, rfl⟩ | ⟨e, -, -, rfl⟩
    · intro p hp
      rw [Driver.put_bus]
      by_cases hlt : p < s.driver.bus.pdoCount
      · obtain ⟨-, hn, hb, hbuf, -⟩ := hm.identity hlt
        rw [hn, hb, hbuf]
        exact hv p hlt
      · obtain ⟨k, pr, -, -, -, -, -, -, hdd⟩ :=
          ((registry hr).serve m hd).creates hm hp (Nat.not_lt.mp hlt)
        rw [hdd]
        exact ⟨rfl, rfl⟩
    · exact hv
    · exact hv

end System

end VirtualDisk
