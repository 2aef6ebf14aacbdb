import VirtualDisk.Driver.HandOut
import VirtualDisk.Driver.Wakeup

/-!
# Driver/Fifo — first in, first out, when each routine runs to its end

`BusStartPacket` starts the IRP it is given without a look at the disk's queue.  It overtakes
nothing: a disk on the list that has no current IRP has an empty queue whenever a request is to be
had.  The loop of IOCTL_BUSENUM_GET_REQUEST makes this true of every disk when a request comes in,
`Bus_ProcessReply` of the disk whose current IRP it takes.  So the IRPs of a disk that were not
cancelled are in line, in the order of their arrival.
-/

namespace VirtualDisk

open Machinery

variable {t : Tid} {a : Action} {b b' : Bus} {pc pc' : Pc} {p q : PdoId} {i j : IrpId} {r : RqId}

/-! ## The line -/

namespace Pc

/-- The IRP that `Bus_Scsi` brings to the disk. -/
def joins (p : PdoId) : Pc → List IrpId
  | .busScsi q i | .scsiAcquire q i => if q = p then [i] else []
  | .startPacket q i | .startRequest q i | .startInsert q i => if q = p then [i] else []
  | .startSetup q i _ => if q = p then [i] else []
  | _ => []

/-- The IRP that `BusStartNextPacket` took off the disk's queue. -/
def leaves (p : PdoId) : Pc → List IrpId
  | .nextSetup q _ i _ => if q = p then [i] else []
  | _ => []

@[simp] theorem joins_nextReturn (k : NextCaller) : (nextReturn k).joins p = [] := by
  cases k <;> rfl

@[simp] theorem joins_destroyReturn (k : DestroyCaller) : (destroyReturn k).joins p = [] := by
  cases k <;> rfl

@[simp] theorem leaves_nextReturn (k : NextCaller) : (nextReturn k).leaves p = [] := by
  cases k <;> rfl

@[simp] theorem leaves_destroyReturn (k : DestroyCaller) : (destroyReturn k).leaves p = [] := by
  cases k <;> rfl

end Pc

/-- **The disk's line**, the latest first: the IRP that comes, those on the queue, the one that
leaves the queue, and those that were handed out. -/
def Bus.line (b : Bus) (pc : Pc) (p : PdoId) : List IrpId :=
  pc.joins p ++ (b.pdos p).irpQueue.reverse ++ pc.leaves p ++ b.handedOut p

/-- The disks whose queues the handler at this place still has to look at. -/
def Pc.feeds (l : List PdoId) : Pc → List PdoId
  | .getInsert _ => []
  | pc => pc.visits l

@[simp] theorem Pc.feeds_nextReturn (l : List PdoId) (k : NextCaller) :
    (nextReturn k).feeds l = k.visits l := by
  cases k <;> rfl

/-- The handler has a request that it hands out or puts back. -/
def Pc.holdsRequest : Pc → Bool
  | .startSetup _ _ _ | .nextIrp _ _ _ | .nextSetup _ _ _ _ | .nextPutBack _ _ _ => true
  | _ => false

@[simp] theorem Pc.holdsRequest_nextReturn (k : NextCaller) :
    (nextReturn k).holdsRequest = false := by
  cases k <;> rfl

@[simp] theorem Pc.holdsRequest_destroyReturn (k : DestroyCaller) :
    (destroyReturn k).holdsRequest = false := by
  cases k <;> rfl

/-- A request is to be had. -/
def Bus.Available (b : Bus) (pc : Pc) : Prop := b.peekRequest none ≠ none ∨ pc.holdsRequest = true

/-- The handler is in a start routine for a disk of the list, or on its way from one to another, or
takes a reply for one. -/
def Pc.listed : Pc → Bool
  | .startRequest _ _ | .startSetup _ _ _ => true
  | .nextPacket _ _ | .nextRequest _ _ | .nextIrp _ _ _ | .nextSetup _ _ _ _ => true
  | .nextPutBack _ _ _ | .nextFail _ _ | .nextComplete _ _ | .getLoop _ => true
  | .replyTake _ _ | .replyComplete _ _ | .replyRelease _ => true
  | _ => false

/-! ## The invariant -/

/-- What is known of the bus while no handler but the one at `pc` is under way. -/
structure Bus.Tidy (b : Bus) (pc : Pc) : Prop where
  nodup : b.fdo.listOfPDOs.Nodup
  fresh : b.pdos b.pdoCount = {}
  known : ∀ p ∈ b.fdo.listOfPDOs, b.Known p
  parent : ∀ p ∈ b.fdo.listOfPDOs, (b.pdos p).parentFdo ≠ none
  adding : ∀ p, pc = .addInsert p → ¬ b.Known p ∧ ∃ dd, b.pdos p = newPdo dd
  destroying : ∀ p, pc.destroying = some p → p ∉ b.fdo.listOfPDOs
  armed : ∀ p, ∀ i ∈ (b.pdos p).irpQueue, (b.irps i).cancelRoutine ≠ none ∨ pc = .csqCancelIrp p i
  tested : ∀ p, pc.tested = some p → (b.pdos p).currentIrp = none
  exposed : ∀ p, b.exposed p = true → pc = .idle →
    p ∈ b.fdo.listOfPDOs ∨ (b.pdos p).parentFdo = none
  arrived : ∀ p i, .arrive p i ∈ b.trace → (b.irps i).arrived = true

/-- **First in, first out**, with the handler at `pc` under way. -/
structure Bus.InLine (b : Bus) (pc : Pc) : Prop where
  /-- An IRP arrives once, at a disk that is known. -/
  once : ∀ p, (b.dispatched p).Nodup
  known : ∀ p i, i ∈ b.dispatched p → b.Known p
  /-- The line is in the order of arrival, -/
  order : ∀ p, (b.line pc p).Sublist (b.dispatched p)
  /-- …and the IRPs of a disk on the list that were not cancelled are in it. -/
  complete : ∀ p ∈ b.fdo.listOfPDOs, ∀ i ∈ b.dispatched p, (b.irps i).cancel = true ∨
    i ∈ b.line pc p
  /-- An IRP that was overtaken was cancelled. -/
  skipped : ∀ p i j, [j, i].Sublist (b.dispatched p) → j ∈ b.handedOut p →
    (b.irps i).cancel = true ∨ i ∈ b.handedOut p
  /-- A disk with a queue and without a current IRP is looked at when there is a request. -/
  fed : b.Available pc → ∀ p ∈ b.fdo.listOfPDOs,
    p ∈ pc.feeds b.fdo.listOfPDOs ∨ (b.pdos p).currentIrp ≠ none ∨ (b.pdos p).irpQueue = []
  present : ∀ p ∈ b.fdo.listOfPDOs,
    (b.pdos p).devicePnPState ≠ .deleted ∨ pc = .pdoUnlink p
  previous : ∀ p, (b.pdos p).previousPnPState ≠ .deleted
  listed : pc.listed = true → ∀ p ∈ pc.mentions, p ∈ b.fdo.listOfPDOs
  standing : ∀ p i, (pc = .busScsi p i ∨ pc = .scsiAcquire p i ∨ pc = .startPacket p i) →
    p ∈ b.fdo.listOfPDOs ∨ (b.pdos p).parentFdo = none
  queueing : ∀ p i, pc = .startInsert p i →
    (b.pdos p).currentIrp ≠ none ∨ b.peekRequest none = none
  cancelling : ∀ p i, pc = .csqCancelIrp p i → (b.irps i).cancel = true

namespace Bus

/-- The IRP that `IoCsqRemoveNextIrp` takes is the first on the queue. -/
theorem Tidy.front (h : b.Tidy pc) (hpc : ∀ p i, pc ≠ .csqCancelIrp p i)
    (hi : b.peekIrp p = some i) : ∃ is, (b.pdos p).irpQueue = i :: is := by
  cases hq : (b.pdos p).irpQueue with
  | nil => simp [peekIrp, hq] at hi
  | cons j is =>
    have hj : (b.irps j).cancelRoutine.isSome = true := by
      refine Option.isSome_iff_ne_none.mpr ((h.armed p j ?_).resolve_right (hpc p j))
      rw [hq]
      exact List.mem_cons_self
    obtain rfl : j = i := by simpa [peekIrp, hq, hj] using hi
    exact ⟨is, rfl⟩

/-- It finds none when the queue is empty. -/
theorem Tidy.irpQueue_eq_nil (h : b.Tidy pc) (hpc : ∀ p i, pc ≠ .csqCancelIrp p i)
    (hi : b.peekIrp p = none) : (b.pdos p).irpQueue = [] := by
  refine List.eq_nil_iff_forall_not_mem.mpr fun j hj => ?_
  refine (h.armed p j hj).resolve_right (hpc p j) ?_
  simpa using List.find?_eq_none.mp hi j hj

/-- **The direct start overtakes nothing**: the queue of its disk is empty. -/
theorem InLine.direct (h : b.InLine pc) (ht : b.Tidy pc) (hpc : pc = .startSetup p i r) :
    (b.pdos p).irpQueue = [] := by
  subst hpc
  have hp : p ∈ b.fdo.listOfPDOs := h.listed rfl p (List.mem_singleton_self p)
  rcases h.fed (.inr rfl) p hp with hv | hc | hq
  · cases hv
  · exact absurd (ht.tested p rfl) hc
  · exact hq

/-- The link of an entry of the list leads to another, or to the head. -/
theorem mem_of_flink {e : Entry} (h : b.flink e = .pdo q)
    (he : ∀ p ∈ e.mentions, p ∈ b.fdo.listOfPDOs) : q ∈ b.fdo.listOfPDOs := by
  cases e with
  | head =>
    simp only [flink] at h
    split at h
    · next x l hl => rw [hl, Entry.pdo.inj h]; exact List.mem_cons_self
    · cases h
  | pdo p =>
    rw [flink, if_pos (he p (List.mem_singleton_self p))] at h
    exact mem_of_next h

theorem mem_dispatched : i ∈ b.dispatched p ↔ .arrive p i ∈ b.trace := by
  simp only [dispatched, List.mem_filterMap]
  constructor
  · rintro ⟨e, he, heq⟩
    cases e with
    | arrive q j =>
      obtain ⟨rfl, rfl⟩ : q = p ∧ j = i := by simpa using heq
      exact he
    | _ => cases heq
  · exact fun h => ⟨_, h, by simp⟩

/-- A request is on the queue, and its cancel routine registered. -/
theorem peekRequest_ne_none : b.peekRequest none ≠ none ↔
    ∃ r ∈ b.fdo.requestQueue, (b.requests r).armed = true := by
  simp [peekRequest]

/-- A packet that is started is handed out. -/
theorem handedOut_startIrp : (b.startIrp q r i).handedOut p =
    if q = p then i :: b.handedOut p else b.handedOut p := by
  by_cases hqp : q = p
  all_goals by_cases hop : (b.irps i).srb.cdb.operationCode = scsiopWrite
  all_goals simp [handedOut, List.filterMap_cons, Event.handedTo, hqp, hop]

theorem dispatched_startIrp : (b.startIrp q r i).dispatched p = b.dispatched p := by
  by_cases hop : (b.irps i).srb.cdb.operationCode = scsiopWrite
  all_goals simp [dispatched, hop]

theorem handedOut_acceptAnswer {rep : Tagged BusenumReply} :
    (b.acceptAnswer q i rep).handedOut p = b.handedOut p := by
  by_cases hop : (b.irps i).srb.cdb.operationCode = scsiopRead
  · simp [handedOut, List.filterMap_cons, Event.handedTo, hop]
  · simp [handedOut, List.filterMap_cons, Event.handedTo, hop]

end Bus

/-! ## What a move does to it -/

/-- **What a move does to the line of a disk**: an IRP joins it as it arrives; nothing else comes
in, and what goes out was cancelled, or the disk is off the list. -/
inductive LineEntry (b : Bus) (pc : Pc) (b' : Bus) (pc' : Pc) (p : PdoId) : Prop
  | join (i : IrpId) (new : (b.irps i).arrived = false) (known : b.Known p)
      (dispatched : b'.dispatched p = i :: b.dispatched p)
      (line : b'.line pc' p = i :: b.line pc p)
  | pass (dispatched : b'.dispatched p = b.dispatched p)
      (line : (b'.line pc' p).Sublist (b.line pc p))
      (left : p ∈ b'.fdo.listOfPDOs → ∀ i ∈ b.line pc p, (b'.irps i).cancel = true ∨
        i ∈ b'.line pc' p)

namespace LineEntry

/-- The line is as it was. -/
theorem same (hd : b'.dispatched p = b.dispatched p) (hl : b'.line pc' p = b.line pc p) :
    LineEntry b pc b' pc' p :=
  .pass hd (by rw [hl]) fun _ i hi => .inr (hl ▸ hi)

/-- All its parts are as they were. -/
theorem keep (hd : b'.dispatched p = b.dispatched p) (hh : b'.handedOut p = b.handedOut p)
    (hq : (b'.pdos p).irpQueue = (b.pdos p).irpQueue) (hj : pc'.joins p = pc.joins p)
    (hl : pc'.leaves p = pc.leaves p) : LineEntry b pc b' pc' p :=
  same hd (by rw [Bus.line, hh, hq, hj, hl, Bus.line])

/-- The IRP that came does not join it. -/
theorem drop (hd : b'.dispatched p = b.dispatched p) (hh : b'.handedOut p = b.handedOut p)
    (hq : (b'.pdos p).irpQueue = (b.pdos p).irpQueue) (hj : pc'.joins p = [])
    (hl : pc'.leaves p = pc.leaves p)
    (hc : p ∈ b'.fdo.listOfPDOs → ∀ i ∈ pc.joins p, (b'.irps i).cancel = true) :
    LineEntry b pc b' pc' p := by
  have heq : b.line pc p = pc.joins p ++ b'.line pc' p := by
    simp [Bus.line, hh, hq, hj, hl]
  refine .pass hd ?_ fun hp i hi => ?_
  · rw [heq]
    exact List.sublist_append_right _ _
  · rw [heq] at hi
    exact (List.mem_append.mp hi).imp_left (hc hp i)

/-- An IRP is taken off the queue. -/
theorem erase (j : IrpId) (hd : b'.dispatched p = b.dispatched p)
    (hh : b'.handedOut p = b.handedOut p)
    (hq : (b'.pdos p).irpQueue = (b.pdos p).irpQueue.erase j) (hj : pc'.joins p = pc.joins p)
    (hl : pc'.leaves p = pc.leaves p)
    (hc : p ∈ b'.fdo.listOfPDOs → (b'.irps j).cancel = true) : LineEntry b pc b' pc' p := by
  refine .pass hd ?_ fun hp i hi => ?_
  · have hsub : ((b.pdos p).irpQueue.erase j).reverse.Sublist (b.pdos p).irpQueue.reverse :=
      List.erase_sublist.reverse
    rw [Bus.line, Bus.line, hh, hq, hj, hl]
    exact (((List.Sublist.refl _).append hsub).append_right _).append_right _
  · rcases eq_or_ne i j with rfl | hij
    · exact .inl (hc hp)
    · right
      simpa [Bus.line, hh, hq, hj, hl, List.mem_erase_of_ne hij] using hi

end LineEntry

namespace Moves

/-- Every move makes one entry in the line of a disk. -/
theorem lineEntry (m : Moves t b a pc b' pc') (h : b.InLine pc) (ht : b.Tidy pc)
    (hok : ∀ t ok, a = .step t ok → pc.acquires = true → ok = true) :
    LineEntry b pc b' pc' p := by
  have hfresh := ht.fresh
  cases m
  case scsiAcquireFailed | startSetupFailed | startSetupFailedCancelled | nextSetupFailed |
      nextSetupFailedCancelled =>
    cases hok t _ rfl rfl
  case callScsi q i srb hq _ hi =>
    by_cases hqp : q = p
    · subst hqp
      refine .join i hi (Bus.known_of_exposed hq) ?_ ?_
      · simp [Bus.dispatched]
      · simp [Bus.line, Pc.joins, Pc.leaves]
        rfl
    · exact .keep (by simp [Bus.dispatched, hqp]) rfl rfl (if_neg hqp) rfl
  case busScsiDeleted q j hd =>
    refine .drop rfl rfl rfl rfl rfl fun hp i hi => ?_
    obtain ⟨rfl, -⟩ : q = p ∧ i = j := by simpa [Pc.joins] using hi
    exact absurd hd ((h.present q hp).resolve_right nofun)
  case startPacketCrash q j _ _ hf =>
    refine .drop rfl rfl rfl rfl rfl fun hp i hi => ?_
    obtain ⟨rfl, -⟩ : q = p ∧ i = j := by simpa [Pc.joins] using hi
    exact absurd hf (ht.parent q hp)
  case startInsertCancelled q j hc =>
    refine .drop rfl rfl ?_ rfl rfl fun _ i hi => ?_
    · simp only [Bus.release_pdos, Bus.failIrp_pdos, Function.update_apply]
      split
      · next hpq => rw [hpq]
      · rfl
    · obtain ⟨-, rfl⟩ : q = p ∧ i = j := by simpa [Pc.joins] using hi
      simpa using hc
  case startInsert q i _ =>
    by_cases hqp : q = p
    · subst hqp
      exact .same rfl (by simp [Bus.line, Pc.joins, Pc.leaves]; rfl)
    · exact .keep rfl rfl (by simp [Ne.symm hqp]) (if_neg hqp).symm rfl
  case startSetup q i r =>
    by_cases hqp : q = p
    · subst hqp
      refine .same Bus.dispatched_startIrp ?_
      simp [Bus.line, Pc.joins, Pc.leaves, Bus.handedOut_startIrp, h.direct ht rfl]
    · refine .keep Bus.dispatched_startIrp ?_ (by simp [Ne.symm hqp]) (if_neg hqp).symm rfl
      rw [Bus.handedOut_startIrp, if_neg hqp]
  case nextIrp q r k i hi =>
    by_cases hqp : q = p
    · subst hqp
      obtain ⟨is, his⟩ := ht.front nofun hi
      refine .same rfl ?_
      simp [Bus.line, Pc.joins, Pc.leaves, his]
      rfl
    · exact .keep rfl rfl (by simp [Ne.symm hqp]) rfl (if_neg hqp)
  case nextSetup q r i k =>
    by_cases hqp : q = p
    · subst hqp
      refine .same Bus.dispatched_startIrp ?_
      simp [Bus.line, Pc.joins, Pc.leaves, Bus.handedOut_startIrp]
    · refine .keep Bus.dispatched_startIrp ?_ (by simp [Ne.symm hqp]) rfl (if_neg hqp).symm
      rw [Bus.handedOut_startIrp, if_neg hqp]
  case destroyDrain q k j hi =>
    by_cases hqp : q = p
    · subst hqp
      exact .erase j rfl rfl (by simp) rfl rfl fun hp => absurd hp (ht.destroying q rfl)
    · exact .keep rfl rfl (by simp [Ne.symm hqp]) rfl rfl
  case csqCancelIrp q j =>
    by_cases hqp : q = p
    · subst hqp
      exact .erase j rfl rfl (by simp) rfl rfl fun _ => by simpa using h.cancelling q j rfl
    · exact .keep rfl rfl (by simp [Ne.symm hqp]) rfl rfl
  case addCreate dd =>
    refine .keep rfl rfl ?_ rfl rfl
    rcases eq_or_ne p b.pdoCount with rfl | hp
    · simp [Bus.newPdo, hfresh]
    · simp [hp]
  case replyTake q rep i _ _ _ =>
    refine .keep (by simp [Bus.dispatched]) Bus.handedOut_acceptAnswer ?_ rfl rfl
    simp only [Bus.acceptAnswer_pdos, Function.update_apply]
    split
    · next hpq => rw [hpq]; simp
    · rfl
  all_goals clear h ht hok hfresh
  all_goals refine .keep ?_ ?_ ?_ ?_ ?_
  all_goals first
    | rfl
    | exact Pc.joins_nextReturn _
    | exact Pc.joins_destroyReturn _
    | exact Pc.leaves_nextReturn _
    | exact Pc.leaves_destroyReturn _
    | exact frame_update PdoDeviceData.irpQueue rfl
    | (simp [Function.update_apply]; done)
    | (simp [Function.update_apply]; split <;> simp_all)

/-- A request is queued by a handler that has it in hand. -/
theorem armed (m : Moves t b a pc b' pc') (hr : r ∈ b'.fdo.requestQueue)
    (ha : (b'.requests r).armed = true) :
    (r ∈ b.fdo.requestQueue ∧ (b.requests r).armed = true) ∨ pc.holdsRequest = true ∨
      pc' = .getLoop .head := by
  cases m
  case getInsert => exact .inr (.inr rfl)
  case startRequest | nextRequest | cleanupDrain | csqCancelRequest =>
    refine .inl ⟨List.mem_of_mem_erase hr, ?_⟩
    simp [Function.update_apply] at ha
    split at ha <;> simp_all
  all_goals first
    | exact .inr (.inl rfl)
    | exact .inl ⟨hr, ha⟩
    | (refine .inl ⟨hr, ?_⟩
       simp [Function.update_apply] at ha
       split at ha <;> simp_all)

/-- A handler takes the request it has in hand off the queue. -/
theorem holdsRequest (m : Moves t b a pc b' pc') (h : pc'.holdsRequest = true) :
    b.Available pc := by
  cases m
  case startRequest hr | nextRequest hr => exact .inl (by simp [hr])
  all_goals first
    | exact .inr rfl
    | cases h
    | (rw [Pc.holdsRequest_nextReturn] at h; cases h)
    | (rw [Pc.holdsRequest_destroyReturn] at h; cases h)

/-- A request comes to be had in IOCTL_BUSENUM_GET_REQUEST. -/
theorem available (m : Moves t b a pc b' pc') (h : b'.Available pc') :
    b.Available pc ∨ pc' = .getLoop .head := by
  rcases h with h | h
  · obtain ⟨r, hr, ha⟩ := Bus.peekRequest_ne_none.mp h
    rcases m.armed hr ha with hold | hpc | hpc
    · exact .inl (.inl (Bus.peekRequest_ne_none.mpr ⟨r, hold⟩))
    · exact .inl (.inr hpc)
    · exact .inr hpc
  · exact .inl (m.holdsRequest h)

/-- The state of a PDO is set to `Deleted` in its REMOVE_DEVICE. -/
theorem pnp (m : Moves t b a pc b' pc') (hp : p < b.pdoCount)
    (h : (b.pdos p).devicePnPState ≠ .deleted) (hprev : (b.pdos p).previousPnPState ≠ .deleted) :
    (b'.pdos p).devicePnPState ≠ .deleted ∨ pc' = .pdoUnlink p ∨ (b.pdos p).parentFdo = none := by
  have hne : p ≠ b.pdoCount := Nat.ne_of_lt hp
  cases m
  case pdoRemoveOrphan q _ _ hf =>
    rcases eq_or_ne p q with rfl | hpq
    · exact .inr (.inr hf)
    · exact .inl (by simpa [hpq] using h)
  case pdoRemoveMissing q _ _ _ =>
    rcases eq_or_ne p q with rfl | hpq
    · exact .inr (.inl rfl)
    · exact .inl (by simpa [hpq] using h)
  case pdoPnp q m _ =>
    rcases eq_or_ne p q with rfl | hpq
    · left
      cases m
      all_goals simp [PnpMinor.states, h]
      all_goals split <;> simp [h, hprev]
    · exact .inl (by simpa [hpq] using h)
  all_goals left
  all_goals first
    | exact h
    | exact fun hd => h ((frame_update PdoDeviceData.devicePnPState (by rfl)).symm.trans hd)
    | (simp [Function.update_apply, hne, h]; done)
    | (simp [Function.update_apply]; split <;> simp_all)

/-- The state it had before was not `Deleted`. -/
theorem previous (m : Moves t b a pc b' pc') (h : (b.pdos p).previousPnPState ≠ .deleted) :
    (b'.pdos p).previousPnPState ≠ .deleted := by
  cases m
  case pdoPnp q m hq =>
    rcases eq_or_ne p q with rfl | hpq
    · cases m
      all_goals simp [PnpMinor.states, h, hq]
    · simpa [hpq] using h
  all_goals first
    | exact h
    | exact fun hd => h ((frame_update PdoDeviceData.previousPnPState (by rfl)).symm.trans hd)
    | (simp [Function.update_apply]; split <;> simp_all [Bus.newPdo])

/-- A disk on the list is not deleted, but for the one that is about to be taken off it. -/
theorem undeleted (m : Moves t b a pc b' pc') (h : b.InLine pc) (ht : b.Tidy pc)
    (hp' : p ∈ b'.fdo.listOfPDOs) :
    (b'.pdos p).devicePnPState ≠ .deleted ∨ pc' = .pdoUnlink p := by
  rcases m.mem_listOfPDOs hp' with hp | hpc
  · rcases h.present p hp with hne | hpc
    · exact (m.pnp (ht.known p hp).1 hne (h.previous p)).imp_right
        (Or.resolve_right · (ht.parent p hp))
    · subst hpc
      cases m
      exact absurd hp' (by simpa using ht.nodup.not_mem_erase)
  · obtain ⟨-, dd, hdd⟩ := ht.adding p hpc
    subst hpc
    rw [m.pdos_addInsert.2, hdd]
    exact .inl nofun

/-- A start routine gets to a disk by the list, or by the parent it still has. -/
theorem listed (m : Moves t b a pc b' pc') (h : b.InLine pc) (hpc : pc'.listed = true) :
    ∀ p ∈ pc'.mentions, p ∈ b'.fdo.listOfPDOs := by
  cases m
  case startPacket q i _ _ hf =>
    intro p hp
    obtain rfl : p = q := List.mem_singleton.mp hp
    exact (h.standing p i (.inr (.inr rfl))).resolve_right hf
  case getLoop e q he =>
    intro p hp
    obtain rfl : p = q := by simpa [Pc.mentions, NextCaller.mentions] using hp
    exact Bus.mem_of_flink he (h.listed rfl)
  case replyFind q _ hq =>
    intro p hp
    obtain rfl : p = q := List.mem_singleton.mp hp
    exact List.mem_of_find?_eq_some hq
  case nextPacketBusy | nextRequestNone | nextPutBack | nextPutBackCancelled =>
    intro p hp
    rw [Pc.mentions_nextReturn] at hp
    exact h.listed rfl p (List.mem_cons_of_mem _ hp)
  case nextFail | nextComplete =>
    intro p hp
    rw [Pc.mentions_nextReturn] at hp
    exact h.listed rfl p hp
  case destroyDelete =>
    intro p hp
    rw [Pc.mentions_destroyReturn] at hp
    cases hp
  all_goals first
    | exact h.listed rfl
    | exact fun p hp => h.listed rfl p (List.mem_cons_of_mem _ hp)
    | exact fun p hp => absurd hp List.not_mem_nil
    | cases hpc

/-- **A disk that is fed stays so**: the handler tests it, and goes on to the others. -/
theorem fed (m : Moves t b a pc b' pc') (h : b.InLine pc) (ht : b.Tidy pc)
    (hok : ∀ t ok, a = .step t ok → pc.acquires = true → ok = true)
    (hav : b.Available pc) (hp : p ∈ b.fdo.listOfPDOs) (hp' : p ∈ b'.fdo.listOfPDOs)
    (hfed : p ∈ pc.feeds b.fdo.listOfPDOs ∨ (b.pdos p).currentIrp ≠ none ∨
      (b.pdos p).irpQueue = []) :
    p ∈ pc'.feeds b'.fdo.listOfPDOs ∨ (b'.pdos p).currentIrp ≠ none ∨
      (b'.pdos p).irpQueue = [] := by
  have hne : p ≠ b.pdoCount := Nat.ne_of_lt (ht.known p hp).1
  have hkeep : (p ∈ pc.feeds b.fdo.listOfPDOs → p ∈ pc'.feeds b'.fdo.listOfPDOs) →
      (b'.pdos p).currentIrp = (b.pdos p).currentIrp →
      (b'.pdos p).irpQueue = (b.pdos p).irpQueue →
      p ∈ pc'.feeds b'.fdo.listOfPDOs ∨ (b'.pdos p).currentIrp ≠ none ∨
        (b'.pdos p).irpQueue = [] := by
    intro hf hc hq
    rw [hc, hq]
    exact hfed.imp_left hf
  cases m
  case scsiAcquireFailed | startSetupFailed | startSetupFailedCancelled | nextSetupFailed |
      nextSetupFailedCancelled =>
    cases hok t _ rfl rfl
  case nextPacketCrash q _ _ _ hf =>
    exact absurd hf (ht.parent q (h.listed rfl q List.mem_cons_self))
  case getInsert | getInsertCancelled => exact .inl hp'
  case getLoopEnd he =>
    refine hkeep (fun hv => ?_) rfl rfl
    have hv : p ∈ after b.fdo.listOfPDOs _ := hv
    rw [(Bus.after_of_flink ht.nodup (h.listed rfl)).1 he] at hv
    cases hv
  case getLoop he =>
    refine hkeep (fun hv => ?_) rfl rfl
    have hv : p ∈ after b.fdo.listOfPDOs _ := hv
    rwa [(Bus.after_of_flink ht.nodup (h.listed rfl)).2 _ he] at hv
  case nextPacketBusy q k _ hc =>
    by_cases hpq : p = q
    · exact .inr (.inl (hpq ▸ hc))
    · exact hkeep (fun hv => by simpa using (List.mem_cons.mp hv).resolve_left hpq) rfl rfl
  case nextRequestNone hn =>
    exact absurd hn (hav.resolve_right nofun)
  case nextIrpNone q r k hn =>
    by_cases hpq : p = q
    · exact .inr (.inr (hpq ▸ ht.irpQueue_eq_nil nofun hn))
    · exact hkeep (fun hv => (List.mem_cons.mp hv).resolve_left hpq) rfl rfl
  case startInsert q i _ =>
    by_cases hpq : p = q
    · subst hpq
      refine .inr (.inl ?_)
      simpa using (h.queueing p i rfl).resolve_right (hav.resolve_right nofun)
    · exact hkeep id (by simp [hpq]) (by simp [hpq])
  case startSetup q i r =>
    by_cases hpq : p = q
    · exact .inr (.inl (by simp [hpq]))
    · exact hkeep id (by simp [hpq]) (by simp [hpq])
  case nextSetup q r i k =>
    by_cases hpq : p = q
    · exact .inr (.inl (by simp [hpq]))
    · exact hkeep (fun hv => (List.mem_cons.mp hv).resolve_left hpq) (by simp [hpq]) (by simp [hpq])
  case nextIrp q r k i hi =>
    by_cases hpq : p = q
    · exact .inl (hpq ▸ List.mem_cons_self)
    · exact hkeep id (by simp [hpq]) (by simp [hpq])
  case replyTakeCancelled q rep i _ hc _ | replyTake q rep i _ hc _ =>
    by_cases hpq : p = q
    · exact .inl (hpq ▸ List.mem_singleton_self _)
    · exact hkeep nofun (by simp [hpq]) (by simp [hpq])
  case destroyTake q k i _ _ =>
    have hpq : p ≠ q := fun hpq => ht.destroying q rfl (hpq ▸ hp)
    exact hkeep nofun (by simp [hpq]) (by simp [hpq])
  case destroyDrain q k i _ =>
    have hpq : p ≠ q := fun hpq => ht.destroying q rfl (hpq ▸ hp)
    exact hkeep nofun (by simp [hpq]) (by simp [hpq])
  case csqCancelIrp q i =>
    by_cases hpq : p = q
    · subst hpq
      rcases hfed with hv | hc | hq
      · cases hv
      · exact .inr (.inl (by simpa using hc))
      · exact .inr (.inr (by simp [hq]))
    · exact hkeep nofun (by simp [hpq]) (by simp [hpq])
  all_goals clear h ht hok hav hfed
  all_goals refine hkeep ?_ ?_ ?_ <;> clear hkeep
  all_goals first
    | exact id
    | rfl
    | exact fun hv => absurd hv List.not_mem_nil
    | exact fun hv => by rwa [Pc.feeds_nextReturn]
    | exact frame_update PdoDeviceData.currentIrp rfl
    | exact frame_update PdoDeviceData.irpQueue rfl
    | (simp [Function.update_apply, hne]; done)
    | (simp [Function.update_apply]; split <;> simp_all)

/-- A request is handed out for a disk of the list. -/
theorem handsOut (m : Moves t b a pc b' pc') (h : b.InLine pc) (ht : b.Tidy pc) :
    b'.handedOut p = b.handedOut p ∨ p ∈ b'.fdo.listOfPDOs := by
  rcases (m.exchange ht.fresh).handedOut (p := p) with ⟨heq, -⟩ | ⟨i, -, -, hpc, -⟩
  · exact .inl heq
  · right
    cases m
    all_goals cases hpc
    all_goals exact h.listed rfl _ List.mem_cons_self

/-- An IRP stays cancelled. -/
theorem cancelled (m : Moves t b a pc b' pc') (h : (b.irps i).cancel = true) :
    (b'.irps i).cancel = true := by
  cases m
  all_goals first
    | exact h
    | (simp [Function.update_apply]; split <;> simp_all)

/-- A cancel routine of a queue runs for an IRP that is cancelled. -/
theorem cancels (m : Moves t b a pc b' pc') (hpc : pc' = .csqCancelIrp p i) :
    (b'.irps i).cancel = true := by
  cases m
  case cancelCsq =>
    cases hpc
    simp
  all_goals first
    | cases hpc
    | (rename NextCaller => k; cases k <;> cases hpc)
    | (rename DestroyCaller => k; cases k <;> cases hpc)

/-- `Bus_Scsi` is on its way to a disk of the list, or to an orphan. -/
theorem approaches (m : Moves t b a pc b' pc') (h : b.InLine pc) (ht : b.Tidy pc)
    (hpc : pc' = .busScsi p i ∨ pc' = .scsiAcquire p i ∨ pc' = .startPacket p i) :
    p ∈ b'.fdo.listOfPDOs ∨ (b'.pdos p).parentFdo = none := by
  cases m
  case callScsi hp _ _ =>
    obtain ⟨rfl, -⟩ := Pc.busScsi.inj (hpc.resolve_right (by simp))
    exact ht.exposed _ hp rfl
  case busScsi =>
    obtain ⟨rfl, rfl⟩ := Pc.scsiAcquire.inj ((hpc.resolve_left (by simp)).resolve_right (by simp))
    exact h.standing _ _ (.inl rfl)
  case scsiAcquire =>
    obtain ⟨rfl, rfl⟩ := Pc.startPacket.inj ((hpc.resolve_left (by simp)).resolve_left (by simp))
    simpa using h.standing _ _ (.inr (.inl rfl))
  all_goals first
    | (rcases hpc with hpc | hpc | hpc <;> cases hpc)
    | (rename NextCaller => k
       cases k <;> rcases hpc with hpc | hpc | hpc <;> cases hpc)
    | (rename DestroyCaller => k
       cases k <;> rcases hpc with hpc | hpc | hpc <;> cases hpc)

end Moves

/-! ## The line is kept -/

namespace Bus.InLine

/-- A place at rest has no part in the line. -/
theorem of_rest (hpc : pc.rest = true) (hpc' : pc'.rest = true) (h : b.InLine pc) :
    b.InLine pc' := by
  have hline : ∀ p, b.line pc' p = b.line pc p := by
    intro p
    cases pc <;> cases hpc <;> cases pc' <;> cases hpc' <;> rfl
  have hfed : ∀ l, pc'.feeds l = pc.feeds l ∧ pc'.holdsRequest = pc.holdsRequest := by
    intro l
    cases pc <;> cases hpc <;> cases pc' <;> cases hpc' <;> exact ⟨rfl, rfl⟩
  refine ⟨h.once, h.known, ?_, ?_, h.skipped, ?_, ?_, h.previous, ?_, ?_, ?_, ?_⟩
  · intro p
    rw [hline]
    exact h.order p
  · intro p hp i hi
    rw [hline]
    exact h.complete p hp i hi
  · intro hav p hp
    rw [(hfed _).1]
    refine h.fed ?_ p hp
    rwa [Available, ← (hfed []).2]
  · intro p hp
    refine .inl ((h.present p hp).resolve_right ?_)
    rintro rfl
    cases hpc
  · intro hl
    cases pc' <;> cases hpc' <;> cases hl
  · rintro p i (rfl | rfl | rfl) <;> cases hpc'
  · rintro p i rfl
    cases hpc'
  · rintro p i rfl
    cases hpc'

/-- What is in line behind one that was handed out was handed out before. -/
theorem of_line (hn : (b.dispatched p).Nodup) (ho : (b.line pc p).Sublist (b.dispatched p))
    (hij : [j, i].Sublist (b.dispatched p)) (hj : j ∈ b.handedOut p) (hi : i ∈ b.line pc p) :
    i ∈ b.handedOut p := by
  refine (List.mem_append.mp hi).resolve_left fun hi => ?_
  have hsub : ([i] ++ [j]).Sublist (b.line pc p) :=
    (List.singleton_sublist.mpr hi).append (List.singleton_sublist.mpr hj)
  exact not_sublist_swap hn hij (hsub.trans ho)

/-- A disk that was sent an IRP is known, so a disk being put on the list was sent none. -/
theorem not_addInsert (h : b.InLine pc) (ht : b.Tidy pc) (hi : i ∈ b.dispatched p) :
    pc ≠ .addInsert p := fun hpc => (ht.adding p hpc).1 (h.known p i hi)

/-- **A move keeps the line.** -/
theorem move (h : b.InLine pc) (ht : b.Tidy pc)
    (hok : ∀ t ok, a = .step t ok → pc.acquires = true → ok = true)
    (m : Moves t b a pc b' pc') : b'.InLine pc' := by
  have hentry := fun p => m.lineEntry (p := p) h ht hok
  have honce : ∀ p, (b'.dispatched p).Nodup := by
    intro p
    cases hentry p with
    | join i hnew _ hd _ =>
      rw [hd]
      refine List.nodup_cons.mpr ⟨fun hi => ?_, h.once p⟩
      cases hnew.symm.trans (ht.arrived p i (mem_dispatched.mp hi))
    | pass hd _ _ => exact hd ▸ h.once p
  have horder : ∀ p, (b'.line pc' p).Sublist (b'.dispatched p) := by
    intro p
    cases hentry p with
    | join j _ _ hd hl =>
      rw [hd, hl]
      exact (h.order p).cons_cons j
    | pass hd hl _ =>
      rw [hd]
      exact hl.trans (h.order p)
  have hcomplete : ∀ p ∈ b'.fdo.listOfPDOs, ∀ i ∈ b'.dispatched p, (b'.irps i).cancel = true ∨
      i ∈ b'.line pc' p := by
    intro p hp' i hi
    cases hentry p with
    | join j _ _ hd hl =>
      rw [hd] at hi
      rw [hl]
      rcases List.mem_cons.mp hi with rfl | hi
      · exact .inr List.mem_cons_self
      · rcases m.mem_listOfPDOs hp' with hp | hpc
        · exact (h.complete p hp i hi).imp m.cancelled (List.mem_cons_of_mem j)
        · exact absurd hpc (h.not_addInsert ht hi)
    | pass hd _ hleft =>
      rw [hd] at hi
      rcases m.mem_listOfPDOs hp' with hp | hpc
      · rcases h.complete p hp i hi with hc | hmem
        · exact .inl (m.cancelled hc)
        · exact hleft hp' i hmem
      · exact absurd hpc (h.not_addInsert ht hi)
  refine ⟨honce, ?_, horder, hcomplete, ?_, ?_, fun p hp => m.undeleted h ht hp,
    fun p => m.previous (h.previous p), m.listed h, fun p i => m.approaches h ht, ?_,
    fun p i => m.cancels⟩
  · intro p i hi
    cases hentry p with
    | join j _ hk hd _ => exact m.known hk
    | pass hd _ _ => exact m.known (h.known p i (hd ▸ hi))
  · intro p i j hij hj
    by_cases hp' : p ∈ b'.fdo.listOfPDOs
    · exact (hcomplete p hp' i (hij.subset (by simp))).imp_right
        (of_line (honce p) (horder p) hij hj)
    · have hh := (m.handsOut h ht).resolve_right hp'
      rw [hh] at hj ⊢
      refine (h.skipped p i j ?_ hj).imp_left m.cancelled
      cases hentry p with
      | join k hnew _ hd _ =>
        rw [hd] at hij
        cases hij with
        | cons _ hij => exact hij
        | cons_cons _ _ =>
          have hmem := (h.order p).subset (List.mem_append_right _ hj)
          cases hnew.symm.trans (ht.arrived p j (mem_dispatched.mp hmem))
      | pass hd _ _ => exact hd ▸ hij
  · intro hav' p hp'
    rcases m.available hav' with hav | hpc
    · rcases m.mem_listOfPDOs hp' with hp | hpc
      · exact m.fed h ht hok hav hp hp' (h.fed hav p hp)
      · obtain ⟨-, dd, hdd⟩ := ht.adding p hpc
        subst hpc
        rw [m.pdos_addInsert.2, hdd]
        exact .inr (.inr rfl)
    · subst hpc
      exact .inl hp'
  · intro p i hpc
    exact (m.queues hpc).imp_right fun ⟨_, hn, hb⟩ => hb ▸ hn

end Bus.InLine

namespace Driver

variable {s s' : Driver} {C : Driver → Action → Prop}

/-! ## One routine at a time -/

/-- Every other thread is at rest. -/
def Alone (s : Driver) (t : Tid) : Prop := ∀ t₂, t₂ ≠ t → (s.calls t₂).rest = true

/-- **The rule of the sequential runs.**  What is asserted of the bus and the place of the one
handler under way, and the same wherever a thread rests, is kept by the moves of that handler. -/
theorem OneHandler.alone_move {I : Bus → Pc → Prop}
    (hrest : ∀ b pc pc', pc.rest = true → pc'.rest = true → I b pc → I b pc')
    (h : s.OneHandler) (hseq : s.Sequential a) (hi : ∀ t, s.Alone t → I s.bus (s.calls t))
    (m : Moves t s.bus a (s.calls t) b' pc')
    (hmove : s.Alone t → I s.bus (s.calls t) → I b' pc') :
    ∀ t₂, (s.put t (b', pc')).Alone t₂ → I b' ((s.put t (b', pc')).calls t₂) := by
  intro t₂ halone
  have hothers : ∀ t₃, t₃ ≠ t₂ → t₃ ≠ t → (s.calls t₃).rest = true := by
    intro t₃ hne₂ hne
    rw [← put_calls_of_ne s hne (b', pc')]
    exact halone t₃ hne₂
  rcases eq_or_ne t₂ t with rfl | hne
  · have ha : s.Alone t₂ := fun t₃ hne => hothers t₃ hne hne
    rw [put_calls_self]
    exact hmove ha (hi t₂ ha)
  · rw [put_calls_of_ne s hne]
    by_cases ht₂ : (s.calls t₂).rest = true
    · have ha : s.Alone t := by
        intro t₃ hne₃
        rcases eq_or_ne t₃ t₂ with rfl | hne₂
        · exact ht₂
        · exact hothers t₃ hne₂ hne₃
      have hpc' : pc'.rest = true := by
        have hpc' := halone t (Ne.symm hne)
        rwa [put_calls_self] at hpc'
      exact hrest b' pc' (s.calls t₂) hpc' ht₂ (hmove ha (hi t ha))
    · -- the thread that moves is at rest beside the handler
      have ht₂ : (s.calls t₂).rest = false := by simpa using ht₂
      rw [(h.others hseq m hne ht₂).1]
      refine hi t₂ fun t₃ hne₂ => ?_
      by_contra ht₃
      exact hne₂ (h t₃ t₂ (by simpa using ht₃) ht₂)

/-- **The steps of the runs**: each routine runs to its end before the next begins, and gets the
remove lock of its disk. -/
structure InTurn (s : Driver) (a : Action) : Prop where
  sequential : s.Sequential a
  acquires : ∀ t ok, a = .step t ok → (s.calls t).acquires = true → ok = true

/-- In such a run one handler is under way at most. -/
theorem oneHandler (h : lts.Reach InTurn s) : s.OneHandler := by
  refine h.invariant (I := OneHandler) ?_ fun s a s' hr hi hC hs => ?_
  · intro t t' ht
    cases ht
  · rcases step_moves hs with ⟨t, b', pc', m, rfl⟩ | ⟨m, f, -, rfl⟩ | ⟨e, -, -, rfl⟩
    · exact hi.move hC.sequential m
    · exact hi
    · exact hi

/-- What is known of the bus while no other handler is under way. -/
theorem tidy (h : lts.Reach C s) (ha : s.Alone t) : s.bus.Tidy (s.calls t) where
  nodup := (linked h).nodup
  fresh := (linked h).new _ (Nat.le_refl _)
  known p hp := (linked h).known hp
  parent p hp := by
    rw [((linked h).intact p hp).parentFdo]
    exact Option.some_ne_none _
  adding p hpc := ⟨(linked h).not_known hpc, ((linked h).adding t p hpc).2⟩
  destroying p hpc := (linked h).destroying t p hpc
  armed p i hi := by
    rcases (placed h).queued p i hi with hreg | ⟨-, t₂, ht₂⟩
    · exact .inl (by simp [hreg])
    · right
      rcases eq_or_ne t₂ t with rfl | hne
      · exact ht₂
      · have hrest := ha t₂ hne
        rw [ht₂] at hrest
        cases hrest
  tested p hpc := (locked h).tested t p hpc
  exposed p hp hpc := by
    by_contra hcon
    obtain ⟨hmem, hf⟩ := not_or.mp hcon
    have hdel : (s.bus.pdos p).deleted = false := by
      simp only [Bus.exposed, Bool.and_eq_true, Bool.not_eq_true'] at hp
      exact hp.2
    refine hf ((orphans h).orphan p (Bus.known_of_exposed hp) hmem hdel fun t₂ ht₂ => ?_).1
    have hrest := Pc.rest_of_destroying ht₂
    rcases eq_or_ne t₂ t with rfl | hne
    · rw [hpc] at hrest
      cases hrest
    · cases hrest.symm.trans (ha t₂ hne)
  arrived := (sent h).arrived

/-! ## First in, first out -/

/-- **The disks' lines are kept**, in every run in which each routine runs to its end. -/
theorem inLine (h : lts.Reach InTurn s) : ∀ t, s.Alone t → s.bus.InLine (s.calls t) := by
  refine h.invariant (I := fun s => ∀ t, s.Alone t → s.bus.InLine (s.calls t)) ?_
    fun s a s' hr hi hC hs => ?_
  · intro t _
    refine ⟨fun _ => List.nodup_nil, ?_, fun _ => List.nil_sublist _, ?_, ?_, ?_, ?_, ?_, ?_, ?_,
      ?_, ?_⟩
    · intro p i hi
      cases hi
    · intro p hp
      cases hp
    · intro p i j hij
      cases hij
    · intro _ p hp
      cases hp
    · intro p hp
      cases hp
    · intro p
      exact nofun
    · intro hl
      cases hl
    · rintro p i (hpc | hpc | hpc) <;> cases hpc
    · intro p i hpc
      cases hpc
    · intro p i hpc
      cases hpc
  · rcases step_moves hs with ⟨t, b', pc', m, rfl⟩ | ⟨m, f, -, rfl⟩ | ⟨e, -, -, rfl⟩
    · refine (oneHandler hr).alone_move (I := Bus.InLine) (fun b pc pc' => Bus.InLine.of_rest)
        hC.sequential hi m fun ha hline => hline.move (tidy hr ha) ?_ m
      intro t' ok heq
      obtain rfl : t' = t := by simpa [heq, Action.thread] using m.thread
      exact hC.acquires t' ok heq
    · intro t ha
      have hline := hi t ha
      exact ⟨hline.1, hline.2, hline.3, hline.4, hline.5, hline.6, hline.7, hline.8, hline.9,
        hline.10, hline.11, hline.12⟩
    · intro t ha
      have hline := hi t ha
      exact ⟨hline.1, hline.2, hline.3, hline.4, hline.5, hline.6, hline.7, hline.8, hline.9,
        hline.10, hline.11, hline.12⟩

/-- Some thread has no other beside it under way. -/
theorem OneHandler.exists_alone (h : s.OneHandler) : ∃ t, s.Alone t := by
  by_cases hex : ∃ t, (s.calls t).rest = false
  · obtain ⟨t, ht⟩ := hex
    refine ⟨t, fun t₂ hne => ?_⟩
    by_contra ht₂
    exact hne (h t₂ t (by simpa using ht₂) ht)
  · refine ⟨.run, fun t₂ _ => ?_⟩
    by_contra ht₂
    exact hex ⟨t₂, by simpa using ht₂⟩

/-- The handler under way is alone. -/
theorem OneHandler.alone (h : s.OneHandler) (ht : (s.calls t).rest = false) : s.Alone t := by
  intro t₂ hne
  by_contra ht₂
  exact hne (h t₂ t (by simpa using ht₂) ht)

/-- **First in, first out**, with the latest at the head of both lists. -/
structure FirstInFirstOut (s : Driver) : Prop where
  /-- The IRPs that were handed out for a disk are in the order of their arrival there; -/
  order : ∀ p, (s.bus.handedOut p).Sublist (s.bus.dispatched p)
  /-- …one that a later one was handed out before was cancelled, -/
  skipped : ∀ p i j, [j, i].Sublist (s.bus.dispatched p) → j ∈ s.bus.handedOut p →
    (s.bus.irps i).cancel = true ∨ i ∈ s.bus.handedOut p
  /-- …and the direct start of `BusStartPacket` finds the queue of its disk empty. -/
  direct : ∀ t p i r, s.calls t = .startSetup p i r → (s.bus.pdos p).irpQueue = []

/-- **Each disk's requests are handed out first in, first out**, in every run in which each routine
runs to its end before the next begins and gets the remove lock of its disk. -/
theorem firstInFirstOut (h : lts.Reach InTurn s) : s.FirstInFirstOut := by
  have hone := oneHandler h
  obtain ⟨t, ha⟩ := hone.exists_alone
  have hline := inLine h t ha
  refine ⟨fun p => ?_, hline.skipped, fun t₂ p i r hpc => ?_⟩
  · exact (List.sublist_append_right _ _).trans (hline.order p)
  · have ha₂ := hone.alone (t := t₂) (by rw [hpc]; rfl)
    exact (inLine h t₂ ha₂).direct (tidy h ha₂) hpc

/-- A run of one thread that gets every remove lock. -/
def soloInTurn (s : Driver) (a : Action) : Bool :=
  solo (.sys 0) s a && match a with
    | .step t ok => !(s.calls t).acquires || ok
    | _ => true

/-- Three IRPs for one disk; the second is cancelled on the queue. -/
theorem firstInFirstOut_cancelled :
    ∃ s, lts.Reach InTurn s ∧
      (s.bus.dispatched 0 = [2, 1, 0] ∧ s.bus.handedOut 0 = [2, 0]) ∧ s.FirstInFirstOut := by
  obtain ⟨s, hs, hp⟩ := lts.exists_reach (C := fun s a => soloInTurn s a = true)
    (c := soloInTurn) (fun _ _ h => h)
    (startedRun ++ routine (.sys 0) (.scsi 0 1 readSrb) 6 ++
      routine (.sys 0) (.scsi 0 2 readSrb) 6 ++
      [.cancelIrp (.sys 0) 1, .step (.sys 0) true, .leave (.sys 0)] ++
      routine (.sys 0) (.sendReply startedReply) 6 ++ routine (.sys 0) (.getRequest 1 0) 8)
    (fun s => s.bus.dispatched 0 = [2, 1, 0] ∧ s.bus.handedOut 0 = [2, 0]) (by decide +kernel)
  have hsolo : ∀ s a, soloInTurn s a = true → solo (.sys 0) s a = true :=
    fun s a ha => (Bool.and_eq_true_iff.mp ha).1
  have hreach : lts.Reach InTurn s := by
    refine hs.mono fun s a hr _ ha => ⟨sequential_of_solo hr hsolo (hsolo s a ha), ?_⟩
    rintro t ok rfl hacq
    simpa [hacq] using (Bool.and_eq_true_iff.mp ha).2
  exact ⟨s, hreach, hp, firstInFirstOut hreach⟩

end Driver

end VirtualDisk
