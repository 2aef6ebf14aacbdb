import VirtualDisk.Driver.Children

/-!
# Driver/Regular — runs without cancellation and removal

In a *regular* run no IRP is cancelled, no disk is ejected or removed, and every disk's remove lock
is granted.  The routines that can be under way are then those that add disks and move requests, a
disk once added stays on the list, and both cancel-safe queues pass no entry over.
-/

namespace VirtualDisk

open Machinery

variable {t : Tid} {a : Action} {b b' : Bus} {pc pc' : Pc} {p q : PdoId} {i : IrpId} {r : RqId}

/-- A request that only moves a disk between its working states. -/
def PnpMinor.regular : PnpMinor → Bool
  | .surpriseRemoval | .eject => false
  | _ => true

/-- A routine that removes no disk. -/
def Call.regular : Call → Bool
  | .scsi _ _ _ | .getRequest _ _ | .sendReply _ | .addDisk _ => true
  | .queryRelations _ | .queryCapabilities _ _ => true
  | .pdoPnp _ m => m.regular
  | .removeDisk _ | .pdoRemove _ | .fdoSurpriseRemoval | .fdoRemove | .cleanup _ => false

namespace Pc

/-- Where a thread can be in a regular run. -/
def regular : Pc → Bool
  | .idle | .ret _ => true
  | .busScsi _ _ | .scsiAcquire _ _ | .scsiEnd _ _ _ | .scsiRelease _ _ => true
  | .startPacket _ _ | .startRequest _ _ | .startInsert _ _ | .startSetup _ _ _ => true
  | .startComplete _ _ _ => true
  | .nextPacket _ _ | .nextRequest _ _ | .nextIrp _ _ _ | .nextSetup _ _ _ _ => true
  | .nextPutBack _ _ _ | .nextComplete _ _ => true
  | .getInsert _ | .getLoop _ => true
  | .replyFind _ | .replyTake _ _ | .replyComplete _ _ | .replyRelease _ => true
  | .addUnique _ | .addCreate _ | .addInsert _ => true
  | .pdoPnp _ m => m.regular
  | .busPnp _ | .queryRelations _ | .queryCaps _ _ => true
  | _ => false

/-- The step takes a disk's remove lock. -/
def acquires : Pc → Bool
  | .scsiAcquire _ _ | .startSetup _ _ _ | .nextSetup _ _ _ _ => true
  | _ => false

/-- What may happen to a thread at this place in a regular run. -/
def allows (pc : Pc) : Action → Bool
  | .call _ c => c.regular
  | .step _ ok => !pc.acquires || ok
  | .cancelIrp _ _ | .cancelRequest _ _ => false
  | .leave _ | .userWrite _ _ | .userWait _ => true

@[simp] theorem regular_nextReturn (k : NextCaller) : (nextReturn k).regular = true := by
  cases k <;> rfl

end Pc

/-- **The steps of a regular run.** -/
def Driver.Regular (s : Driver) (a : Action) : Bool := a.thread.all fun t => (s.calls t).allows a

namespace Moves

/-- **A regular thread stays regular.** -/
theorem regular (m : Moves t b a pc b' pc') (ha : pc.allows a = true) (hpc : pc.regular = true)
    (hf : ∀ p ∈ pc.mentions, (b.pdos p).parentFdo ≠ none) : pc'.regular = true := by
  cases m
  case nextPacketCrash h => exact absurd h (hf _ (by simp [Pc.mentions]))
  case startPacketCrash h => exact absurd h (hf _ (by simp [Pc.mentions]))
  case queryCapsCrash hp => exact absurd hp (hf _ (by simp [Pc.mentions]))
  all_goals first
    | rfl
    | exact Pc.regular_nextReturn _
    | (cases ha; done)
    | (cases hpc; done)
    | exact ha

/-- In a regular run, PDOs are put on the list only. -/
theorem listOfPDOs_of_regular (m : Moves t b a pc b' pc') (hpc : pc.regular = true) :
    b'.fdo.listOfPDOs = b.fdo.listOfPDOs ∨
    ∃ p, pc = .addInsert p ∧ b'.fdo.listOfPDOs = b.fdo.listOfPDOs ++ [p] := by
  cases m
  case addInsert p _ => exact .inr ⟨p, rfl, rfl⟩
  all_goals first
    | exact .inl rfl
    | cases hpc

/-- …and the FDO stays in service. -/
theorem fdo_of_regular (m : Moves t b a pc b' pc') (hpc : pc.regular = true) :
    b'.fdo.devicePnPState = b.fdo.devicePnPState ∧ b'.fdo.mutex = b.fdo.mutex ∧
    b'.fdo.cleanupReadyEvent = b.fdo.cleanupReadyEvent := by
  cases m <;> first | exact ⟨rfl, rfl, rfl⟩ | cases hpc

/-- No disk comes to be deleted. -/
theorem pnp_of_regular (m : Moves t b a pc b' pc') (hpc : pc.regular = true)
    (hp : (b.pdos p).devicePnPState ≠ .deleted ∧ (b.pdos p).previousPnPState ≠ .deleted) :
    (b'.pdos p).devicePnPState ≠ .deleted ∧ (b'.pdos p).previousPnPState ≠ .deleted := by
  cases m
  case pdoPnp q m _ =>
    rcases eq_or_ne p q with rfl | hne
    · cases m
      all_goals first
        | (cases hpc; done)
        | simp [PnpMinor.states, hp]
      all_goals split <;> simp [hp]
    · simpa [hne] using hp
  all_goals first
    | (cases hpc; done)
    | exact hp
    | skip
  all_goals simp [Function.update_apply]
  all_goals split <;> simp_all [Bus.newPdo]

/-- No IRP is cancelled. -/
theorem cancel_of_regular (m : Moves t b a pc b' pc') (ha : pc.allows a = true) :
    (b'.irps i).cancel = (b.irps i).cancel := by
  cases m
  all_goals first
    | (cases ha; done)
    | rfl
    | exact frame_update Irp.cancel rfl

/-- …and no GET_REQUEST IRP. -/
theorem cancelRequest_of_regular (m : Moves t b a pc b' pc') (ha : pc.allows a = true) :
    (b'.requests r).cancel = (b.requests r).cancel := by
  cases m
  all_goals first
    | (cases ha; done)
    | rfl
    | exact frame_update RequestIrp.cancel rfl

/-- The entries of the `RequestQueue` keep their cancel routine. -/
theorem armed_of_regular (m : Moves t b a pc b' pc') (ha : pc.allows a = true)
    (hpc : pc.regular = true) (hn : b.fdo.requestQueue.Nodup)
    (h : ∀ r ∈ b.fdo.requestQueue, (b.requests r).armed = true) :
    ∀ r ∈ b'.fdo.requestQueue, (b'.requests r).armed = true := by
  have htake : ∀ x, ∀ r ∈ (b.removeRequest x).fdo.requestQueue,
      ((b.removeRequest x).requests r).armed = true := by
    intro x r hr
    have hmem : r ≠ x ∧ r ∈ b.fdo.requestQueue := hn.mem_erase_iff.mp hr
    simpa [hmem.1] using h r hmem.2
  have hput : ∀ x, ∀ r ∈ (b.appendRequest x).fdo.requestQueue,
      ((b.appendRequest x).requests r).armed = true := by
    intro x r hr
    rcases eq_or_ne r x with rfl | hne
    · simp
    · have hmem : r ∈ b.fdo.requestQueue := by simpa [hne] using hr
      simpa [hne] using h r hmem
  cases m
  all_goals first
    | (cases ha; done)
    | (cases hpc; done)
    | exact h
    | exact htake _
    | exact hput _
    | exact fun x hx => (frame_update RequestIrp.armed (by rfl)).trans (h x hx)

/-- The entries of an `IrpQueue` keep their cancel routine. -/
theorem queued_of_regular {hands : Tid → List IrpId} (m : Moves t b a pc b' pc')
    (ha : pc.allows a = true) (hpc : pc.regular = true) (hx : Exclusive (b.holds hands))
    (h : ∀ p, ∀ i ∈ (b.pdos p).irpQueue, (b.irps i).cancelRoutine ≠ none) :
    ∀ p, ∀ i ∈ (b'.pdos p).irpQueue, (b'.irps i).cancelRoutine ≠ none := by
  intro p i hi
  -- a current IRP is on no queue
  have hcurrent : ∀ {q j}, (b.pdos q).currentIrp = some j → i ∈ (b.pdos p).irpQueue → i ≠ j := by
    rintro q j hj hi rfl
    have hj : i ∈ b.holds hands (.current q) := by simp [Bus.holds, hj]
    have hplace := hx.unique (k := .queue p) hi hj
    cases hplace
  cases m
  case nextIrp q r k j hj =>
    have hmem := (Bus.mem_of_peekIrp hj).1
    have hold : i ∈ (b.pdos p).irpQueue ∧ i ≠ j := by
      rcases eq_or_ne p q with rfl | hne
      · have hi : i ∈ (b.pdos p).irpQueue.erase j := by simpa using hi
        have hnodup : (b.pdos p).irpQueue.Nodup := hx.nodup (.queue p)
        exact ⟨List.mem_of_mem_erase hi, (hnodup.mem_erase_iff.mp hi).1⟩
      · have hq : i ∈ (b.pdos p).irpQueue := by simpa [hne] using hi
        refine ⟨hq, ?_⟩
        rintro rfl
        have hplace : Place.queue p = .queue q := hx.unique hq hmem
        exact hne (Place.queue.inj hplace)
    simpa [hold.2] using h p i hold.1
  case startInsert q j _ =>
    rcases eq_or_ne i j with rfl | hne
    · simp
    · have hold : i ∈ (b.pdos p).irpQueue := by
        rcases eq_or_ne p q with rfl | hp
        · simpa [hne] using hi
        · simpa [hp] using hi
      simpa [hne] using h p i hold
  case replyTakeCancelled q rep j _ hj _ =>
    have hi : i ∈ (b.pdos p).irpQueue := by
      simp only [Bus.acceptCancelled_pdos, Function.update_apply] at hi
      split at hi <;> simp_all
    simpa [hcurrent hj hi] using h p i hi
  case replyTake q rep j _ hj _ =>
    have hi : i ∈ (b.pdos p).irpQueue := by
      simp only [Bus.acceptAnswer_pdos, Function.update_apply, replySrb_pdo] at hi
      split at hi <;> simp_all
    simpa [hcurrent hj hi] using h p i hi
  all_goals first
    | (cases ha; done)
    | (cases hpc; done)
    | exact h p i hi
    | exact h p i ((mem_frame_update PdoDeviceData.irpQueue (by rfl)).mp hi)
    | exact fun hc => h p i hi ((frame_update Irp.cancelRoutine (by rfl)).symm.trans hc)
    | skip
  all_goals
    have hold : i ∈ (b.pdos p).irpQueue := by
      simp [Function.update_apply, Bus.newPdo] at hi
      first
        | exact hi
        | (split at hi <;> simp_all)
    have hold := h p i hold
    simp [Function.update_apply]
    first
      | exact hold
      | (split <;> simp_all)

end Moves

namespace Driver

variable {s s' : Driver} {C : Driver → Action → Prop}

/-- **What a regular run keeps.** -/
structure InService (s : Driver) : Prop where
  pc : ∀ t, (s.calls t).regular = true
  fdo : s.bus.fdo.devicePnPState = .started
  linked : ∀ p, s.bus.Known p → p ∈ s.bus.fdo.listOfPDOs
  pnp : ∀ p, (s.bus.pdos p).devicePnPState ≠ .deleted ∧ (s.bus.pdos p).previousPnPState ≠ .deleted
  irp : ∀ i, (s.bus.irps i).cancel = false
  queued : ∀ p, ∀ i ∈ (s.bus.pdos p).irpQueue, (s.bus.irps i).cancelRoutine ≠ none
  request : ∀ r, (s.bus.requests r).cancel = false
  armed : ∀ r ∈ s.bus.fdo.requestQueue, (s.bus.requests r).armed = true

/-- A regular step cancels nothing and is granted the remove lock. -/
theorem keepsOwner_of_regular (h : s.Regular a = true) : s.KeepsOwner a := by
  cases a with
  | step t ok =>
    intro p i r hpc
    simpa [Regular, Action.thread, hpc, Pc.allows, Pc.acquires] using h
  | cancelIrp t i => cases h
  | _ => trivial

/-- A disk in service has its parent. -/
theorem InService.parentFdo (h : s.InService) (hl : s.Linked) (hp : s.bus.Known p) :
    (s.bus.pdos p).parentFdo = some .fdo := (hl.intact p (h.linked p hp)).parentFdo

/-- **A regular move keeps the service.** -/
theorem InService.move (h : s.InService) (hl : s.Linked) (ho : s.Owned) (hr : s.RqOwned)
    (hC : s.Regular a = true) (m : Moves t s.bus a (s.calls t) b' pc') :
    (s.put t (b', pc')).InService := by
  have ha : (s.calls t).allows a = true := by simpa [Regular, m.thread] using hC
  have hpc := h.pc t
  refine ⟨?_, ?_, ?_, ?_, ?_, ?_, ?_, ?_⟩
  · refine forall_update (L := fun _ (pc : Pc) => pc.regular = true) ?_ fun t₂ _ => h.pc t₂
    refine m.regular ha hpc fun p hp => ?_
    rw [h.parentFdo hl (hl.mentions t p hp)]
    exact Option.some_ne_none _
  · exact (m.fdo_of_regular hpc).1.trans h.fdo
  · intro p hp'
    by_cases hp : s.bus.Known p
    · have hmem := h.linked p hp
      rcases m.listOfPDOs_of_regular hpc with hlist | ⟨q, -, hlist⟩
      · exact hlist ▸ hmem
      · exact hlist ▸ List.mem_append_left _ hmem
    · exact m.mem_of_known hp' hp
  · exact fun p => m.pnp_of_regular hpc (h.pnp p)
  · exact fun i => (m.cancel_of_regular ha).trans (h.irp i)
  · exact m.queued_of_regular ha hpc ho.ledger.toExclusive h.queued
  · exact fun r => (m.cancelRequest_of_regular ha).trans (h.request r)
  · exact m.armed_of_regular ha hpc (hr.ledger.nodup .queue) h.armed

/-- **Nothing goes out of service** in a regular run. -/
theorem inService (h : lts.Reach (fun s a => s.Regular a = true) s) : s.InService := by
  refine h.invariant (I := InService) ?_ fun s a s' hr hi hC hs => ?_
  · refine ⟨fun _ => rfl, rfl, fun p hp => ?_, fun p => ?_, fun _ => rfl, fun p i hi => ?_,
      fun _ => rfl, fun r hr => ?_⟩
    · exact absurd hp.1 (Nat.not_lt_zero p)
    · constructor <;> rintro ⟨⟩
    · cases hi
    · cases hr
  · rcases step_moves hs with ⟨t, b', pc', m, rfl⟩ | ⟨m, f, -, rfl⟩ | ⟨e, -, -, rfl⟩
    · have ho := owned (hr.mono fun _ _ _ _ h => keepsOwner_of_regular h)
      exact hi.move (linked hr) ho (rqOwned hr) hC m
    · exact ⟨hi.1, hi.2, hi.3, hi.4, hi.5, hi.6, hi.7, hi.8⟩
    · exact ⟨hi.1, hi.2, hi.3, hi.4, hi.5, hi.6, hi.7, hi.8⟩

/-- A queue in service is empty when nothing can be taken from it. -/
theorem InService.irpQueue_eq_nil (h : s.InService) (hp : s.bus.peekIrp p = none) :
    (s.bus.pdos p).irpQueue = [] := by
  rw [Bus.peekIrp, List.find?_eq_none] at hp
  refine List.eq_nil_iff_forall_not_mem.mpr fun i hi => ?_
  exact hp i hi (Option.isSome_iff_ne_none.mpr (h.queued p i hi))

/-- …and so is the `RequestQueue`. -/
theorem InService.requestQueue_eq_nil (h : s.InService) (hr : s.bus.peekRequest none = none) :
    s.bus.fdo.requestQueue = [] := by
  rw [Bus.peekRequest, List.find?_eq_none] at hr
  refine List.eq_nil_iff_forall_not_mem.mpr fun r hmem => ?_
  exact hr r hmem (by simp [h.armed r hmem])

end Driver

end VirtualDisk
