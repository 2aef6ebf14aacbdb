import VirtualDisk.Driver.Conservation

/-!
# Driver/Requests — what a request handed out says, and of which IRP

A GET_REQUEST IRP is filled once, from the SRB of an IRP that the filling routine has in hand.  An
IRP's command never changes once it arrived, and a disk keeps its serial number, so a request goes
on saying what `BusSetupRequest` makes of its IRP, wherever it is carried.
-/

namespace VirtualDisk

open Machinery

variable {t : Tid} {a : Action} {b b' : Bus} {pc pc' : Pc} {p : PdoId} {i : IrpId} {r : RqId}

/-! ## The IRPs that arrived -/

namespace Pc

/-- The IRP a thread has in hand for a PDO, still to be queued or started there. -/
def bears : Pc → Option (PdoId × IrpId)
  | .busScsi p i | .scsiAcquire p i => some (p, i)
  | .startPacket p i | .startRequest p i | .startInsert p i | .startSetup p i _ => some (p, i)
  | .nextSetup p _ i _ => some (p, i)
  | _ => none

@[simp] theorem bears_nextReturn (k : NextCaller) : (nextReturn k).bears = none := by
  cases k <;> rfl

@[simp] theorem bears_destroyReturn (k : DestroyCaller) : (destroyReturn k).bears = none := by
  cases k <;> rfl

/-- An IRP a thread bears is in its hands. -/
theorem mem_hand_of_bears (h : pc.bears = some (p, i)) : i ∈ pc.hand := by
  cases pc <;> cases h <;> exact List.mem_singleton_self _

end Pc

namespace Moves

/-- **An IRP that arrived keeps its command.** -/
theorem cdb (m : Moves t b a pc b' pc') (hi : (b.irps i).arrived = true) :
    (b'.irps i).arrived = true ∧ (b'.irps i).srb.cdb = (b.irps i).srb.cdb := by
  cases m
  case callScsi j _ _ _ hj =>
    have hne : i ≠ j := by
      rintro rfl
      cases hj.symm.trans hi
    simpa [hne] using hi
  all_goals simp [Function.update_apply, hi]
  all_goals split <;> simp_all

/-- An IRP arrives in `Bus_Scsi`, as a READ or a WRITE. -/
theorem arrives (m : Moves t b a pc b' pc') (hi : (b'.irps i).arrived = true) :
    (b.irps i).arrived = true ∨ ∃ p srb, a = .call t (.scsi p i srb) ∧
      srb.cdb.isReadWrite = true ∧ (b'.irps i).srb = srb ∧ pc'.hand = [i] := by
  cases m
  case callScsi p j srb _ hrw _ =>
    by_cases hij : i = j
    · subst hij
      exact .inr ⟨p, srb, rfl, hrw, by simp, rfl⟩
    · exact .inl (by simpa [hij] using hi)
  all_goals
    left
    first
    | exact hi
    | (simp [Function.update_apply] at hi; first | exact hi | (split at hi <;> simp_all))

/-- **An IRP comes into a thread's hands** from a queue, from `CurrentIrp`, or by arriving. -/
theorem mem_hand (m : Moves t b a pc b' pc') (hi : i ∈ pc'.hand) :
    i ∈ pc.hand ∨ (∃ p, i ∈ (b.pdos p).irpQueue) ∨ (∃ p, (b.pdos p).currentIrp = some i) ∨
    (b'.irps i).arrived = true := by
  cases m
  case callScsi =>
    obtain rfl := List.mem_singleton.mp hi
    exact .inr (.inr (.inr (by simp)))
  case nextIrp h | destroyDrain h =>
    obtain rfl := List.mem_singleton.mp hi
    exact .inr (.inl ⟨_, (Bus.mem_of_peekIrp h).1⟩)
  case replyTakeCancelled hc _ | replyTake hc _ | destroyTake hc =>
    obtain rfl := List.mem_singleton.mp hi
    exact .inr (.inr (.inl ⟨_, hc⟩))
  all_goals
    left
    first
    | exact hi
    | exact absurd hi List.not_mem_nil
    | (rw [Pc.hand_nextReturn] at hi; exact absurd hi List.not_mem_nil)
    | (rw [Pc.hand_destroyReturn] at hi; exact absurd hi List.not_mem_nil)

/-- An IRP is queued by the thread that carries it there, with the queue's cancel routine. -/
theorem enqueues (m : Moves t b a pc b' pc') (hi : i ∈ (b'.pdos p).irpQueue) :
    i ∈ (b.pdos p).irpQueue ∨
    (pc = .startInsert p i ∧ (b.irps i).cancel = false ∧
      (b'.irps i).cancelRoutine = some (.csq p)) := by
  cases m
  case startInsert q j hc =>
    rcases eq_or_ne p q with rfl | hpq
    · have hi : i ∈ (b.pdos p).irpQueue ∨ i = j := by simpa using hi
      refine hi.imp_right ?_
      rintro rfl
      exact ⟨rfl, hc, by simp⟩
    · exact .inl (by simpa [hpq] using hi)
  case nextIrp q r k j _ | destroyDrain q k j _ | csqCancelIrp q j =>
    rcases eq_or_ne p q with rfl | hpq
    · exact .inl (List.mem_of_mem_erase (by simpa using hi))
    · exact .inl (by simpa [hpq] using hi)
  all_goals
    left
    first
    | exact hi
    | exact (mem_frame_update PdoDeviceData.irpQueue (by rfl)).mp hi
    | (simp [Function.update_apply, Bus.newPdo] at hi
       first | exact hi | (split at hi <;> simp_all))

/-- An IRP becomes current when the thread that carries it starts it. -/
theorem starts_current (m : Moves t b a pc b' pc') (hi : (b'.pdos p).currentIrp = some i) :
    (b.pdos p).currentIrp = some i ∨ pc.bears = some (p, i) := by
  cases m
  case startSetup q j r | nextSetup q r j k =>
    rcases eq_or_ne p q with rfl | hpq
    · right
      simpa [Pc.bears, eq_comm] using hi
    · exact .inl (by simpa [hpq] using hi)
  all_goals
    left
    first
    | exact hi
    | exact (frame_update PdoDeviceData.currentIrp (by rfl)).symm.trans hi
    | (simp [Function.update_apply, Bus.newPdo] at hi
       first | exact hi | (split at hi <;> simp_all))

end Moves

namespace Driver

variable {s s' : Driver} {C : Driver → Action → Prop}

/-- Every IRP on its way through the driver arrived there, with a READ or a WRITE. -/
structure Arrived (s : Driver) : Prop where
  hand : ∀ t, ∀ i ∈ (s.calls t).hand, (s.bus.irps i).arrived = true
  queue : ∀ p, ∀ i ∈ (s.bus.pdos p).irpQueue, (s.bus.irps i).arrived = true
  current : ∀ p i, (s.bus.pdos p).currentIrp = some i → (s.bus.irps i).arrived = true
  readWrite : ∀ i, (s.bus.irps i).arrived = true → (s.bus.irps i).srb.cdb.isReadWrite = true

/-- **A move keeps track of the IRPs.** -/
theorem Arrived.move (h : s.Arrived) (m : Moves t s.bus a (s.calls t) b' pc') :
    (s.put t (b', pc')).Arrived := by
  have hkeep : ∀ i, (s.bus.irps i).arrived = true → (b'.irps i).arrived = true := fun i hi =>
    (m.cdb hi).1
  refine ⟨?_, ?_, ?_, ?_⟩
  · refine forall_update (L := fun _ (pc : Pc) => ∀ i ∈ pc.hand, (b'.irps i).arrived = true) ?_ ?_
    · intro i hi
      rcases m.mem_hand hi with hi | ⟨p, hi⟩ | ⟨p, hi⟩ | hi
      · exact hkeep i (h.hand t i hi)
      · exact hkeep i (h.queue p i hi)
      · exact hkeep i (h.current p i hi)
      · exact hi
    · exact fun t₂ _ i hi => hkeep i (h.hand t₂ i hi)
  · intro p i hi
    rcases m.enqueues hi with hi | ⟨hpc, -, -⟩
    · exact hkeep i (h.queue p i hi)
    · exact hkeep i (h.hand t i (hpc ▸ List.mem_singleton_self i))
  · intro p i hi
    rcases m.starts_current hi with hi | hpc
    · exact hkeep i (h.current p i hi)
    · exact hkeep i (h.hand t i (Pc.mem_hand_of_bears hpc))
  · intro i hi
    rcases m.arrives hi with hold | ⟨p, srb, -, hrw, hsrb, -⟩
    · show (b'.irps i).srb.cdb.isReadWrite = true
      rw [(m.cdb hold).2]
      exact h.readWrite i hold
    · show (b'.irps i).srb.cdb.isReadWrite = true
      rw [hsrb]
      exact hrw

/-- **Every IRP in the driver arrived there**, in every state reached. -/
theorem arrived (h : lts.Reach C s) : s.Arrived := by
  refine h.invariant (I := Arrived) ?_ fun s a s' _ hi _ hs => ?_
  · refine ⟨?_, ?_, ?_, ?_⟩
    · intro t i hi
      cases hi
    · intro p i hi
      cases hi
    · intro p i hi
      cases hi
    · intro i hi
      cases hi
  · rcases step_moves hs with ⟨t, b', pc', m, rfl⟩ | ⟨m, f, -, rfl⟩ | ⟨e, -, -, rfl⟩
    · exact hi.move m
    · exact ⟨hi.1, hi.2, hi.3, hi.4⟩
    · exact ⟨hi.1, hi.2, hi.3, hi.4⟩

end Driver

/-! ## The requests -/

/-- A request is made of the PDO's serial number and the SRB's command. -/
theorem busSetupRequest_congr {d d' : PdoDeviceData} {srb srb' : ScsiRequestBlock}
    (hs : d'.serialNo = d.serialNo) (hc : srb'.cdb = srb.cdb) :
    busSetupRequest d' srb' = busSetupRequest d srb := by
  simp only [busSetupRequest, hs, hc]

/-- **The request says what `BusSetupRequest` makes of its IRP**, for the PDO it was made for. -/
def Bus.Genuine (b : Bus) (q : Tagged BusenumRequest) : Prop :=
  ∀ p i, q.origin = some (p, i) → p < b.pdoCount ∧ (b.irps i).arrived = true ∧
    q.val = busSetupRequest (b.pdos p) (b.irps i).srb

namespace Moves

/-- A request stays genuine. -/
theorem genuine {q : Tagged BusenumRequest} (m : Moves t b a pc b' pc') (h : b.Genuine q) :
    b'.Genuine q := by
  intro p i hq
  obtain ⟨hp, hi, hval⟩ := h p i hq
  refine ⟨Nat.lt_of_lt_of_le hp m.pdoCount_le, (m.cdb hi).1, hval.trans ?_⟩
  exact (busSetupRequest_congr (m.identity hp).1 (m.cdb hi).2).symm

/-- **A GET_REQUEST IRP is filled when a packet is started**, with what `BusSetupRequest` makes of
the IRP in hand. -/
theorem systemBuffer (m : Moves t b a pc b' pc') :
    (b'.requests r).systemBuffer = (b.requests r).systemBuffer ∨
    ∃ p i, pc.starts = some p ∧ a = .step t true ∧ i ∈ pc.hand ∧ b' = b.startIrp p r i := by
  cases m
  case startSetup p i x | nextSetup p x i k =>
    by_cases hr : r = x
    · subst hr
      exact .inr ⟨p, i, rfl, rfl, List.mem_cons_self, rfl⟩
    · exact .inl (by simp [hr])
  all_goals
    left
    simp [Function.update_apply]
  all_goals
    split
    · next h => simp [h]
    · rfl

end Moves

theorem Bus.startIrp_systemBuffer : ((b.startIrp p r i).requests r).systemBuffer =
    some ⟨busSetupRequest (b.pdos p) (b.irps i).srb, some (p, i)⟩ := by
  simp

namespace Driver

variable {s s' : Driver} {C : Driver → Action → Prop}

/-- A packet is started on a PDO that exists, of an IRP that arrived. -/
theorem lt_of_starts (h : lts.Reach C s) (hp : (s.calls t).starts = some p) :
    p < s.bus.pdoCount :=
  ((linked h).mentions t p
    (Pc.mem_mentions_of_locked (Pc.locked_of_tested (Pc.tested_of_starts hp)))).1

/-- **Every request that was handed out is genuine.** -/
theorem genuine (h : lts.Reach C s) :
    ∀ r q, (s.bus.requests r).systemBuffer = some q → s.bus.Genuine q := by
  refine h.invariant
    (I := fun s => ∀ r q, (s.bus.requests r).systemBuffer = some q → s.bus.Genuine q) ?_ ?_
  · rintro r q ⟨⟩
  · intro s a s' hr hi _ hs
    rcases step_moves hs with ⟨t, b', pc', m, rfl⟩ | ⟨m, f, -, rfl⟩ | ⟨e, -, -, rfl⟩
    · intro r q hq
      rcases m.systemBuffer (r := r) with heq | ⟨p, i, hp, -, hhand, rfl⟩
      · exact m.genuine (hi r q (heq.symm.trans hq))
      · obtain rfl := Option.some.inj (Bus.startIrp_systemBuffer.symm.trans hq)
        refine m.genuine ?_
        rintro _ _ ⟨⟩
        exact ⟨lt_of_starts hr hp, (arrived hr).hand t i hhand, rfl⟩
    · exact hi
    · exact hi

/-- A request stays genuine in every step. -/
theorem genuine_step {q : Tagged BusenumRequest} (hs : s.step a = some s')
    (h : s.bus.Genuine q) : s'.bus.Genuine q := by
  rcases step_moves hs with ⟨t, b', pc', m, rfl⟩ | ⟨m, f, -, rfl⟩ | ⟨e, -, -, rfl⟩
  · exact m.genuine h
  · exact h
  · exact h

end Driver

/-! ## GET_REQUEST IRPs that come back -/

/-- The GET_REQUEST IRP that a thread has filled and not yet completed. -/
def Pc.completing : Pc → Option RqId
  | .startComplete _ _ r | .nextComplete r _ => some r
  | _ => none

@[simp] theorem Pc.completing_nextReturn (k : NextCaller) : (nextReturn k).completing = none := by
  cases k <;> rfl

@[simp] theorem Pc.completing_destroyReturn (k : DestroyCaller) :
    (destroyReturn k).completing = none := by
  cases k <;> rfl

namespace Moves

/-- A GET_REQUEST IRP that came in stays known. -/
theorem request_arrived (m : Moves t b a pc b' pc') (hr : (b.requests r).arrived = true) :
    (b'.requests r).arrived = true := by
  cases m.rqEntry with
  | arrive x _ _ _ _ hx => exact (hx r).1.mpr (.inr hr)
  | keep _ _ _ hx | enqueue _ _ _ _ hx | dequeue _ _ _ _ _ hx | fill _ _ _ _ hx
  | drop _ _ _ _ hx | cancel _ _ _ _ hx => exact (hx r).1.trans hr

/-- A thread comes to complete a GET_REQUEST IRP by filling it. -/
theorem completing (m : Moves t b a pc b' pc') (hr : pc'.completing = some r) :
    ∃ p i, b' = b.startIrp p r i := by
  cases m
  case startSetup p i x | nextSetup p x i k =>
    cases hr
    exact ⟨p, i, rfl⟩
  all_goals first
    | cases hr
    | (rw [Pc.completing_nextReturn] at hr; cases hr)
    | (rw [Pc.completing_destroyReturn] at hr; cases hr)

/-- **A GET_REQUEST IRP comes back with a request** when the thread that filled it completes it. -/
theorem succeeded (m : Moves t b a pc b' pc') (hc : (b'.requests r).completed = true)
    (hs : (b'.requests r).status = statusSuccess) :
    ((b.requests r).completed = true ∧ (b.requests r).status = statusSuccess) ∨
    pc.completing = some r ∨ ∃ p i, b' = b.startIrp p r i := by
  cases m
  case startSetup p i x | nextSetup p x i k =>
    by_cases hr : r = x
    · subst hr
      exact .inr (.inr ⟨p, i, rfl⟩)
    · exact .inl ⟨by simpa [hr] using hc, by simpa [hr] using hs⟩
  case startComplete p i x | nextComplete x k =>
    by_cases hr : r = x
    · subst hr
      exact .inr (.inl rfl)
    · exact .inl ⟨by simpa [hr] using hc, by simpa [hr] using hs⟩
  all_goals
    left
    first
    | exact ⟨hc, hs⟩
    | (simp [Function.update_apply] at hc hs
       first | exact ⟨hc, hs⟩ | (split at hc <;> simp_all [statusSuccess, statusNoSuchDevice,
        statusCancelled]))

end Moves

namespace Driver

variable {s s' : Driver} {C : Driver → Action → Prop}

/-- A GET_REQUEST IRP that is completed with success was filled, with a request of some IRP. -/
structure Fills (s : Driver) : Prop where
  origin : ∀ r q, (s.bus.requests r).systemBuffer = some q → q.origin ≠ none
  completing : ∀ t r, (s.calls t).completing = some r → (s.bus.requests r).systemBuffer ≠ none
  succeeded : ∀ r, (s.bus.requests r).completed = true →
    (s.bus.requests r).status = statusSuccess → (s.bus.requests r).systemBuffer ≠ none

/-- **A GET_REQUEST that succeeds brings a request**, in every state reached. -/
theorem fills (h : lts.Reach C s) : s.Fills := by
  refine h.invariant (I := Fills) ?_ fun s a s' _ hi _ hs => ?_
  · refine ⟨?_, ?_, ?_⟩
    · rintro r q ⟨⟩
    · rintro t r ⟨⟩
    · rintro r ⟨⟩
  rcases step_moves hs with ⟨t, b', pc', m, rfl⟩ | ⟨m, f, -, rfl⟩ | ⟨e, -, -, rfl⟩
  · have hfill : ∀ r p i, b' = s.bus.startIrp p r i → (b'.requests r).systemBuffer ≠ none := by
      rintro r p i rfl
      rw [Bus.startIrp_systemBuffer]
      exact Option.some_ne_none _
    have hkeep : ∀ r, (s.bus.requests r).systemBuffer ≠ none →
        (b'.requests r).systemBuffer ≠ none := by
      intro r hr
      rcases m.systemBuffer (r := r) with heq | ⟨p, i, -, -, -, heq⟩
      · exact heq ▸ hr
      · exact hfill r p i heq
    refine ⟨?_, ?_, ?_⟩
    · intro r q hq
      rcases m.systemBuffer (r := r) with heq | ⟨p, i, -, -, -, rfl⟩
      · exact hi.origin r q (heq.symm.trans hq)
      · obtain rfl := Option.some.inj (Bus.startIrp_systemBuffer.symm.trans hq)
        exact Option.some_ne_none _
    · refine forall_update (L := fun _ (pc : Pc) => ∀ r, pc.completing = some r →
        (b'.requests r).systemBuffer ≠ none) ?_ fun t₂ _ r hr => hkeep r (hi.completing t₂ r hr)
      intro r hr
      obtain ⟨p, i, heq⟩ := m.completing hr
      exact hfill r p i heq
    · intro r hc hst
      rcases m.succeeded hc hst with ⟨hc, hst⟩ | hr | ⟨p, i, heq⟩
      · exact hkeep r (hi.succeeded r hc hst)
      · exact hkeep r (hi.completing t r hr)
      · exact hfill r p i heq
  · exact ⟨hi.1, hi.2, hi.3⟩
  · exact ⟨hi.1, hi.2, hi.3⟩

end Driver

/-! ## The current IRP -/

/-- The PDO that a thread is destroying, past the section in which it cancels the current IRP. -/
def Pc.drains : Pc → Option PdoId
  | .destroyComplete p _ _ | .destroyDrain p _ | .destroyDrained p _ _ => some p
  | .destroyUnmap p _ | .destroySignal p _ | .destroyDelete p _ => some p
  | _ => none

@[simp] theorem Pc.drains_nextReturn (k : NextCaller) : (nextReturn k).drains = none := by
  cases k <;> rfl

@[simp] theorem Pc.drains_destroyReturn (k : DestroyCaller) : (destroyReturn k).drains = none := by
  cases k <;> rfl

namespace Moves

/-- A thread comes past the section in which `Bus_DestroyPdo` cancels the current IRP. -/
theorem drains (m : Moves t b a pc b' pc') (hp : pc'.drains = some p) :
    pc.drains = some p ∨ (b'.pdos p).drained = true := by
  cases m
  case destroyTakeNone | destroyTake =>
    cases hp
    exact .inr (by simp)
  all_goals try rw [Pc.drains_nextReturn] at hp
  all_goals try rw [Pc.drains_destroyReturn] at hp
  all_goals first | exact .inl hp | cases hp

/-- A removal is signalled past that section. -/
theorem signalled_of (m : Moves t b a pc b' pc') (hp : (b'.pdos p).signalled = true) :
    (b.pdos p).signalled = true ∨ pc.drains = some p := by
  cases m
  case destroySignal q k =>
    by_cases hpq : p = q
    · exact .inr (hpq ▸ rfl)
    · exact .inl (by simpa [hpq] using hp)
  all_goals
    left
    first
    | exact hp
    | exact (frame_update PdoDeviceData.signalled (by rfl)).symm.trans hp
    | (simp [Function.update_apply, Bus.newPdo] at hp
       first | exact hp | (split at hp <;> simp_all))

/-- **A current IRP is one** until it is answered, or the disk is drained. -/
theorem current_until (m : Moves t b a pc b' pc') (hi : (b.pdos p).currentIrp = some i)
    (hp : p < b.pdoCount) : (b'.pdos p).currentIrp = some i ∨ (b'.pdos p).drained = true ∨
    pc.tested = some p ∨ ∃ rep, pc = .replyTake p rep := by
  have hne : p ≠ b.pdoCount := Nat.ne_of_lt hp
  cases m
  all_goals first
    | exact .inl hi
    | exact .inl ((frame_update PdoDeviceData.currentIrp (by rfl)).trans hi)
    | skip
  all_goals simp [Function.update_apply, hne]
  all_goals first
    | exact .inl hi
    | (split <;> simp_all [Pc.tested, Pc.locked])

/-- **A reply is taken** for the current IRP of the disk it was found to be for. -/
theorem accepts {rep : Tagged BusenumReply} (m : Moves t b a pc b' pc')
    (he : .accept p i rep ∈ b'.trace) : .accept p i rep ∈ b.trace ∨
    (pc = .replyTake p rep ∧ (b.pdos p).currentIrp = some i) := by
  cases m
  case replyTakeCancelled q rep' j _ hc _ | replyTake q rep' j _ hc _ =>
    rcases List.mem_cons.mp he with he | he
    · cases he
      exact .inr ⟨rfl, hc⟩
    · left
      first
      | exact he
      | (split at he
         · simpa using he
         · exact he)
  case startSetup | nextSetup => exact .inl (by simpa using he)
  all_goals first
    | exact .inl he
    | exact .inl (by simpa using he)

end Moves

namespace Driver

variable {s s' : Driver} {C : Driver → Action → Prop}

/-- A disk that is being destroyed, or was, has no current IRP left to cancel. -/
structure Drained (s : Driver) : Prop where
  drains : ∀ t p, (s.calls t).drains = some p → (s.bus.pdos p).drained = true
  signalled : ∀ p, (s.bus.pdos p).signalled = true → (s.bus.pdos p).drained = true

/-- **A removal is signalled when the current IRP is gone**, in every state reached. -/
theorem drained (h : lts.Reach C s) : s.Drained := by
  refine h.invariant (I := Drained) ?_ fun s a s' hr hi _ hs => ?_
  · refine ⟨?_, ?_⟩
    · rintro t p ⟨⟩
    · rintro p ⟨⟩
  rcases step_moves hs with ⟨t, b', pc', m, rfl⟩ | ⟨m, f, -, rfl⟩ | ⟨e, -, -, rfl⟩
  · have hkeep : ∀ p, (s.bus.pdos p).drained = true → (b'.pdos p).drained = true := by
      intro p hp
      rcases m.drained ((linked hr).new _ (Nat.le_refl _)) with heq | ⟨hd, -⟩
      · exact heq.trans hp
      · exact hd
    refine ⟨?_, ?_⟩
    · refine forall_update (L := fun _ (pc : Pc) => ∀ p, pc.drains = some p →
        (b'.pdos p).drained = true) ?_ fun t₂ _ p hp => hkeep p (hi.drains t₂ p hp)
      intro p hp
      rcases m.drains hp with hp | hp
      · exact hkeep p (hi.drains t p hp)
      · exact hp
    · intro p hp
      rcases m.signalled_of hp with hp | hp
      · exact hkeep p (hi.signalled p hp)
      · exact hkeep p (hi.drains t p hp)
  · exact ⟨hi.1, hi.2⟩
  · exact ⟨hi.1, hi.2⟩

end Driver

end VirtualDisk
