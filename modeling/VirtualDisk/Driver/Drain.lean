import VirtualDisk.Driver.Children
import VirtualDisk.Driver.Requests

/-!
# Driver/Drain — what a removed disk leaves behind

`Bus_DestroyPdo` cancels the current IRP in one PDOLock section and drains the queue after it, and
nothing keeps a routine that passed the test of the device's state from queueing or starting an IRP
later still.  Without such a late arrival every IRP sent to a removed disk is completed: an IRP is
in one place at a time, and a queued one that the drain passes over is being cancelled.
-/

namespace VirtualDisk

open Machinery

variable {t t₂ : Tid} {a : Action} {b b' : Bus} {pc pc' : Pc} {p q : PdoId} {i : IrpId}

/-! ## Places and arrivals -/

namespace Pc

/-- The PDO whose drain loop a thread has finished. -/
def pastDrain : Pc → Option PdoId
  | .destroyUnmap p _ | .destroySignal p _ | .destroyDelete p _ => some p
  | _ => none

@[simp] theorem pastDrain_nextReturn (k : NextCaller) : (nextReturn k).pastDrain = none := by
  cases k <;> rfl

@[simp] theorem pastDrain_destroyReturn (k : DestroyCaller) :
    (destroyReturn k).pastDrain = none := by
  cases k <;> rfl

theorem pastDrain_of_unmapped (h : pc.unmapped = some p) : pc.pastDrain = some p := by
  cases pc <;> first | exact h | cases h

theorem drains_of_unmapped (h : pc.unmapped = some p) : pc.drains = some p := by
  cases pc <;> first | exact h | cases h

end Pc

namespace Moves

/-- An IRP comes to be carried by arriving, or off the PDO's queue. -/
theorem bears_of (m : Moves t b a pc b' pc') (hi : pc'.bears = some (p, i)) :
    pc.bears = some (p, i) ∨ i ∈ (b.pdos p).irpQueue ∨ .arrive p i ∈ b'.trace := by
  cases m
  case callScsi =>
    cases hi
    exact .inr (.inr List.mem_cons_self)
  case nextIrp h =>
    cases hi
    exact .inr (.inl (Bus.mem_of_peekIrp h).1)
  all_goals first
    | exact .inl hi
    | (rw [Pc.bears_nextReturn] at hi; cases hi)
    | (rw [Pc.bears_destroyReturn] at hi; cases hi)
    | cases hi

/-- Events are only added. -/
theorem trace_subset (m : Moves t b a pc b' pc') : b.trace ⊆ b'.trace := by
  intro e he
  cases m
  all_goals first
    | exact he
    | exact List.mem_cons_of_mem _ he
    | exact List.mem_cons_of_mem _ (List.mem_append_right _ he)

/-- **An arrival is recorded** when an IRP that is new enters `Bus_Scsi`. -/
theorem of_arrive (m : Moves t b a pc b' pc') (h : .arrive p i ∈ b'.trace) :
    .arrive p i ∈ b.trace ∨ ∃ srb, a = .call t (.scsi p i srb) ∧ b.exposed p = true ∧
      (b.irps i).arrived = false ∧ pc' = .busScsi p i ∧
      b' = (b.setIrp i fun x => { x with arrived := true, srb }).log (.arrive p i) := by
  cases m
  case callScsi q j srb hq _ hj =>
    rcases List.mem_cons.mp h with heq | h
    · cases heq
      exact .inr ⟨srb, rfl, hq, hj, rfl, rfl⟩
    · exact .inl h
  all_goals
    left
    first
    | exact h
    | simpa using h

/-- **A cancel routine is taken out of a queued IRP** by the thread that goes on to run it, or by
one that takes the IRP. -/
theorem unregisters (m : Moves t b a pc b' pc') (h : (b.irps i).cancelRoutine = some (.csq p))
    (h' : (b'.irps i).cancelRoutine ≠ some (.csq p)) :
    (pc' = .csqCancelIrp p i ∧ (b'.irps i).cancelRoutine = none) ∨
    (∃ q, i ∈ (b.pdos q).irpQueue ∧ (b'.pdos q).irpQueue = (b.pdos q).irpQueue.erase i) ∨
    (∃ q, (b.pdos q).currentIrp = some i) ∨ i ∈ pc.hand := by
  cases m
  case cancelCsq j q _ _ hc =>
    rcases eq_or_ne i j with rfl | hij
    · obtain rfl : q = p := CancelRoutine.csq.inj (Option.some.inj (hc.symm.trans h))
      exact .inl ⟨rfl, by simp⟩
    · exact absurd h (by simpa [hij] using h')
  case cancelNone j _ _ hc | cancelBus j _ _ hc =>
    rcases eq_or_ne i j with rfl | hij
    · cases h.symm.trans hc
    · exact absurd h (by simpa [hij] using h')
  case nextIrp q r k j hj | destroyDrain q k j hj =>
    rcases eq_or_ne i j with rfl | hij
    · exact .inr (.inl ⟨q, (Bus.mem_of_peekIrp hj).1, by simp⟩)
    · exact absurd h (by simpa [hij] using h')
  case replyTakeCancelled q rep j _ hj _ | replyTake q rep j _ hj _ | destroyTake q k j _ hj =>
    rcases eq_or_ne i j with rfl | hij
    · exact .inr (.inr (.inl ⟨q, hj⟩))
    · exact absurd h (by simpa [hij] using h')
  case startInsert q j _ | startSetup q j r | nextSetup q r j k =>
    rcases eq_or_ne i j with rfl | hij
    · exact .inr (.inr (.inr (List.mem_singleton_self _)))
    · exact absurd h (by simpa [hij] using h')
  all_goals
    refine absurd h ?_
    first
    | exact h'
    | (simp [Function.update_apply] at h'; first | exact h' | (split at h' <;> simp_all))

/-- What is completed stays so. -/
theorem completed_subset (m : Moves t b a pc b' pc') (h : i ∈ b.completed) :
    i ∈ b'.completed := by
  simp only [Bus.completed, List.mem_filterMap] at h ⊢
  obtain ⟨e, he, hi⟩ := h
  exact ⟨e, m.trace_subset he, hi⟩

/-- A drain loop ends when no queued IRP can be taken off. -/
theorem pastDrain (m : Moves t b a pc b' pc') (h : pc'.pastDrain = some p) :
    pc.pastDrain = some p ∨
    (b' = b ∧ ∀ i ∈ (b.pdos p).irpQueue, (b.irps i).cancelRoutine = none) := by
  cases m
  case destroyDrainEnd hpeek =>
    cases h
    exact .inr ⟨rfl, by simpa [Bus.peekIrp] using hpeek⟩
  all_goals first
    | exact .inl h
    | (rw [Pc.pastDrain_nextReturn] at h; cases h)
    | (rw [Pc.pastDrain_destroyReturn] at h; cases h)

/-- A complaint leaves the IRPs where they are. -/
theorem complaint (m : Moves t b a pc b' pc')
    (hpc : (∃ i, pc = .busCancelIrp i) ∨ ∃ p i, pc = .startFail p i) :
    pc'.hand = pc.hand ∧ b'.pdos = b.pdos ∧ ∀ i, (b'.irps i).arrived = (b.irps i).arrived := by
  rcases hpc with ⟨j, rfl⟩ | ⟨p, j, rfl⟩ <;> cases m
  all_goals
    refine ⟨rfl, rfl, fun i => ?_⟩
    simp only [Bus.completeIrp_irps, Bus.failIrp_irps, Function.update_apply]
    split <;> simp_all

end Moves

/-! ## An IRP is in one place -/

namespace Driver

variable {s s' : Driver} {C : Driver → Action → Prop}

/-- The ledger of the IRPs on their way: what is completed is left out of it. -/
def live (s : Driver) : Place → List IrpId
  | .done => []
  | k => s.holds k

/-- The ledger after a move, place by place. -/
theorem live_put {c : Place → List IrpId} (hdone : c .done = [])
    (hand : (pc'.hand).Perm (c (.hand t)))
    (hands : ∀ t₂, t₂ ≠ t → ((s.calls t₂).hand).Perm (c (.hand t₂)))
    (queue : ∀ q, ((b'.pdos q).irpQueue).Perm (c (.queue q)))
    (current : ∀ q, ((b'.pdos q).currentIrp.toList).Perm (c (.current q))) :
    ∀ k, ((s.put t (b', pc')).live k).Perm (c k)
  | .hand t₂ => forall_update (L := fun t₂ (pc : Pc) => (pc.hand).Perm (c (.hand t₂))) hand hands t₂
  | .queue q => queue q
  | .current q => current q
  | .done => hdone ▸ .refl _

/-- **The entry of a move, in the ledger of the IRPs on their way**, which every move keeps. -/
theorem within_move (h : Within (fun i => (s.bus.irps i).arrived = true) s.live) (hl : s.Linked)
    (hk : s.Locked) (m : Moves t s.bus a (s.calls t) b' pc') :
    Within (fun i => (b'.irps i).arrived = true) (s.put t (b', pc')).live := by
  have hcurrent : ∀ p, s.live (.current p) = (s.bus.pdos p).currentIrp.toList := fun _ => rfl
  have hhand : s.live (.hand t) = (s.calls t).hand := rfl
  cases m.irpEntry (hl.new _ (Nat.le_refl _)) with
  | keep hh hq hc _ ha =>
    refine h.frame (fun i => by simp [ha]) (live_put rfl ?_ ?_ ?_ ?_)
    all_goals simp [live, holds, Bus.holds, hh, hq, hc]
  | arrive i hi hh hp _ ha =>
    refine (h.receive (i := i) (by simp [hi]) (.hand t)).frame (fun x => (ha x).mpr)
      (live_put (by simp [receive, live]) ?_ ?_ ?_ ?_)
    all_goals simp +contextual [receive, live, holds, Bus.holds, hh, hp]
  | complete i hh hq hc _ ha =>
    have hi : i ∈ s.live (.hand t) := by simp [hhand, hh]
    refine (h.release hi).frame (fun i => by simp [ha])
      (live_put (by simp [release, live]) ?_ ?_ ?_ ?_)
    all_goals simp +contextual [release, live, holds, Bus.holds, hh, hq, hc]
  | enqueue p i hh hq hc _ ha =>
    have hi : i ∈ s.live (.hand t) := by simp [hhand, hh]
    refine (h.transfer hi (.queue p)).frame (fun i => by simp [ha])
      (live_put (by simp [transfer, receive, release, live]) ?_ ?_ ?_ ?_)
    all_goals simp +contextual [transfer, receive, release, live, holds, Bus.holds, hh, hq, hc]
    intro q
    split
    · exact List.perm_append_singleton _ _
    · exact .refl _
  | dequeue p i hh hi hq hc _ ha =>
    have hi : i ∈ s.live (.queue p) := hi
    refine (h.transfer hi (.hand t)).frame (fun i => by simp [ha])
      (live_put (by simp [transfer, receive, release, live]) ?_ ?_ ?_ ?_)
    all_goals simp +contextual [transfer, receive, release, live, holds, Bus.holds, hh, hq, hc]
  | start p i hh ht hq hc _ ha =>
    have hi : i ∈ s.live (.hand t) := by simp [hhand, hh]
    have hp : (s.bus.pdos p).currentIrp = none := hk.tested t p ht
    refine (h.transfer hi (.current p)).frame (fun i => by simp [ha])
      (live_put (by simp [transfer, receive, release, live]) ?_ ?_ ?_ ?_)
    all_goals simp +contextual [transfer, receive, release, live, holds, Bus.holds, hh, hq, hc, hp]
    intro q
    split <;> simp
  | take p i hh hi hq hc _ ha =>
    have hmem : i ∈ s.live (.current p) := by simp [hcurrent, hi]
    refine (h.transfer hmem (.hand t)).frame (fun i => by simp [ha])
      (live_put (by simp [transfer, receive, release, live]) ?_ ?_ ?_ ?_)
    all_goals simp +contextual [transfer, receive, release, live, holds, Bus.holds, hh, hq, hc, hi]
    intro q
    split <;> simp
  | cancel p i _ hh hq hc _ ha =>
    by_cases hi : i ∈ s.live (.queue p)
    · refine (h.release hi).frame (fun i => by simp [ha])
        (live_put (by simp [release, live]) ?_ ?_ ?_ ?_)
      all_goals simp +contextual [release, live, holds, Bus.holds, hh, hq, hc]
    · have hnot : i ∉ (s.bus.pdos p).irpQueue := hi
      refine h.frame (fun i => by simp [ha]) (live_put rfl ?_ ?_ ?_ ?_)
      all_goals simp [live, holds, Bus.holds, hh, hq, hc]
      intro q
      split
      · next hqp => rw [hqp, List.erase_of_not_mem hnot]
      · exact .refl _
  | complain hpc =>
    obtain ⟨hh, hpdos, ha⟩ := m.complaint hpc
    refine h.frame (fun i => by simp [ha]) (live_put rfl ?_ ?_ ?_ ?_)
    all_goals simp [live, holds, Bus.holds, hh, hpdos]

/-- An IRP on its way is in one place, and a queued one can be taken off or is being cancelled. -/
structure Placed (s : Driver) : Prop where
  ledger : Within (fun i => (s.bus.irps i).arrived = true) s.live
  queued : ∀ p, ∀ i ∈ (s.bus.pdos p).irpQueue, (s.bus.irps i).cancelRoutine = some (.csq p) ∨
    ((s.bus.irps i).cancelRoutine = none ∧ ∃ t, s.calls t = .csqCancelIrp p i)

/-- A queued IRP is in no hands. -/
theorem Placed.not_mem_hand (h : s.Placed) (hi : i ∈ (s.bus.pdos p).irpQueue) :
    i ∉ (s.calls t).hand := by
  intro hh
  have hqueue : i ∈ s.live (.queue p) := hi
  have hhand : i ∈ s.live (.hand t) := hh
  cases h.ledger.unique hqueue hhand

/-- An IRP being cancelled goes off its queue. -/
theorem Placed.cancelled (h : s.Placed) (m : Moves t s.bus a (.csqCancelIrp p i) b' pc') :
    i ∉ (b'.pdos p).irpQueue := by
  have hnodup : (s.bus.pdos p).irpQueue.Nodup := h.ledger.nodup (.queue p)
  cases m
  simpa using hnodup.not_mem_erase

/-- **A move keeps the places.** -/
theorem Placed.move (h : s.Placed) (hl : s.Linked) (hk : s.Locked)
    (m : Moves t s.bus a (s.calls t) b' pc') : (s.put t (b', pc')).Placed where
  ledger := within_move h.ledger hl hk m
  queued p i hi := by
    have hi : i ∈ (b'.pdos p).irpQueue := hi
    rcases m.enqueues hi with hmem | ⟨-, -, hreg⟩
    · have hcancel : ∀ t₀, s.calls t₀ = .csqCancelIrp p i →
          (s.put t (b', pc')).calls t₀ = .csqCancelIrp p i := by
        intro t₀ ht₀
        rcases eq_or_ne t₀ t with rfl | hne
        · rw [ht₀] at m
          exact absurd hi (h.cancelled m)
        · exact (put_calls_of_ne s hne _).trans ht₀
      rcases h.queued p i hmem with hreg | ⟨hnone, t₀, ht₀⟩
      · by_cases hkeep : (b'.irps i).cancelRoutine = some (.csq p)
        · exact .inl hkeep
        · rcases m.unregisters hreg hkeep with ⟨hpc, hnone⟩ | ⟨q, hq, hq'⟩ | ⟨q, hq⟩ | hhand
          · exact .inr ⟨hnone, t, (put_calls_self s t _).trans hpc⟩
          · have hlive : i ∈ s.live (.queue q) := hq
            obtain rfl := Place.queue.inj (h.ledger.unique (k := .queue p) hmem hlive)
            rw [hq'] at hi
            have hnodup : (s.bus.pdos p).irpQueue.Nodup := h.ledger.nodup (.queue p)
            exact absurd hi hnodup.not_mem_erase
          · have hcur : i ∈ s.live (.current q) := by simp [live, holds, Bus.holds, hq]
            cases h.ledger.unique (k := .queue p) hmem hcur
          · exact absurd hhand (h.not_mem_hand hmem)
      · refine .inr ⟨?_, t₀, hcancel t₀ ht₀⟩
        rcases m.registers (i := i) with heq | hnone' | ⟨hhand, -⟩
        · exact heq.trans hnone
        · exact hnone'
        · exact absurd hhand (h.not_mem_hand hmem)
    · exact .inl hreg

/-- **The places, in every state reached.** -/
theorem placed (h : lts.Reach C s) : s.Placed := by
  refine h.invariant (I := Placed) ?_ fun s a s' hr hi _ hs => ?_
  · refine ⟨.empty ?_, fun p i hi => ?_⟩
    · rintro (t | p | p | _) <;> rfl
    · cases hi
  · rcases step_moves hs with ⟨t, b', pc', m, rfl⟩ | ⟨m, f, -, rfl⟩ | ⟨e, -, -, rfl⟩
    · exact hi.move (linked hr) (locked hr) m
    · exact ⟨hi.1, hi.2⟩
    · exact ⟨hi.1, hi.2⟩

/-! ## Where the IRPs of a disk are -/

/-- An IRP sent to a disk stays with this disk until it is completed. -/
structure Sent (s : Driver) : Prop where
  arrived : ∀ p i, .arrive p i ∈ s.bus.trace → (s.bus.irps i).arrived = true
  once : ∀ p q i, .arrive p i ∈ s.bus.trace → .arrive q i ∈ s.bus.trace → p = q
  carried : ∀ t p i, (s.calls t).bears = some (p, i) → .arrive p i ∈ s.bus.trace
  queued : ∀ p, ∀ i ∈ (s.bus.pdos p).irpQueue, .arrive p i ∈ s.bus.trace
  current : ∀ p i, (s.bus.pdos p).currentIrp = some i → .arrive p i ∈ s.bus.trace
  covered : ∀ i, (s.bus.irps i).arrived = true → ∃ k, i ∈ s.holds k

/-- An IRP that a move leaves alone stays where it is. -/
theorem mem_holds_put {k : Place} (hi : i ∈ s.holds k)
    (hand : i ∈ (s.calls t).hand → i ∈ pc'.hand)
    (queue : ∀ q, i ∈ (s.bus.pdos q).irpQueue → i ∈ (b'.pdos q).irpQueue)
    (current : ∀ q, (s.bus.pdos q).currentIrp = some i → (b'.pdos q).currentIrp = some i)
    (done : i ∈ s.bus.completed → i ∈ b'.completed) : i ∈ (s.put t (b', pc')).holds k := by
  cases k with
  | hand t₂ =>
    show i ∈ ((s.put t (b', pc')).calls t₂).hand
    rcases eq_or_ne t₂ t with rfl | hne
    · rw [put_calls_self]
      exact hand hi
    · rw [put_calls_of_ne s hne]
      exact hi
  | queue q => exact queue q hi
  | current q => exact Option.mem_toList.mpr (current q (Option.mem_toList.mp hi))
  | done => exact done hi

/-- **A move loses no IRP.** -/
theorem Sent.covered_move (h : s.Sent) (hl : s.Linked) (hk : s.Locked)
    (m : Moves t s.bus a (s.calls t) b' pc') (hi : (b'.irps i).arrived = true) :
    ∃ k, i ∈ (s.put t (b', pc')).holds k := by
  have hhand : i ∈ pc'.hand → ∃ k, i ∈ (s.put t (b', pc')).holds k := fun hmem =>
    ⟨.hand t, by simpa [holds, Bus.holds] using hmem⟩
  cases m.irpEntry (hl.new _ (Nat.le_refl _)) with
  | keep hh hq hc hd ha =>
    obtain ⟨k, hmem⟩ := h.covered i ((ha i).symm.trans hi)
    exact ⟨k, mem_holds_put hmem (by simp [hh]) (by simp [hq]) (by simp [hc]) (by simp [hd])⟩
  | arrive j _ hh hp hd ha =>
    rcases (ha i).mp hi with rfl | hold
    · exact hhand (by simp [hh])
    · obtain ⟨k, hmem⟩ := h.covered i hold
      exact ⟨k, mem_holds_put hmem (by simp [hh]) (by simp [hp]) (by simp [hp]) (by simp [hd])⟩
  | complete j hh hq hc hd ha =>
    obtain ⟨k, hmem⟩ := h.covered i ((ha i).symm.trans hi)
    rcases eq_or_ne i j with rfl | hij
    · exact ⟨.done, by simp [holds, Bus.holds, hd]⟩
    · exact ⟨k, mem_holds_put hmem (by simp [hh, hij]) (by simp [hq]) (by simp [hc])
        (by simp +contextual [hd])⟩
  | enqueue p j hh hq hc hd ha =>
    obtain ⟨k, hmem⟩ := h.covered i ((ha i).symm.trans hi)
    rcases eq_or_ne i j with rfl | hij
    · exact ⟨.queue p, by simp [holds, Bus.holds, hq]⟩
    · refine ⟨k, mem_holds_put hmem (by simp [hh, hij]) ?_ (by simp [hc]) (by simp [hd])⟩
      intro q hmem
      rw [hq]
      split
      · exact List.mem_append_left _ hmem
      · exact hmem
  | dequeue p j hh _ hq hc hd ha =>
    obtain ⟨k, hmem⟩ := h.covered i ((ha i).symm.trans hi)
    rcases eq_or_ne i j with rfl | hij
    · exact hhand (by simp [hh])
    · refine ⟨k, mem_holds_put hmem (by simp [hh]) ?_ (by simp [hc]) (by simp [hd])⟩
      intro q hmem
      rw [hq]
      split
      · exact (List.mem_erase_of_ne hij).mpr hmem
      · exact hmem
  | start p j hh ht hq hc hd ha =>
    obtain ⟨k, hmem⟩ := h.covered i ((ha i).symm.trans hi)
    rcases eq_or_ne i j with rfl | hij
    · exact ⟨.current p, by simp [holds, Bus.holds, hc]⟩
    · refine ⟨k, mem_holds_put hmem (by simp [hh, hij]) (by simp [hq]) ?_ (by simp [hd])⟩
      intro q hcur
      have hqp : q ≠ p := by
        rintro rfl
        cases hcur.symm.trans (hk.tested t q ht)
      rwa [hc, if_neg hqp]
  | take p j hh hj hq hc hd ha =>
    obtain ⟨k, hmem⟩ := h.covered i ((ha i).symm.trans hi)
    rcases eq_or_ne i j with rfl | hij
    · exact hhand (by simp [hh])
    · refine ⟨k, mem_holds_put hmem (by simp [hh]) (by simp [hq]) ?_ (by simp [hd])⟩
      intro q hcur
      have hqp : q ≠ p := by
        rintro rfl
        exact hij (Option.some.inj (hcur.symm.trans hj))
      rwa [hc, if_neg hqp]
  | cancel p j hpc hh hq hc hd ha =>
    obtain ⟨k, hmem⟩ := h.covered i ((ha i).symm.trans hi)
    rcases eq_or_ne i j with rfl | hij
    · exact ⟨.done, by simp [holds, Bus.holds, hd]⟩
    · refine ⟨k, mem_holds_put hmem (by simp [hh]) ?_ (by simp [hc]) (by simp +contextual [hd])⟩
      intro q hmem
      rw [hq]
      split
      · exact (List.mem_erase_of_ne hij).mpr hmem
      · exact hmem
  | complain hpc =>
    obtain ⟨hh, hpdos, ha⟩ := m.complaint hpc
    obtain ⟨k, hmem⟩ := h.covered i ((ha i).symm.trans hi)
    exact ⟨k, mem_holds_put hmem (by simp [hh]) (by simp [hpdos]) (by simp [hpdos])
      m.completed_subset⟩

/-- **A move keeps the IRPs with their disks.** -/
theorem Sent.move (h : s.Sent) (hl : s.Linked) (hk : s.Locked)
    (m : Moves t s.bus a (s.calls t) b' pc') : (s.put t (b', pc')).Sent where
  arrived p i hi := by
    rcases m.of_arrive hi with hold | ⟨srb, -, -, -, -, rfl⟩
    · exact (m.cdb (h.arrived p i hold)).1
    · simp
  once p q i hp hq := by
    rcases m.of_arrive hp with hpold | ⟨-, -, -, hno, hpnew, -⟩
    · rcases m.of_arrive hq with hqold | ⟨-, -, -, hno, -, -⟩
      · exact h.once p q i hpold hqold
      · exact absurd ((h.arrived p i hpold).symm.trans hno) (by simp)
    · rcases m.of_arrive hq with hqold | ⟨-, -, -, -, hqnew, -⟩
      · exact absurd ((h.arrived q i hqold).symm.trans hno) (by simp)
      · cases hpnew.symm.trans hqnew
        rfl
  carried := by
    refine forall_update (L := fun _ (pc : Pc) => ∀ p i, pc.bears = some (p, i) →
      .arrive p i ∈ b'.trace) ?_ fun t₂ _ p i ht₂ => m.trace_subset (h.carried t₂ p i ht₂)
    intro p i hpc
    rcases m.bears_of hpc with hpc | hmem | hnew
    · exact m.trace_subset (h.carried t p i hpc)
    · exact m.trace_subset (h.queued p i hmem)
    · exact hnew
  queued p i hi := by
    rcases m.enqueues hi with hmem | ⟨hpc, -, -⟩
    · exact m.trace_subset (h.queued p i hmem)
    · exact m.trace_subset (h.carried t p i (by rw [hpc]; rfl))
  current p i hi := by
    rcases m.starts_current hi with hcur | hpc
    · exact m.trace_subset (h.current p i hcur)
    · exact m.trace_subset (h.carried t p i hpc)
  covered i hi := h.covered_move hl hk m hi

/-- **The IRPs are with their disks**, in every state reached. -/
theorem sent (h : lts.Reach C s) : s.Sent := by
  refine h.invariant (I := Sent) ?_ fun s a s' hr hi _ hs => ?_
  · refine ⟨?_, ?_, ?_, ?_, ?_, ?_⟩
    · intro p i hi
      cases hi
    · intro p q i hi
      cases hi
    · intro t p i hi
      cases hi
    · intro p i hi
      cases hi
    · intro p i hi
      cases hi
    · intro i hi
      cases hi
  · rcases step_moves hs with ⟨t, b', pc', m, rfl⟩ | ⟨m, f, -, rfl⟩ | ⟨e, -, -, rfl⟩
    · exact hi.move (linked hr) (locked hr) m
    · exact ⟨hi.1, hi.2, hi.3, hi.4, hi.5, hi.6⟩
    · exact ⟨hi.1, hi.2, hi.3, hi.4, hi.5, hi.6⟩

/-! ## The drain -/

/-- The drain loop of the disk's `Bus_DestroyPdo` has ended. -/
def PastDrain (s : Driver) (p : PdoId) : Prop :=
  (s.bus.pdos p).deleted = true ∨ ∃ t, (s.calls t).pastDrain = some p

/-- **No late IRP**: none is queued on a disk whose drain loop has ended, and none is started on a
disk once `Bus_DestroyPdo` is past the section in which it cancels the current IRP. -/
def NoLateIrp (s : Driver) (a : Action) : Prop :=
  s.NoLateStart a ∧ ∀ t ok, a = .step t ok → ∀ p i, s.calls t = .startInsert p i →
    (s.bus.irps i).cancel = false → ¬ s.PastDrain p

/-- **What is left on a drained queue** is being cancelled; and a deleted disk is drained. -/
structure Exhausted (s : Driver) : Prop where
  left : ∀ p, s.PastDrain p → ∀ i ∈ (s.bus.pdos p).irpQueue, ∃ t, s.calls t = .csqCancelIrp p i
  deleted : ∀ p, (s.bus.pdos p).deleted = true → (s.bus.pdos p).drained = true

/-- **A move that brings no late IRP leaves none on a drained queue.** -/
theorem Exhausted.move (h : s.Exhausted) (hl : s.Linked) (hp : s.Placed) (hd : s.Drained)
    (hC : s.NoLateIrp a) (m : Moves t s.bus a (s.calls t) b' pc') :
    (s.put t (b', pc')).Exhausted where
  left p hpast i hi := by
    have hi : i ∈ (b'.pdos p).irpQueue := hi
    have hnew := hl.new _ (Nat.le_refl _)
    -- a thread that cancels the IRP goes on to do so
    have hcancel : ∀ t₀, s.calls t₀ = .csqCancelIrp p i →
        ∃ t₁, (s.put t (b', pc')).calls t₁ = .csqCancelIrp p i := by
      intro t₀ ht₀
      refine ⟨t₀, ?_⟩
      rcases eq_or_ne t₀ t with rfl | hne
      · rw [ht₀] at m
        exact absurd hi (hp.cancelled m)
      · exact (put_calls_of_ne s hne _).trans ht₀
    have hbefore : s.PastDrain p → ∃ t₁, (s.put t (b', pc')).calls t₁ = .csqCancelIrp p i := by
      intro hpast
      rcases m.enqueues hi with hmem | ⟨hpc, hc, -⟩
      · obtain ⟨t₀, ht₀⟩ := h.left p hpast i hmem
        exact hcancel t₀ ht₀
      · obtain ⟨ok, rfl⟩ := m.isStep (by rw [hpc]; rfl)
        exact absurd hpast (hC.2 t ok rfl p i hpc hc)
    rcases hpast with hdel | ⟨t₁, ht₁⟩
    · rcases m.deleted hnew with heq | hun
      · exact hbefore (.inl (heq.symm.trans hdel))
      · exact hbefore (.inr ⟨t, Pc.pastDrain_of_unmapped hun⟩)
    · rcases eq_or_ne t₁ t with rfl | hne
      · rw [put_calls_self] at ht₁
        rcases m.pastDrain ht₁ with hpc | ⟨rfl, hnone⟩
        · exact hbefore (.inr ⟨_, hpc⟩)
        · rcases hp.queued p i hi with hreg | ⟨-, t₀, ht₀⟩
          · cases hreg.symm.trans (hnone i hi)
          · exact hcancel t₀ ht₀
      · rw [put_calls_of_ne s hne] at ht₁
        exact hbefore (.inr ⟨t₁, ht₁⟩)
  deleted p hdel := by
    have hnew := hl.new _ (Nat.le_refl _)
    have hold : (s.bus.pdos p).drained = true := by
      rcases m.deleted hnew with heq | hun
      · exact h.deleted p (heq.symm.trans hdel)
      · exact hd.drains t p (Pc.drains_of_unmapped hun)
    rcases m.drained hnew with heq | ⟨hd', -⟩
    · exact heq.trans hold
    · exact hd'

/-- The drained queues, in every run without late IRPs. -/
theorem exhausted (h : lts.Reach NoLateIrp s) : s.Exhausted := by
  refine h.invariant (I := Exhausted) ?_ fun s a s' hr hi hC hs => ?_
  · refine ⟨fun p _ i hi => ?_, fun p hp => ?_⟩
    · cases hi
    · cases hp
  · rcases step_moves hs with ⟨t, b', pc', m, rfl⟩ | ⟨m, f, -, rfl⟩ | ⟨e, -, -, rfl⟩
    · exact hi.move (linked hr) (placed hr) (drained hr) hC m
    · exact ⟨hi.1, hi.2⟩
    · exact ⟨hi.1, hi.2⟩

/-! ## No I/O is lost -/

/-- No routine is under way on the disk, or has one of its IRPs in hand. -/
def Quiet (s : Driver) (p : PdoId) : Prop :=
  ∀ t, p ∉ (s.calls t).mentions ∧ ∀ i ∈ (s.calls t).hand, .arrive p i ∉ s.bus.trace

/-- **No I/O is lost**: once a disk is destroyed and every routine on it has ended, its queue is
empty, it has no current IRP, and every IRP sent to it is completed. -/
structure NothingLost (s : Driver) : Prop where
  queue : ∀ p, (s.bus.pdos p).deleted = true → s.Quiet p → (s.bus.pdos p).irpQueue = []
  current : ∀ p, (s.bus.pdos p).deleted = true → s.Quiet p → (s.bus.pdos p).currentIrp = none
  completed : ∀ p, (s.bus.pdos p).deleted = true → s.Quiet p →
    ∀ i, .arrive p i ∈ s.bus.trace → i ∈ s.bus.completed

/-- **No I/O is lost at the removal of a disk**, in every run without late IRPs. -/
theorem nothing_lost (h : lts.Reach NoLateIrp s) : s.NothingLost := by
  have hqueue : ∀ p, (s.bus.pdos p).deleted = true → s.Quiet p →
      (s.bus.pdos p).irpQueue = [] := by
    intro p hd hq
    refine List.eq_nil_iff_forall_not_mem.mpr fun i hi => ?_
    obtain ⟨t, ht⟩ := (exhausted h).left p (.inl hd) i hi
    exact (hq t).1 (by simp [ht, Pc.mentions])
  have hcurrent : ∀ p, (s.bus.pdos p).deleted = true → (s.bus.pdos p).currentIrp = none :=
    fun p hd => (serial (h.mono fun _ _ _ _ hC => hC.1) p).idle ((exhausted h).deleted p hd)
  refine ⟨hqueue, fun p hd _ => hcurrent p hd, fun p hd hq i hi => ?_⟩
  obtain ⟨k, hk⟩ := (sent h).covered i ((sent h).arrived p i hi)
  cases k with
  | hand t => exact absurd hi ((hq t).2 i hk)
  | queue q =>
    obtain rfl := (sent h).once p q i hi ((sent h).queued q i hk)
    have hk : i ∈ (s.bus.pdos p).irpQueue := hk
    rw [hqueue p hd hq] at hk
    cases hk
  | current q =>
    have hk : (s.bus.pdos q).currentIrp = some i := Option.mem_toList.mp hk
    obtain rfl := (sent h).once p q i hi ((sent h).current q i hk)
    cases (hcurrent p hd).symm.trans hk
  | done => exact hk

/-- A disk removed with one IRP current and one queued: both are completed. -/
theorem nothing_lost_removed :
    ∃ s, lts.Reach NoLateIrp s ∧
      ((s.bus.pdos 0).deleted = true ∧ s.bus.completed = [1, 0]) ∧ s.NothingLost := by
  obtain ⟨s, hs, hlast⟩ := lts.exists_reach
    (C := fun s a => a.onlyBy [.sys 0] = true ∧
      (∀ p, (s.calls (.sys 0)).starts = some p → (s.bus.pdos p).drained = false) ∧
      ∀ p i, s.calls (.sys 0) = .startInsert p i → (s.bus.pdos p).deleted = false)
    (c := fun s a => a.onlyBy [.sys 0] &&
      ((s.calls (.sys 0)).starts.all fun p => !(s.bus.pdos p).drained) &&
      (s.calls (.sys 0)).bears.all fun x => !(s.bus.pdos x.1).deleted)
    (by
      intro s a ha
      obtain ⟨⟨hby, hstart⟩, hpc⟩ : (_ ∧ _) ∧ _ := by simpa only [Bool.and_eq_true] using ha
      refine ⟨hby, fun p hp => by simpa [hp] using hstart, fun p i hp => ?_⟩
      simpa [hp, Pc.bears] using hpc)
    (startedRun ++ routine (.sys 0) (.scsi 0 1 readSrb) 6 ++
      routine (.sys 0) (.pdoPnp 0 .eject) 1 ++ routine (.sys 0) (.queryRelations none) 2 ++
      routine (.sys 0) (.pdoRemove 0) 12)
    (fun s => (s.bus.pdos 0).deleted = true ∧ s.bus.completed = [1, 0]) (by decide +kernel)
  have hlate : lts.Reach NoLateIrp s := by
    refine hs.mono fun s a hr _ ha => ?_
    obtain ⟨hby, hstart, hinsert⟩ := ha
    have hthread : ∀ t ok, a = .step t ok → t = .sys 0 := by
      rintro t ok rfl
      simpa [Action.onlyBy, Action.thread] using hby
    constructor
    · rcases a with _ | ⟨t, _ | _⟩ | _ | _ | _ | _ | _
      case step.true => exact hthread t true rfl ▸ hstart
      all_goals trivial
    · intro t ok ha p i hpc _
      obtain rfl := hthread t ok ha
      rintro (hdel | ⟨t₂, ht₂⟩)
      · exact absurd ((hinsert p i hpc).symm.trans hdel) (by simp)
      · rcases eq_or_ne t₂ (.sys 0) with rfl | hne
        · rw [hpc] at ht₂
          cases ht₂
        · rw [idle_of_onlyBy hr (fun _ _ h => h.1) t₂ (by simpa using hne)] at ht₂
          cases ht₂
  exact ⟨s, hlate, hlast, nothing_lost hlate⟩

/-- **An IRP is queued on a disk that is gone**: its `Bus_Scsi` passed the test of the device's
state before the removal, and queues it when the drain is over. -/
theorem not_nothing_lost : ¬ ∀ s, lts.Reachable s → s.NothingLost := by
  intro h
  obtain ⟨s, hs, hdel, hqueue, h₀, h₁⟩ := lts.exists_reach
    (C := fun _ a => a.onlyBy [.sys 0, .sys 1] = true)
    (c := fun _ a => a.onlyBy [.sys 0, .sys 1]) (fun _ _ h => h)
    (routine (.sys 0) (.addDisk (smallDisk 1 0)) 3 ++ routine (.sys 0) (.pdoPnp 0 .eject) 1 ++
      routine (.sys 0) (.queryRelations none) 2 ++
      .call (.sys 1) (.scsi 0 0 readSrb) :: steps (.sys 1) 2 ++
      routine (.sys 0) (.pdoRemove 0) 9 ++ steps (.sys 1) 5 ++ [.leave (.sys 1)])
    (fun s => (s.bus.pdos 0).deleted = true ∧ (s.bus.pdos 0).irpQueue = [0] ∧
      ((s.calls (.sys 0)).mentions = [] ∧ (s.calls (.sys 0)).hand = []) ∧
      (s.calls (.sys 1)).mentions = [] ∧ (s.calls (.sys 1)).hand = [])
    (by decide +kernel)
  have hquiet : s.Quiet 0 := by
    have hnone : ∀ t, (s.calls t).mentions = [] ∧ (s.calls t).hand = [] := by
      intro t
      by_cases hmem : t ∈ [Tid.sys 0, .sys 1]
      · rcases List.mem_cons.mp hmem with rfl | hmem
        · exact h₀
        · rw [List.mem_singleton.mp hmem]
          exact h₁
      · rw [idle_of_onlyBy hs (fun _ _ h => h) t hmem]
        exact ⟨rfl, rfl⟩
    intro t
    obtain ⟨hm, hh⟩ := hnone t
    simp [hm, hh]
  have hnil := (h s hs.reachable).queue 0 hdel hquiet
  rw [hqueue] at hnil
  cases hnil

end Driver

end VirtualDisk
