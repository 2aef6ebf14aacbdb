import VirtualDisk.Machinery.Ledger
import VirtualDisk.Driver.Locks

/-!
# Driver/Ownership — where an IRP is, and how often it is completed

A READ or WRITE IRP is in one place at a time: in the hands of a routine in progress, on a disk's
`IrpQueue`, as a disk's `CurrentIrp`, or completed.  Every routine of the driver makes entries in
this ledger, with two exceptions.  `Bus_CancelIrp` completes an IRP that stays `CurrentIrp`, and
`BusStartPacket` completes the IRP of its caller when it cannot take the remove lock, after which
`Bus_Scsi` completes it again.
-/

namespace VirtualDisk

open Machinery

variable {t : Tid} {a : Action} {b b' : Bus} {pc pc' : Pc} {p q : PdoId} {i : IrpId}

/-! ## The ledger -/

/-- Where an IRP can be. -/
inductive Place
  | hand (t : Tid)
  | queue (p : PdoId)
  | current (p : PdoId)
  | done
  deriving DecidableEq

/-- The IRP a thread has taken and not yet put anywhere. -/
def Pc.hand : Pc → List IrpId
  | .busScsi _ i | .scsiAcquire _ i => [i]
  | .scsiEnd _ i status => if status = statusPending then [] else [i]
  | .startPacket _ i | .startRequest _ i | .startInsert _ i | .startSetup _ i _ => [i]
  | .startFail _ i => [i]
  | .nextSetup _ _ i _ | .nextFail i _ => [i]
  | .replyComplete _ i => [i]
  | .crash irp => irp.toList
  | .destroyComplete _ i _ | .destroyDrained _ i _ => [i]
  | _ => []

@[simp] theorem Pc.hand_nextReturn (k : NextCaller) : (nextReturn k).hand = [] := by
  cases k <;> rfl

@[simp] theorem Pc.hand_destroyReturn (k : DestroyCaller) : (destroyReturn k).hand = [] := by
  cases k <;> rfl

/-- What is in each place, given what the threads have in hand. -/
def Bus.holds (b : Bus) (hands : Tid → List IrpId) : Place → List IrpId
  | .hand t => hands t
  | .queue p => (b.pdos p).irpQueue
  | .current p => (b.pdos p).currentIrp.toList
  | .done => b.completed

/-- **The ledger of the IRPs.** -/
def Driver.holds (s : Driver) : Place → List IrpId := s.bus.holds fun t => (s.calls t).hand

/-! ## The entries -/

/-- **What a move does to the IRPs**: it keeps each where it is, takes in a new one, or takes one
from one place to another. -/
inductive IrpEntry (b : Bus) (pc : Pc) (b' : Bus) (pc' : Pc) : Prop
  | keep (hand : pc'.hand = pc.hand)
      (queue : ∀ q, (b'.pdos q).irpQueue = (b.pdos q).irpQueue)
      (current : ∀ q, (b'.pdos q).currentIrp = (b.pdos q).currentIrp)
      (done : b'.completed = b.completed) (arrived : ∀ i, (b'.irps i).arrived = (b.irps i).arrived)
  | arrive (i : IrpId) (new : (b.irps i).arrived = false)
      (hand : pc.hand = [] ∧ pc'.hand = [i]) (pdos : b'.pdos = b.pdos)
      (done : b'.completed = b.completed)
      (arrived : ∀ x, (b'.irps x).arrived = true ↔ x = i ∨ (b.irps x).arrived = true)
  | complete (i : IrpId) (hand : pc.hand = [i] ∧ pc'.hand = [])
      (queue : ∀ q, (b'.pdos q).irpQueue = (b.pdos q).irpQueue)
      (current : ∀ q, (b'.pdos q).currentIrp = (b.pdos q).currentIrp)
      (done : b'.completed = i :: b.completed)
      (arrived : ∀ i, (b'.irps i).arrived = (b.irps i).arrived)
  | enqueue (p : PdoId) (i : IrpId) (hand : pc.hand = [i] ∧ pc'.hand = [])
      (queue : ∀ q, (b'.pdos q).irpQueue =
        if q = p then (b.pdos q).irpQueue ++ [i] else (b.pdos q).irpQueue)
      (current : ∀ q, (b'.pdos q).currentIrp = (b.pdos q).currentIrp)
      (done : b'.completed = b.completed) (arrived : ∀ i, (b'.irps i).arrived = (b.irps i).arrived)
  | dequeue (p : PdoId) (i : IrpId) (hand : pc.hand = [] ∧ pc'.hand = [i])
      (mem : i ∈ (b.pdos p).irpQueue)
      (queue : ∀ q, (b'.pdos q).irpQueue =
        if q = p then (b.pdos q).irpQueue.erase i else (b.pdos q).irpQueue)
      (current : ∀ q, (b'.pdos q).currentIrp = (b.pdos q).currentIrp)
      (done : b'.completed = b.completed) (arrived : ∀ i, (b'.irps i).arrived = (b.irps i).arrived)
  | start (p : PdoId) (i : IrpId) (hand : pc.hand = [i] ∧ pc'.hand = [])
      (tested : pc.tested = some p)
      (queue : ∀ q, (b'.pdos q).irpQueue = (b.pdos q).irpQueue)
      (current : ∀ q, (b'.pdos q).currentIrp =
        if q = p then some i else (b.pdos q).currentIrp)
      (done : b'.completed = b.completed) (arrived : ∀ i, (b'.irps i).arrived = (b.irps i).arrived)
  | take (p : PdoId) (i : IrpId) (hand : pc.hand = [] ∧ pc'.hand = [i])
      (mem : (b.pdos p).currentIrp = some i)
      (queue : ∀ q, (b'.pdos q).irpQueue = (b.pdos q).irpQueue)
      (current : ∀ q, (b'.pdos q).currentIrp =
        if q = p then none else (b.pdos q).currentIrp)
      (done : b'.completed = b.completed) (arrived : ∀ i, (b'.irps i).arrived = (b.irps i).arrived)
  | cancel (p : PdoId) (i : IrpId) (cancels : pc = .csqCancelIrp p i)
      (hand : pc'.hand = pc.hand)
      (queue : ∀ q, (b'.pdos q).irpQueue =
        if q = p then (b.pdos q).irpQueue.erase i else (b.pdos q).irpQueue)
      (current : ∀ q, (b'.pdos q).currentIrp = (b.pdos q).currentIrp)
      (done : b'.completed = i :: b.completed)
      (arrived : ∀ i, (b'.irps i).arrived = (b.irps i).arrived)
  | complain (hpc : (∃ i, pc = .busCancelIrp i) ∨ ∃ p i, pc = .startFail p i)

theorem Bus.mem_of_peekIrp (h : b.peekIrp p = some i) :
    i ∈ (b.pdos p).irpQueue ∧ (b.irps i).cancelRoutine.isSome = true :=
  ⟨List.mem_of_find?_eq_some h, by simpa using List.find?_some h⟩

/-- **Every move makes one entry.** -/
theorem Moves.irpEntry (m : Moves t b a pc b' pc') (hnew : b.pdos b.pdoCount = {}) :
    IrpEntry b pc b' pc' := by
  cases m
  case callScsi p i srb _ _ hi =>
    refine .arrive i hi ⟨rfl, rfl⟩ rfl rfl fun x => ?_
    simp only [Bus.log_irps, Bus.setIrp_irps, Function.update_apply]
    split <;> simp_all
  case startFail p i => exact .complain (.inr ⟨p, i, rfl⟩)
  case busCancelIrp i => exact .complain (.inl ⟨i, rfl⟩)
  case' scsiAcquireFailed p i => refine .complete i ⟨rfl, rfl⟩ ?_ ?_ rfl ?_
  case' scsiEnd p i status h => refine .complete i ⟨if_neg h, rfl⟩ ?_ ?_ rfl ?_
  case' startInsertCancelled p i h => refine .complete i ⟨rfl, rfl⟩ ?_ ?_ rfl ?_
  case' nextFail i k => refine .complete i ⟨rfl, Pc.hand_nextReturn k⟩ ?_ ?_ rfl ?_
  case' replyComplete p i => refine .complete i ⟨rfl, rfl⟩ ?_ ?_ rfl ?_
  case' destroyComplete p i k => refine .complete i ⟨rfl, rfl⟩ ?_ ?_ rfl ?_
  case' destroyDrained p i k => refine .complete i ⟨rfl, rfl⟩ ?_ ?_ rfl ?_
  case' startInsert p i h => refine .enqueue p i ⟨rfl, rfl⟩ ?_ ?_ rfl ?_
  case' nextIrp p r k i h =>
    refine .dequeue p i ⟨rfl, rfl⟩ (Bus.mem_of_peekIrp h).1 ?_ ?_ rfl ?_
  case' destroyDrain p k i h =>
    refine .dequeue p i ⟨rfl, rfl⟩ (Bus.mem_of_peekIrp h).1 ?_ ?_ rfl ?_
  case' startSetup p i r => refine .start p i ⟨rfl, rfl⟩ rfl ?_ ?_ ?_ ?_
  case' nextSetup p r i k => refine .start p i ⟨rfl, rfl⟩ rfl ?_ ?_ ?_ ?_
  case' replyTakeCancelled p rep i _ hc _ => refine .take p i ⟨rfl, rfl⟩ hc ?_ ?_ rfl ?_
  case' replyTake p rep i _ hc _ => refine .take p i ⟨rfl, rfl⟩ hc ?_ ?_ ?_ ?_
  case' destroyTake p k i _ hc => refine .take p i ⟨rfl, rfl⟩ hc ?_ ?_ rfl ?_
  case' csqCancelIrp p i => refine .cancel p i rfl rfl ?_ ?_ rfl ?_
  all_goals first
    | exact .keep rfl (fun _ => rfl) (fun _ => rfl) rfl (fun _ => rfl)
    | exact .keep rfl (fun _ => frame_update PdoDeviceData.irpQueue rfl)
        (fun _ => frame_update PdoDeviceData.currentIrp rfl) rfl (fun _ => rfl)
    | skip
  all_goals try refine .keep ?_ ?_ ?_ ?_ ?_
  all_goals first
    | rfl
    | exact Pc.hand_nextReturn _
    | exact Pc.hand_destroyReturn _
    | exact fun _ => frame_update PdoDeviceData.irpQueue rfl
    | exact fun _ => frame_update PdoDeviceData.currentIrp rfl
    | exact fun _ => frame_update Irp.arrived rfl
    | (intro q; simp [Function.update_apply, Bus.newPdo]; done)
    | (intro q; simp [Function.update_apply, Bus.newPdo]; split <;> simp_all)
    | simp [Bus.completed]

namespace Moves

/-- A cancel routine is registered for an IRP in hand, the queue's one when it is put there. -/
theorem registers (m : Moves t b a pc b' pc') :
    (b'.irps i).cancelRoutine = (b.irps i).cancelRoutine ∨ (b'.irps i).cancelRoutine = none ∨
    (i ∈ pc.hand ∧
      ∀ p, (b'.irps i).cancelRoutine = some (.csq p) → i ∈ (b'.pdos p).irpQueue) := by
  cases m
  all_goals first
    | exact .inl rfl
    | exact .inl (frame_update Irp.cancelRoutine rfl)
    | skip
  all_goals simp [Function.update_apply]
  all_goals split <;> simp_all [Pc.hand]

/-- An IRP leaves a queue when its cancel routine is taken out of it, or runs. -/
theorem mem_irpQueue (m : Moves t b a pc b' pc') (hp : p < b.pdoCount)
    (hi : i ∈ (b.pdos p).irpQueue) :
    i ∈ (b'.pdos p).irpQueue ∨
    ((b.irps i).cancelRoutine ≠ none ∧ (b'.irps i).cancelRoutine = none) ∨
    pc = .csqCancelIrp p i := by
  have hne : p ≠ b.pdoCount := Nat.ne_of_lt hp
  -- taking out another IRP
  have herase : ∀ {j : IrpId} {p' : PdoId}, j ≠ i →
      i ∈ if p = p' then (b.pdos p).irpQueue.erase j else (b.pdos p).irpQueue := by
    intro j p' hj
    split
    · exact (List.mem_erase_of_ne hj.symm).mpr hi
    · exact hi
  have hremove : ∀ {j p'}, b.peekIrp p' = some j → i ∈ ((b.removeIrp p' j).pdos p).irpQueue ∨
      ((b.irps i).cancelRoutine ≠ none ∧ ((b.removeIrp p' j).irps i).cancelRoutine = none) := by
    intro j p' h
    rcases eq_or_ne j i with rfl | hj
    · exact .inr ⟨Option.isSome_iff_ne_none.mp (Bus.mem_of_peekIrp h).2, by simp⟩
    · have hmem := @herase j p' hj
      left
      simp only [Bus.removeIrp_pdos, Function.update_apply]
      split <;> simp_all
  cases m
  case nextIrp h => exact (hremove h).imp_right .inl
  case destroyDrain h => exact (hremove h).imp_right .inl
  case csqCancelIrp p' j =>
    rcases eq_or_ne j i with rfl | hj
    · rcases eq_or_ne p p' with rfl | hpp
      · exact .inr (.inr rfl)
      · exact .inl (by simp [hpp, hi])
    · have hmem := @herase j p' hj
      left
      simp only [Bus.failIrp_pdos, Bus.setPdo_pdos, Function.update_apply]
      split <;> simp_all
  all_goals first
    | exact .inl hi
    | exact .inl ((mem_frame_update PdoDeviceData.irpQueue (by rfl)).mpr hi)
    | skip
  all_goals clear herase hremove
  all_goals simp [Function.update_apply, hne, hi]
  all_goals split <;> simp_all

/-- A thread comes to cancel a queued IRP by taking its cancel routine. -/
theorem cancelling (m : Moves t b a pc b' pc') (hpc : pc' = .csqCancelIrp p i) :
    (b.irps i).cancelRoutine = some (.csq p) ∧ (b'.irps i).cancelRoutine = none ∧
    b'.pdos = b.pdos := by
  cases m
  case cancelCsq hc =>
    cases hpc
    exact ⟨hc, by simp, rfl⟩
  all_goals first
    | cases hpc
    | (rename NextCaller => k; cases k <;> cases hpc)
    | (rename DestroyCaller => k; cases k <;> cases hpc)

/-- The exceptions are entered through `IoCancelIrp` on a current IRP, and through a failure to take
the remove lock. -/
theorem complains (m : Moves t b a pc b' pc')
    (hpc : (∃ i, pc' = .busCancelIrp i) ∨ ∃ p i, pc' = .startFail p i) :
    (∃ i, a = .cancelIrp t i ∧ (b.irps i).cancelRoutine = some .busCancelIrp) ∨
    (a = .step t false ∧ ∃ p i r, pc = .startSetup p i r) := by
  cases m
  case cancelBus i _ _ hc => exact .inl ⟨i, rfl, hc⟩
  case startSetupFailed p i r _ => exact .inr ⟨rfl, p, i, r, rfl⟩
  case startSetupFailedCancelled p i r _ => exact .inr ⟨rfl, p, i, r, rfl⟩
  all_goals first
    | (rcases hpc with ⟨i, hpc⟩ | ⟨p, i, hpc⟩ <;> cases hpc)
    | (rename NextCaller => k
       cases k <;> rcases hpc with ⟨i, hpc⟩ | ⟨p, i, hpc⟩ <;> cases hpc)
    | (rename DestroyCaller => k
       cases k <;> rcases hpc with ⟨i, hpc⟩ | ⟨p, i, hpc⟩ <;> cases hpc)

end Moves

/-! ## The invariant -/

namespace Driver

variable {s s' : Driver}

/-- **The steps that keep the ledger**: no IRP is cancelled through `Bus_CancelIrp`, and
`BusStartPacket` gets the remove lock. -/
def KeepsOwner (s : Driver) : Action → Prop
  | .cancelIrp _ i => (s.bus.irps i).cancelRoutine ≠ some .busCancelIrp
  | .step t ok => ∀ p i r, s.calls t = .startSetup p i r → ok = true
  | _ => True

/-- The ledger accounts for the IRPs that arrived, and an IRP with a queue's cancel routine, or
being cancelled by it, is on that queue. -/
structure Owned (s : Driver) : Prop where
  ledger : Accounts (fun i => (s.bus.irps i).arrived = true) s.holds
  queued : ∀ i p, (s.bus.irps i).cancelRoutine = some (.csq p) → i ∈ (s.bus.pdos p).irpQueue
  cancelling : ∀ t p i, s.calls t = .csqCancelIrp p i →
    i ∈ (s.bus.pdos p).irpQueue ∧ (s.bus.irps i).cancelRoutine = none
  cancellingUnique : ∀ t t' p p' i, s.calls t = .csqCancelIrp p i →
    s.calls t' = .csqCancelIrp p' i → t = t'
  silent : ∀ t, (∀ i, s.calls t ≠ .busCancelIrp i) ∧ ∀ p i, s.calls t ≠ .startFail p i

/-- The ledger after a move, place by place. -/
theorem holds_put {c : Place → List IrpId} (hand : (pc'.hand).Perm (c (.hand t)))
    (hands : ∀ t₂, t₂ ≠ t → ((s.calls t₂).hand).Perm (c (.hand t₂)))
    (queue : ∀ q, ((b'.pdos q).irpQueue).Perm (c (.queue q)))
    (current : ∀ q, ((b'.pdos q).currentIrp.toList).Perm (c (.current q)))
    (done : (b'.completed).Perm (c .done)) : ∀ k, ((s.put t (b', pc')).holds k).Perm (c k)
  | .hand t₂ => forall_update (L := fun t₂ (pc : Pc) => (pc.hand).Perm (c (.hand t₂))) hand hands t₂
  | .queue q => queue q
  | .current q => current q
  | .done => done

/-- **The entry of a move, in the ledger.** -/
theorem Owned.ledger_move (h : s.Owned) (hl : s.Linked) (hk : s.Locked)
    (m : Moves t s.bus a (s.calls t) b' pc') :
    Accounts (fun i => (b'.irps i).arrived = true) (s.put t (b', pc')).holds := by
  have hhand : s.holds (.hand t) = (s.calls t).hand := rfl
  have hcurrent : ∀ p, s.holds (.current p) = (s.bus.pdos p).currentIrp.toList := fun _ => rfl
  cases m.irpEntry (hl.new _ (Nat.le_refl _)) with
  | keep hh hq hc hd ha =>
    refine h.ledger.frame (fun i => by rw [ha]) (holds_put ?_ ?_ ?_ ?_ ?_)
    all_goals simp [holds, Bus.holds, hh, hq, hc, hd]
  | arrive i hi hh hp hd ha =>
    refine (h.ledger.receive (i := i) (by simp [hi]) (.hand t)).frame ha (holds_put ?_ ?_ ?_ ?_ ?_)
    all_goals simp +contextual [receive, holds, Bus.holds, hh, hp, hd]
  | complete i hh hq hc hd ha =>
    have hi : i ∈ s.holds (.hand t) := by simp [hhand, hh]
    refine (h.ledger.transfer hi .done).frame (fun i => by rw [ha]) (holds_put ?_ ?_ ?_ ?_ ?_)
    all_goals simp +contextual [transfer, receive, release, holds, Bus.holds, hh, hq, hc, hd]
  | enqueue p i hh hq hc hd ha =>
    have hi : i ∈ s.holds (.hand t) := by simp [hhand, hh]
    refine (h.ledger.transfer hi (.queue p)).frame (fun i => by rw [ha]) (holds_put ?_ ?_ ?_ ?_ ?_)
    all_goals simp +contextual [transfer, receive, release, holds, Bus.holds, hh, hq, hc, hd]
    intro q
    split
    · exact List.perm_append_singleton _ _
    · exact .refl _
  | dequeue p i hh hi hq hc hd ha =>
    have hi : i ∈ s.holds (.queue p) := hi
    refine (h.ledger.transfer hi (.hand t)).frame (fun i => by rw [ha]) (holds_put ?_ ?_ ?_ ?_ ?_)
    all_goals simp +contextual [transfer, receive, release, holds, Bus.holds, hh, hq, hc, hd]
  | start p i hh ht hq hc hd ha =>
    have hi : i ∈ s.holds (.hand t) := by simp [hhand, hh]
    have hp : (s.bus.pdos p).currentIrp = none := hk.tested t p ht
    refine (h.ledger.transfer hi (.current p)).frame (fun i => by rw [ha])
      (holds_put ?_ ?_ ?_ ?_ ?_)
    all_goals simp +contextual [transfer, receive, release, holds, Bus.holds, hh, hq, hc, hd, hp]
    intro q
    split <;> simp
  | take p i hh hi hq hc hd ha =>
    have hmem : i ∈ s.holds (.current p) := by simp [hcurrent, hi]
    refine (h.ledger.transfer hmem (.hand t)).frame (fun i => by rw [ha]) (holds_put ?_ ?_ ?_ ?_ ?_)
    all_goals simp +contextual [transfer, receive, release, holds, Bus.holds, hh, hq, hc, hd, hi]
    intro q
    split <;> simp
  | cancel p i hpc hh hq hc hd ha =>
    have hi : i ∈ s.holds (.queue p) := (h.cancelling t p i hpc).1
    refine (h.ledger.transfer hi .done).frame (fun i => by rw [ha]) (holds_put ?_ ?_ ?_ ?_ ?_)
    all_goals simp +contextual [transfer, receive, release, holds, Bus.holds, hh, hq, hc, hd]
  | complain hpc =>
    rcases hpc with ⟨i, hpc⟩ | ⟨p, i, hpc⟩
    · exact absurd hpc ((h.silent t).1 i)
    · exact absurd hpc ((h.silent t).2 p i)

/-- **A move that meets the condition keeps the ledger.** -/
theorem Owned.move (h : s.Owned) (hl : s.Linked) (hk : s.Locked) (hC : s.KeepsOwner a)
    (m : Moves t s.bus a (s.calls t) b' pc') : (s.put t (b', pc')).Owned where
  ledger := h.ledger_move hl hk m
  queued i p hi := by
    have hi : (b'.irps i).cancelRoutine = some (.csq p) := hi
    rcases m.registers (i := i) with heq | hnone | ⟨-, hput⟩
    · have hold : (s.bus.irps i).cancelRoutine = some (.csq p) := heq ▸ hi
      have hmem := h.queued i p hold
      have hp : p < s.bus.pdoCount := (hl.names p (.inr (.inr ⟨i, hold⟩))).1
      rcases m.mem_irpQueue hp hmem with hmem | ⟨-, hnone⟩ | hpc
      · exact hmem
      · rw [hi] at hnone
        cases hnone
      · have hnone := (h.cancelling t p i hpc).2
        rw [hold] at hnone
        cases hnone
    · rw [hi] at hnone
      cases hnone
    · exact hput p hi
  cancelling := by
    refine forall_update (L := fun _ (pc : Pc) => ∀ p i, pc = .csqCancelIrp p i →
      i ∈ (b'.pdos p).irpQueue ∧ (b'.irps i).cancelRoutine = none) ?_ ?_
    · intro p i hpc
      obtain ⟨hc, hnone, hpdos⟩ := m.cancelling hpc
      exact ⟨hpdos ▸ h.queued i p hc, hnone⟩
    · intro t₂ hne p i ht₂
      obtain ⟨hmem, hnone⟩ := h.cancelling t₂ p i ht₂
      have hp : p < s.bus.pdoCount :=
        (hl.mentions t₂ p (by rw [ht₂]; exact List.mem_singleton_self p)).1
      constructor
      · rcases m.mem_irpQueue hp hmem with hmem | ⟨hsome, -⟩ | hpc
        · exact hmem
        · exact absurd hnone hsome
        · exact absurd (h.cancellingUnique t₂ t p p i ht₂ hpc) hne
      · rcases m.registers (i := i) with heq | hnone' | ⟨hhand, -⟩
        · exact heq.trans hnone
        · exact hnone'
        · have hhand : i ∈ s.holds (.hand t) := hhand
          have hplace := h.ledger.unique (k := .queue p) hmem hhand
          cases hplace
  cancellingUnique := by
    have hnew : ∀ t₂ p p' i, s.calls t₂ = .csqCancelIrp p i → pc' ≠ .csqCancelIrp p' i := by
      intro t₂ p p' i ht₂ hpc
      have hnone := (h.cancelling t₂ p i ht₂).2
      rw [(m.cancelling hpc).1] at hnone
      cases hnone
    intro t₁ t₂ p p' i ht₁ ht₂
    rcases eq_or_ne t₁ t with rfl | hne₁
    · rw [put_calls_self] at ht₁
      by_contra hne
      rw [put_calls_of_ne s (Ne.symm hne)] at ht₂
      exact hnew t₂ p' p i ht₂ ht₁
    · rw [put_calls_of_ne s hne₁] at ht₁
      rcases eq_or_ne t₂ t with rfl | hne₂
      · rw [put_calls_self] at ht₂
        exact absurd ht₂ (hnew t₁ p p' i ht₁)
      · rw [put_calls_of_ne s hne₂] at ht₂
        exact h.cancellingUnique t₁ t₂ p p' i ht₁ ht₂
  silent := by
    refine forall_update (L := fun _ (pc : Pc) => (∀ i, pc ≠ .busCancelIrp i) ∧
      ∀ p i, pc ≠ .startFail p i) ?_ fun t₂ _ => h.silent t₂
    have hno : ¬ ((∃ i, pc' = .busCancelIrp i) ∨ ∃ p i, pc' = .startFail p i) := by
      intro hpc
      rcases m.complains hpc with ⟨i, rfl, hc⟩ | ⟨rfl, p, i, r, hp⟩
      · exact hC hc
      · exact absurd (hC p i r hp) Bool.false_ne_true
    exact ⟨fun i hi => hno (.inl ⟨i, hi⟩), fun p i hi => hno (.inr ⟨p, i, hi⟩)⟩

/-- **A step that meets the condition keeps the ledger.** -/
theorem Owned.step (h : s.Owned) (hl : s.Linked) (hk : s.Locked) (hC : s.KeepsOwner a)
    (hs : s.step a = some s') : s'.Owned := by
  rcases step_moves hs with ⟨t, b', pc', m, rfl⟩ | ⟨m, f, -, rfl⟩ | ⟨e, -, -, rfl⟩
  · exact h.move hl hk hC m
  · exact ⟨h.1, h.2, h.3, h.4, h.5⟩
  · exact ⟨h.1, h.2, h.3, h.4, h.5⟩

/-- No IRP has arrived. -/
theorem Owned.init : lts.init.Owned where
  ledger := by
    refine .empty ?_ fun i hi => Bool.false_ne_true hi
    rintro (t | p | p | _) <;> rfl
  queued i p hi := by cases hi
  cancelling t p i ht := by cases ht
  cancellingUnique t t' p p' i ht := by cases ht
  silent t := by
    constructor
    · intro i ht
      cases ht
    · intro p i ht
      cases ht

/-- **The ledger is kept by every run that meets the condition.** -/
theorem owned (h : lts.Reach KeepsOwner s) : s.Owned :=
  h.invariant Owned.init fun _ _ _ hr hi hC hs => hi.step (linked hr) (locked hr) hC hs

/-! ## One owner, one completion -/

/-- **Exactly one owner and at most one completion.**  An IRP that arrived is in exactly one place:
in the hands of one routine in progress, or, once no routine has it in hand, on one disk's
`IrpQueue`, one disk's `CurrentIrp`, or completed. -/
structure SingleOwner (s : Driver) : Prop where
  owner : ∀ i, (s.bus.irps i).arrived = true → ∃! k, i ∈ s.holds k
  settled : ∀ i, (s.bus.irps i).arrived = true → (∀ t, i ∉ (s.calls t).hand) →
    (∃! p, i ∈ (s.bus.pdos p).irpQueue) ∨ (∃! p, (s.bus.pdos p).currentIrp = some i) ∨
      i ∈ s.bus.completed
  current : ∀ p i, (s.bus.pdos p).currentIrp = some i → i ∉ s.bus.completed
  once : ∀ i, s.bus.completed.count i ≤ 1

theorem single_owner (h : lts.Reach KeepsOwner s) : s.SingleOwner where
  owner i hi := by
    have hl := (owned h).ledger
    obtain ⟨k, hk⟩ := (hl.covers i).mp hi
    exact ⟨k, hk, fun k' hk' => hl.unique hk' hk⟩
  settled i hi hhand := by
    have hl := (owned h).ledger
    obtain ⟨k, hk⟩ := (hl.covers i).mp hi
    cases k with
    | hand t => exact absurd hk (hhand t)
    | queue p =>
      exact .inl ⟨p, hk, fun q hq => Place.queue.inj (hl.unique (k := .queue q) hq hk)⟩
    | current p =>
      have hmem : ∀ {q}, i ∈ s.holds (.current q) ↔ (s.bus.pdos q).currentIrp = some i := by
        simp [holds, Bus.holds]
      exact .inr (.inl ⟨p, hmem.mp hk, fun q hq => Place.current.inj (hl.unique (hmem.mpr hq) hk)⟩)
    | done => exact .inr (.inr hk)
  current p i hp hi := by
    have hmem : i ∈ s.holds (.current p) := by simp [holds, Bus.holds, hp]
    have hplace := (owned h).ledger.unique (k := .done) hi hmem
    cases hplace
  once i := List.nodup_iff_count_le_one.mp ((owned h).ledger.nodup .done) i

end Driver

/-! Runs for the inspection of single cases. -/

/-- `n` steps of a thread, every fallible call of them succeeding. -/
def steps (t : Tid) (n : ℕ) : List Action := List.replicate n (.step t true)

/-- A routine that ends after `n` steps. -/
def routine (t : Tid) (c : Call) (n : ℕ) : List Action := .call t c :: steps t n ++ [.leave t]

/-- A disk of eight blocks. -/
def smallDisk (handle : ULONG) (id : ℕ) : BusenumAddDisk where
  handle := handle
  nBlocks := 8
  blockSize := 512
  buffer := id
  removeEvent := id

/-- A READ of the first block. -/
def readSrb : ScsiRequestBlock where
  cdb := { operationCode := scsiopRead, transferBlocksLsb := 1 }
  dataTransferLength := 512

/-- A disk is added and an IRP becomes current on it. -/
def startedRun : List Action :=
  routine (.sys 0) (.addDisk (smallDisk 1 0)) 3 ++ routine (.sys 0) (.getRequest 0 0) 7 ++
    routine (.sys 0) (.scsi 0 0 readSrb) 8

/-- The reply to the IRP of `startedRun`. -/
def startedReply : Tagged BusenumReply := ⟨⟨1, statusSuccess, 0x28, 512⟩, some (0, 0)⟩

namespace Driver

/-- The ledger after a READ that was answered. -/
theorem single_owner_answered :
    ∃ s, lts.Reach KeepsOwner s ∧ s.bus.completed = [0] ∧ s.SingleOwner := by
  obtain ⟨s, hs, hc⟩ := lts.exists_reach (C := KeepsOwner)
    (c := fun _ a => match a with
      | .step _ ok => ok
      | .cancelIrp _ _ => false
      | _ => true)
    (by
      intro s a ha
      cases a <;> first | exact fun _ _ _ _ => ha | exact trivial | cases ha)
    (startedRun ++ .call (.sys 1) (.sendReply startedReply) :: steps (.sys 1) 3)
    (fun s => s.bus.completed = [0]) (by decide +kernel)
  exact ⟨s, hs, hc, single_owner hs⟩

/-- **A cancelled current IRP is completed twice**: `Bus_CancelIrp` completes it and leaves it
current, and the reply to its request completes it again. -/
theorem not_single_owner : ¬ ∀ s, lts.Reachable s → s.SingleOwner := by
  intro h
  obtain ⟨s, hs, hcount⟩ := lts.exists_reachable
    (startedRun ++ .cancelIrp (.sys 0) 0 :: steps (.sys 0) 1 ++
      .call (.sys 1) (.sendReply startedReply) :: steps (.sys 1) 3)
    (fun s => s.bus.completed.count 0 = 2) (by decide +kernel)
  have honce := (h s hs).once 0
  rw [hcount] at honce
  exact absurd honce (by decide)

end Driver

end VirtualDisk
