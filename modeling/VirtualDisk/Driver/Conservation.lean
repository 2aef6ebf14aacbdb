import Mathlib.Algebra.BigOperators.Ring.Finset
import Mathlib.Data.Set.Card
import VirtualDisk.Driver.Ownership

/-!
# Driver/Conservation — every delivery is answered once, and the buffer is its own meanwhile

For each disk the deliveries recorded in the trace are balanced by the replies taken, the
cancellations at destruction and the IRP that is current.  A GET_REQUEST IRP is filled once and
never queued again.  The mapped buffer serves one request at a time as long as no packet is started
on a disk whose destruction has emptied `CurrentIrp`.
-/

namespace VirtualDisk

open Machinery

variable {t : Tid} {a : Action} {b b' : Bus} {pc pc' : Pc} {p q : PdoId} {i : IrpId} {r : RqId}

/-- The PDO a thread is about to start a packet on. -/
def Pc.starts : Pc → Option PdoId
  | .startSetup p _ _ | .nextSetup p _ _ _ => some p
  | _ => none

theorem Pc.tested_of_starts (h : pc.starts = some p) : pc.tested = some p := by
  cases pc <;> first | exact h | cases h

/-! ## Counting -/

namespace Event

/-- A request was delivered for the disk. -/
def isDeliver (p : PdoId) : Event → Bool
  | .deliver q .. => q = p
  | _ => false

/-- A reply was taken for the disk's current IRP. -/
def isAccept (p : PdoId) : Event → Bool
  | .accept q .. => q = p
  | _ => false

/-- The disk's current IRP was cancelled at its destruction. -/
def isDestroyCancel (p : PdoId) : Event → Bool
  | .destroyCancel q _ => q = p
  | _ => false

/-- The GET_REQUEST IRP an event fills. -/
def filled : Event → Option RqId
  | .deliver _ r .. => some r
  | _ => none

end Event

namespace Bus

/-- How many requests were delivered for the disk. -/
def delivered (b : Bus) (p : PdoId) : ℕ := b.trace.countP (Event.isDeliver p)

/-- How many replies were accepted for the disk. -/
def accepted (b : Bus) (p : PdoId) : ℕ := b.trace.countP (Event.isAccept p)

/-- How many current IRPs of the disk were cancelled by `Bus_DestroyPdo`. -/
def destroyCancelled (b : Bus) (p : PdoId) : ℕ := b.trace.countP (Event.isDestroyCancel p)

/-- The GET_REQUEST IRPs that were filled, the latest first. -/
def filled (b : Bus) : List RqId := b.trace.filterMap Event.filled

/-- **The balance of a disk**: deliveries are answered, cancelled, or current. -/
def Balanced (b : Bus) (p : PdoId) : Prop :=
  b.delivered p = b.accepted p + b.destroyCancelled p + (b.pdos p).currentIrp.toList.length

end Bus

/-! ## The exchanges -/

/-- The event is about no disk's current IRP and no mapped buffer. -/
def Event.isQuiet : Event → Bool
  | .arrive .. | .complete _ | .resetEvent .. | .relations .. => true
  | _ => false

/-- **What a move does to the current IRPs and the trace**: nothing, or it notes an event that is
not about them, or it delivers, accepts, or cancels a current IRP, copying between the requester and
the mapped buffer on the way. -/
inductive Exchange (t : Tid) (a : Action) (b : Bus) (pc : Pc) (b' : Bus) : Prop
  | same (current : ∀ q, (b'.pdos q).currentIrp = (b.pdos q).currentIrp)
      (trace : b'.trace = b.trace)
  | note (e : Event) (quiet : e.isQuiet = true)
      (current : ∀ q, (b'.pdos q).currentIrp = (b.pdos q).currentIrp)
      (trace : b'.trace = e :: b.trace)
  | deliver (p : PdoId) (r : RqId) (i : IrpId) (rq : BusenumRequest) (data : Bytes)
      (copies : List Event) (starts : pc.starts = some p) (ok : a = .step t true)
      (copied : copies = [] ∨ ∃ n, copies = [.copyIn p i n])
      (current : ∀ q, (b'.pdos q).currentIrp = if q = p then some i else (b.pdos q).currentIrp)
      (trace : b'.trace = .deliver p r i rq data :: (copies ++ b.trace))
  | accept (p : PdoId) (i : IrpId) (rep : Tagged BusenumReply) (copies : List Event)
      (mem : (b.pdos p).currentIrp = some i)
      (copied : copies = [] ∨ ∃ n, copies = [.copyOut p i n])
      (current : ∀ q, (b'.pdos q).currentIrp = if q = p then none else (b.pdos q).currentIrp)
      (trace : b'.trace = .accept p i rep :: (copies ++ b.trace))
  | destroyCancel (p : PdoId) (i : IrpId) (mem : (b.pdos p).currentIrp = some i)
      (drained : (b'.pdos p).drained = true)
      (current : ∀ q, (b'.pdos q).currentIrp = if q = p then none else (b.pdos q).currentIrp)
      (trace : b'.trace = .destroyCancel p i :: b.trace)

theorem Moves.exchange (m : Moves t b a pc b' pc') (hnew : b.pdos b.pdoCount = {}) :
    Exchange t a b pc b' := by
  cases m
  case' startSetup p i r => refine .deliver p r i _ _ _ rfl rfl ?_ ?_ rfl
  case' nextSetup p r i k => refine .deliver p r i _ _ _ rfl rfl ?_ ?_ rfl
  case' replyTakeCancelled p rep i _ hc _ => refine .accept p i rep [] hc (.inl rfl) ?_ rfl
  case' replyTake p rep i _ hc _ => refine .accept p i rep _ hc ?_ ?_ rfl
  case' destroyTake p k i _ hc => refine .destroyCancel p i hc (by simp) ?_ rfl
  all_goals try exact .same (fun _ => rfl) rfl
  all_goals try exact .note _ rfl (fun _ => rfl) rfl
  all_goals try exact .same (fun _ => frame_update PdoDeviceData.currentIrp rfl) rfl
  all_goals try exact .note _ rfl (fun _ => frame_update PdoDeviceData.currentIrp rfl) rfl
  all_goals try refine .same ?_ rfl
  all_goals try refine .note _ rfl ?_ rfl
  all_goals first
    | (intro q; simp [Function.update_apply, Bus.newPdo]; done)
    | (intro q; simp [Function.update_apply, Bus.newPdo]; split <;> simp_all)
    | (split <;> simp)

/-- **A move keeps the balance** of every disk. -/
theorem Exchange.balanced (e : Exchange t a b pc b') (h : b.Balanced p)
    (htested : ∀ p, pc.tested = some p → (b.pdos p).currentIrp = none) : b'.Balanced p := by
  unfold Bus.Balanced Bus.delivered Bus.accepted Bus.destroyCancelled at h ⊢
  cases e with
  | same hc ht => rwa [hc, ht]
  | note e hq hc ht =>
    rw [hc, ht]
    cases e <;> first
      | simpa [Event.isDeliver, Event.isAccept, Event.isDestroyCancel] using h
      | cases hq
  | deliver p' r i rq data copies hs _ hcopies hc ht =>
    have hp' := htested p' (Pc.tested_of_starts hs)
    rw [hc, ht]
    rcases eq_or_ne p p' with rfl | hpp
    · rcases hcopies with rfl | ⟨n, rfl⟩
      all_goals
        simp [Event.isDeliver, Event.isAccept, Event.isDestroyCancel, hp'] at h ⊢
        omega
    · rcases hcopies with rfl | ⟨n, rfl⟩
      all_goals
        simpa [Event.isDeliver, Event.isAccept, Event.isDestroyCancel, hpp, hpp.symm] using h
  | accept p' i rep copies hi hcopies hc ht =>
    rw [hc, ht]
    rcases eq_or_ne p p' with rfl | hpp
    · rcases hcopies with rfl | ⟨n, rfl⟩
      all_goals
        simp [Event.isDeliver, Event.isAccept, Event.isDestroyCancel, hi] at h ⊢
        omega
    · rcases hcopies with rfl | ⟨n, rfl⟩
      all_goals
        simpa [Event.isDeliver, Event.isAccept, Event.isDestroyCancel, hpp, hpp.symm] using h
  | destroyCancel p' i hi _ hc ht =>
    rw [hc, ht]
    rcases eq_or_ne p p' with rfl | hpp
    · simp [Event.isDeliver, Event.isAccept, Event.isDestroyCancel, hi] at h ⊢
      omega
    · simpa [Event.isDeliver, Event.isAccept, Event.isDestroyCancel, hpp, hpp.symm] using h

/-! ## The GET_REQUEST IRPs -/

/-- The GET_REQUEST IRP a thread has taken and not yet filled, queued or completed. -/
def Pc.rqHand : Pc → List RqId
  | .startSetup _ _ r => [r]
  | .nextIrp _ r _ | .nextSetup _ r _ _ | .nextPutBack _ r _ => [r]
  | .getInsert r => [r]
  | .cleanupDrained r _ => [r]
  | _ => []

@[simp] theorem Pc.rqHand_nextReturn (k : NextCaller) : (nextReturn k).rqHand = [] := by
  cases k <;> rfl

@[simp] theorem Pc.rqHand_destroyReturn (k : DestroyCaller) : (destroyReturn k).rqHand = [] := by
  cases k <;> rfl

/-- Where a GET_REQUEST IRP can be. -/
inductive RqPlace
  | hand (t : Tid)
  | queue
  | filled
  deriving DecidableEq

/-- **The ledger of the GET_REQUEST IRPs.** -/
def Driver.holdsRq (s : Driver) : RqPlace → List RqId
  | .hand t => (s.calls t).rqHand
  | .queue => s.bus.fdo.requestQueue
  | .filled => s.bus.filled

/-- **What a move does to the GET_REQUEST IRPs.** -/
inductive RqEntry (b : Bus) (pc : Pc) (b' : Bus) (pc' : Pc) : Prop
  | keep (hand : pc'.rqHand = pc.rqHand) (queue : b'.fdo.requestQueue = b.fdo.requestQueue)
      (filled : b'.filled = b.filled)
      (requests : ∀ x, (b'.requests x).arrived = (b.requests x).arrived ∧
        (b'.requests x).systemBuffer = (b.requests x).systemBuffer)
  | arrive (r : RqId) (new : (b.requests r).arrived = false)
      (hand : pc.rqHand = [] ∧ pc'.rqHand = [r])
      (queue : b'.fdo.requestQueue = b.fdo.requestQueue) (filled : b'.filled = b.filled)
      (requests : ∀ x, ((b'.requests x).arrived = true ↔ x = r ∨ (b.requests x).arrived = true) ∧
        (b'.requests x).systemBuffer = (b.requests x).systemBuffer)
  | enqueue (r : RqId) (hand : pc.rqHand = [r] ∧ pc'.rqHand = [])
      (queue : b'.fdo.requestQueue = b.fdo.requestQueue ++ [r]) (filled : b'.filled = b.filled)
      (requests : ∀ x, (b'.requests x).arrived = (b.requests x).arrived ∧
        (b'.requests x).systemBuffer = (b.requests x).systemBuffer)
  | dequeue (r : RqId) (hand : pc.rqHand = [] ∧ pc'.rqHand = [r])
      (mem : r ∈ b.fdo.requestQueue)
      (queue : b'.fdo.requestQueue = b.fdo.requestQueue.erase r) (filled : b'.filled = b.filled)
      (requests : ∀ x, (b'.requests x).arrived = (b.requests x).arrived ∧
        (b'.requests x).systemBuffer = (b.requests x).systemBuffer)
  | fill (r : RqId) (hand : pc.rqHand = [r] ∧ pc'.rqHand = [])
      (queue : b'.fdo.requestQueue = b.fdo.requestQueue) (filled : b'.filled = r :: b.filled)
      (requests : ∀ x, (b'.requests x).arrived = (b.requests x).arrived ∧
        ((b'.requests x).systemBuffer ≠ none ↔ x = r ∨ (b.requests x).systemBuffer ≠ none))
  | drop (r : RqId) (hand : pc.rqHand = [r] ∧ pc'.rqHand = [])
      (queue : b'.fdo.requestQueue = b.fdo.requestQueue) (filled : b'.filled = b.filled)
      (requests : ∀ x, (b'.requests x).arrived = (b.requests x).arrived ∧
        (b'.requests x).systemBuffer = (b.requests x).systemBuffer)
  | cancel (r : RqId) (hand : pc'.rqHand = pc.rqHand)
      (queue : b'.fdo.requestQueue = b.fdo.requestQueue.erase r) (filled : b'.filled = b.filled)
      (requests : ∀ x, (b'.requests x).arrived = (b.requests x).arrived ∧
        (b'.requests x).systemBuffer = (b.requests x).systemBuffer)

theorem Bus.mem_of_peekRequest {file : Option FileObject} (h : b.peekRequest file = some r) :
    r ∈ b.fdo.requestQueue := List.mem_of_find?_eq_some h

theorem Moves.rqEntry (m : Moves t b a pc b' pc') : RqEntry b pc b' pc' := by
  cases m
  case' callGetRequest r file hr => refine .arrive r hr ⟨rfl, rfl⟩ rfl rfl ?_
  case' startRequest p i r h =>
    refine .dequeue r ⟨rfl, rfl⟩ (Bus.mem_of_peekRequest h) rfl rfl ?_
  case' nextRequest p k r h => refine .dequeue r ⟨rfl, rfl⟩ (Bus.mem_of_peekRequest h) rfl rfl ?_
  case' cleanupDrain file r h =>
    refine .dequeue r ⟨rfl, rfl⟩ (Bus.mem_of_peekRequest h) rfl rfl ?_
  case' startSetup p i r => refine .fill r ⟨rfl, rfl⟩ rfl ?_ ?_
  case' nextSetup p r i k => refine .fill r ⟨rfl, rfl⟩ rfl ?_ ?_
  case' startSetupFailed p i r h => refine .enqueue r ⟨rfl, rfl⟩ rfl rfl ?_
  case' startSetupFailedCancelled p i r h => refine .drop r ⟨rfl, rfl⟩ rfl rfl ?_
  case' nextSetupFailed p r i k h => refine .enqueue r ⟨rfl, rfl⟩ rfl rfl ?_
  case' nextSetupFailedCancelled p r i k h => refine .drop r ⟨rfl, rfl⟩ rfl rfl ?_
  case' nextPutBack p r k h => refine .enqueue r ⟨rfl, Pc.rqHand_nextReturn k⟩ rfl rfl ?_
  case' nextPutBackCancelled p r k h => refine .drop r ⟨rfl, Pc.rqHand_nextReturn k⟩ rfl rfl ?_
  case' getInsertDeleted r h => refine .drop r ⟨rfl, rfl⟩ rfl rfl ?_
  case' getInsert r hd h => refine .enqueue r ⟨rfl, rfl⟩ rfl rfl ?_
  case' getInsertCancelled r hd h => refine .drop r ⟨rfl, rfl⟩ rfl rfl ?_
  case' cleanupDrained r file => refine .drop r ⟨rfl, rfl⟩ rfl rfl ?_
  case' csqCancelRequest r => refine .cancel r rfl rfl rfl ?_
  all_goals try exact .keep rfl rfl rfl fun _ => ⟨rfl, rfl⟩
  all_goals try refine .keep ?_ rfl ?_ ?_
  all_goals first
    | rfl
    | exact Pc.rqHand_nextReturn _
    | exact Pc.rqHand_destroyReturn _
    | (intro x; exact ⟨rfl, rfl⟩)
    | exact fun _ => ⟨frame_update RequestIrp.arrived rfl,
        frame_update RequestIrp.systemBuffer rfl⟩
    | (intro x; simp [Function.update_apply]; done)
    | (intro x; simp [Function.update_apply]; split <;> simp_all)
    | (simp [Bus.filled, Event.filled]; done)
    | (unfold Bus.filled; simp only [Bus.acceptAnswer_trace]; split <;> rfl)

namespace Driver

variable {s s' : Driver} {C : Driver → Action → Prop}

/-- The ledger holds IRPs that arrived, and the filled ones are those with a request. -/
structure RqOwned (s : Driver) : Prop where
  ledger : Within (fun r => (s.bus.requests r).arrived = true) s.holdsRq
  filled : ∀ r, (s.bus.requests r).systemBuffer ≠ none ↔ r ∈ s.bus.filled

/-- The ledger after a move, place by place. -/
theorem holdsRq_put {c : RqPlace → List RqId} (hand : (pc'.rqHand).Perm (c (.hand t)))
    (hands : ∀ t₂, t₂ ≠ t → ((s.calls t₂).rqHand).Perm (c (.hand t₂)))
    (queue : (b'.fdo.requestQueue).Perm (c .queue)) (filled : (b'.filled).Perm (c .filled)) :
    ∀ k, ((s.put t (b', pc')).holdsRq k).Perm (c k)
  | .hand t₂ =>
    forall_update (L := fun t₂ (pc : Pc) => (pc.rqHand).Perm (c (.hand t₂))) hand hands t₂
  | .queue => queue
  | .filled => filled

/-- **The entry of a move, in the ledger.** -/
theorem RqOwned.ledger_move (h : s.RqOwned) (m : Moves t s.bus a (s.calls t) b' pc') :
    Within (fun r => (b'.requests r).arrived = true) (s.put t (b', pc')).holdsRq := by
  have hhand : s.holdsRq (.hand t) = (s.calls t).rqHand := rfl
  cases m.rqEntry with
  | keep hh hq hf hr =>
    refine h.ledger.frame (fun r => (hr r).1.trans) (holdsRq_put ?_ ?_ ?_ ?_)
    all_goals simp [holdsRq, hh, hq, hf]
  | arrive x hx hh hq hf hr =>
    refine (h.ledger.receive (i := x) (by simp [hx]) (.hand t)).frame (fun r => (hr r).1.mpr)
      (holdsRq_put ?_ ?_ ?_ ?_)
    all_goals simp +contextual [receive, holdsRq, hh, hq, hf]
  | enqueue x hh hq hf hr =>
    have hx : x ∈ s.holdsRq (.hand t) := by simp [hhand, hh]
    refine (h.ledger.transfer hx .queue).frame (fun r => (hr r).1.trans) (holdsRq_put ?_ ?_ ?_ ?_)
    all_goals simp +contextual [transfer, receive, release, holdsRq, hh, hq, hf]
  | dequeue x hh hx hq hf hr =>
    have hx : x ∈ s.holdsRq .queue := hx
    refine (h.ledger.transfer hx (.hand t)).frame (fun r => (hr r).1.trans)
      (holdsRq_put ?_ ?_ ?_ ?_)
    all_goals simp +contextual [transfer, receive, release, holdsRq, hh, hq, hf]
  | fill x hh hq hf hr =>
    have hx : x ∈ s.holdsRq (.hand t) := by simp [hhand, hh]
    refine (h.ledger.transfer hx .filled).frame (fun r => (hr r).1.trans) (holdsRq_put ?_ ?_ ?_ ?_)
    all_goals simp +contextual [transfer, receive, release, holdsRq, hh, hq, hf]
  | drop x hh hq hf hr =>
    have hx : x ∈ s.holdsRq (.hand t) := by simp [hhand, hh]
    refine (h.ledger.release hx).frame (fun r => (hr r).1.trans) (holdsRq_put ?_ ?_ ?_ ?_)
    all_goals simp +contextual [release, holdsRq, hh, hq, hf]
  | cancel x hh hq hf hr =>
    by_cases hx : x ∈ s.holdsRq .queue
    · refine (h.ledger.release hx).frame (fun r => (hr r).1.trans) (holdsRq_put ?_ ?_ ?_ ?_)
      all_goals simp +contextual [release, holdsRq, hh, hq, hf]
    · have hx' : s.bus.fdo.requestQueue.erase x = s.bus.fdo.requestQueue := List.erase_of_not_mem hx
      refine h.ledger.frame (fun r => (hr r).1.trans) (holdsRq_put ?_ ?_ ?_ ?_)
      all_goals simp [holdsRq, hh, hq, hf, hx']

/-- A move keeps the record of the filled IRPs. -/
theorem RqOwned.filled_move (h : s.RqOwned) (m : Moves t s.bus a (s.calls t) b' pc') (r : RqId) :
    (b'.requests r).systemBuffer ≠ none ↔ r ∈ b'.filled := by
  cases m.rqEntry with
  | fill x hh hq hf hr => rw [hf, List.mem_cons, (hr r).2, h.filled r]
  | keep hh hq hf hr | arrive x hx hh hq hf hr | enqueue x hh hq hf hr | dequeue x hh hx hq hf hr
  | drop x hh hq hf hr | cancel x hh hq hf hr => rw [hf, (hr r).2, h.filled r]

/-- **The GET_REQUEST IRPs are accounted for in every state reached.** -/
theorem rqOwned (h : lts.Reach C s) : s.RqOwned := by
  refine h.invariant (I := RqOwned) ?_ fun s a s' hr hi _ hs => ?_
  · refine ⟨.empty ?_, fun r => ?_⟩
    · rintro (t | _ | _) <;> rfl
    · exact iff_of_false (fun hr => hr rfl) List.not_mem_nil
  · rcases step_moves hs with ⟨t, b', pc', m, rfl⟩ | ⟨m, f, -, rfl⟩ | ⟨e, -, -, rfl⟩
    · exact ⟨hi.ledger_move m, hi.filled_move m⟩
    · exact ⟨hi.1, hi.2⟩
    · exact ⟨hi.1, hi.2⟩

/-! ## The total -/

/-- Every delivery was made for a PDO that exists. -/
def Accounted (s : Driver) : Prop :=
  (∀ p, s.bus.Balanced p) ∧
    ∀ e ∈ s.bus.trace, ∀ p, e.isDeliver p = true → p < s.bus.pdoCount

/-- **Deliveries are balanced in every state reached**, and are made for PDOs that exist. -/
theorem accounted (h : lts.Reach C s) : s.Accounted := by
  refine h.invariant (I := Accounted) ?_ fun s a s' hr hi _ hs => ?_
  · exact ⟨fun _ => rfl, fun e he => absurd he List.not_mem_nil⟩
  rcases step_moves hs with ⟨t, b', pc', m, rfl⟩ | ⟨m, f, -, rfl⟩ | ⟨e, -, -, rfl⟩
  · have hl := linked hr
    have hx := m.exchange (hl.new _ (Nat.le_refl _))
    refine ⟨fun p => hx.balanced (hi.1 p) ((locked hr).tested t), ?_⟩
    have hold : ∀ e ∈ s.bus.trace, ∀ p, e.isDeliver p = true → p < b'.pdoCount :=
      fun e he p hp => Nat.lt_of_lt_of_le (hi.2 e he p hp) m.pdoCount_le
    show ∀ e ∈ b'.trace, ∀ p, e.isDeliver p = true → p < b'.pdoCount
    cases hx with
    | same _ ht => rwa [ht]
    | note e he _ ht =>
      rw [ht, List.forall_mem_cons]
      refine ⟨fun p hp => ?_, hold⟩
      cases e <;> first | cases hp | cases he
    | deliver p r i rq data copies hs _ hcopies _ ht =>
      have hp : p < b'.pdoCount := Nat.lt_of_lt_of_le
        (hl.mentions t p
          (Pc.mem_mentions_of_locked (Pc.locked_of_tested (Pc.tested_of_starts hs)))).1
        m.pdoCount_le
      rw [ht]
      rcases hcopies with rfl | ⟨n, rfl⟩ <;> simpa [Event.isDeliver, hp] using hold
    | accept p i rep copies _ hcopies _ ht =>
      rw [ht]
      rcases hcopies with rfl | ⟨n, rfl⟩ <;> simpa [Event.isDeliver] using hold
    | destroyCancel p i _ _ _ ht =>
      rw [ht]
      simpa [Event.isDeliver] using hold
  · exact hi
  · exact hi

end Driver

/-- The deliveries, disk by disk. -/
theorem filled_length (l : List Event) (n : ℕ)
    (h : ∀ e ∈ l, ∀ p, e.isDeliver p = true → p < n) :
    (l.filterMap Event.filled).length = ∑ p ∈ Finset.range n, l.countP (Event.isDeliver p) := by
  induction l with
  | nil => simp
  | cons e l ih =>
    rw [List.forall_mem_cons] at h
    have ih := ih h.2
    cases e with
    | deliver q r i rq data =>
      have hq : q < n := h.1 q (by simp [Event.isDeliver])
      simp only [List.countP_cons, Finset.sum_add_distrib, ← ih]
      simp [Event.filled, Event.isDeliver, hq]
    | arrive | copyIn | copyOut | accept | destroyCancel | complete | resetEvent | relations =>
      rw [List.filterMap_cons_none rfl]
      simpa [Event.isDeliver] using ih

/-! ## The mapped buffer -/

/-- The IRPs whose requests were delivered for the disk and not replied to, read off the trace.  A
cancellation at destruction is no reply: the service goes on executing the request. -/
def unanswered (p : PdoId) : List Event → List IrpId
  | [] => []
  | .deliver q _ i _ _ :: es => if q = p then i :: unanswered p es else unanswered p es
  | .accept q i _ :: es => if q = p then (unanswered p es).erase i else unanswered p es
  | _ :: es => unanswered p es

/-- **The mapped buffer is not disturbed**: write data enters it when no request is outstanding, and
data leaves it for the IRP whose request is. -/
def Undisturbed (p : PdoId) : List Event → Prop
  | [] => True
  | .copyIn q _ _ :: es => (q = p → unanswered p es = []) ∧ Undisturbed p es
  | .copyOut q i _ :: es => (q = p → unanswered p es = [i]) ∧ Undisturbed p es
  | _ :: es => Undisturbed p es

instance (p : PdoId) : DecidablePred (Undisturbed p) := go
where
  go : ∀ es, Decidable (Undisturbed p es)
    | [] => inferInstanceAs (Decidable True)
    | .copyIn q _ _ :: es =>
      have := go es
      inferInstanceAs (Decidable ((q = p → unanswered p es = []) ∧ Undisturbed p es))
    | .copyOut q i _ :: es =>
      have := go es
      inferInstanceAs (Decidable ((q = p → unanswered p es = [i]) ∧ Undisturbed p es))
    | .arrive .. :: es => go es
    | .deliver .. :: es => go es
    | .accept .. :: es => go es
    | .destroyCancel .. :: es => go es
    | .complete _ :: es => go es
    | .resetEvent .. :: es => go es
    | .relations .. :: es => go es

/-- A PDO is marked as drained in the section that leaves it without a current IRP. -/
theorem Moves.drained (m : Moves t b a pc b' pc') (hnew : b.pdos b.pdoCount = {}) :
    (b'.pdos p).drained = (b.pdos p).drained ∨
    ((b'.pdos p).drained = true ∧ (b'.pdos p).currentIrp = none) := by
  cases m
  all_goals first
    | exact .inl rfl
    | exact .inl (frame_update PdoDeviceData.drained rfl)
    | skip
  all_goals simp [Function.update_apply]
  all_goals split <;> simp_all [Bus.newPdo]

namespace Driver

variable {s s' : Driver}

/-- **No late start**: no packet is started on a disk once `Bus_DestroyPdo` is past the section in
which it cancels the current IRP. -/
def NoLateStart (s : Driver) : Action → Prop
  | .step t true => ∀ p, (s.calls t).starts = some p → (s.bus.pdos p).drained = false
  | _ => True

/-- The outstanding request of a disk is its current IRP's, until the disk is drained. -/
structure Serial (b : Bus) (p : PdoId) : Prop where
  idle : (b.pdos p).drained = true → (b.pdos p).currentIrp = none
  serves : (b.pdos p).drained = false →
    unanswered p b.trace = (b.pdos p).currentIrp.toList
  undisturbed : Undisturbed p b.trace

/-- **A move that meets the condition keeps a disk's requests serial.** -/
theorem Serial.move (h : Serial s.bus p) (hl : s.Linked) (hk : s.Locked) (hC : s.NoLateStart a)
    (m : Moves t s.bus a (s.calls t) b' pc') : Serial b' p := by
  have hnew := hl.new _ (Nat.le_refl _)
  obtain ⟨h1, h2, h3⟩ := h
  -- a disk whose current IRP and trace entries stay as they are
  have keep : (b'.pdos p).currentIrp = (s.bus.pdos p).currentIrp →
      unanswered p b'.trace = unanswered p s.bus.trace → Undisturbed p b'.trace →
      Serial b' p := by
    intro hc ho hu
    rcases m.drained (p := p) hnew with hd | ⟨hd, hcur⟩
    · exact ⟨fun h => hc.trans (h1 (hd ▸ h)), fun h => by rw [ho, hc, h2 (hd ▸ h)], hu⟩
    · exact ⟨fun _ => hcur, fun h => absurd (hd.symm.trans h) (by simp), hu⟩
  cases m.exchange hnew with
  | same hc ht => exact keep (hc p) (ht ▸ rfl) (ht ▸ h3)
  | note e he hc ht =>
    refine keep (hc p) ?_ ?_
    · rw [ht]
      cases e <;> first | rfl | cases he
    · rw [ht]
      cases e <;> first | exact h3 | cases he
  | deliver p' r i rq data copies hs ha hcopies hc ht =>
    subst ha
    rcases eq_or_ne p p' with rfl | hpp
    · have hd : (s.bus.pdos p).drained = false := hC p hs
      have hcur := hk.tested t p (Pc.tested_of_starts hs)
      have hcur' : (b'.pdos p).currentIrp = some i := by simp [hc]
      have hd' : (b'.pdos p).drained = false := by
        rcases m.drained (p := p) hnew with hd' | ⟨-, hnone⟩
        · exact hd'.trans hd
        · rw [hcur'] at hnone
          cases hnone
      have hempty : unanswered p s.bus.trace = [] := by rw [h2 hd, hcur]; rfl
      refine ⟨fun h => absurd (hd'.symm.trans h) (by simp), fun _ => ?_, ?_⟩
      · rw [hcur', ht]
        rcases hcopies with rfl | ⟨n, rfl⟩ <;> simp [unanswered, hempty]
      · rw [ht]
        rcases hcopies with rfl | ⟨n, rfl⟩ <;> simp [Undisturbed, hempty, h3]
    · refine keep ((hc p).trans (if_neg hpp)) ?_ ?_
      · rw [ht]
        rcases hcopies with rfl | ⟨n, rfl⟩ <;> simp [unanswered, hpp.symm]
      · rw [ht]
        rcases hcopies with rfl | ⟨n, rfl⟩ <;> simp [Undisturbed, hpp.symm, h3]
  | accept p' i rep copies hi hcopies hc ht =>
    rcases eq_or_ne p p' with rfl | hpp
    · have hd : (s.bus.pdos p).drained = false := by
        by_contra hd
        rw [h1 (by simpa using hd)] at hi
        cases hi
      have hcur' : (b'.pdos p).currentIrp = none := by simp [hc]
      have hone : unanswered p s.bus.trace = [i] := by rw [h2 hd, hi]; rfl
      refine ⟨fun _ => hcur', fun _ => ?_, ?_⟩
      · rw [hcur', ht]
        rcases hcopies with rfl | ⟨n, rfl⟩ <;> simp [unanswered, hone]
      · rw [ht]
        rcases hcopies with rfl | ⟨n, rfl⟩ <;> simp [Undisturbed, hone, h3]
    · refine keep ((hc p).trans (if_neg hpp)) ?_ ?_
      · rw [ht]
        rcases hcopies with rfl | ⟨n, rfl⟩ <;> simp [unanswered, hpp.symm]
      · rw [ht]
        rcases hcopies with rfl | ⟨n, rfl⟩ <;> simp [Undisturbed, hpp.symm, h3]
  | destroyCancel p' i hi hd hc ht =>
    rcases eq_or_ne p p' with rfl | hpp
    · refine ⟨fun _ => by simp [hc], fun h => absurd (hd.symm.trans h) (by simp), ?_⟩
      rw [ht]
      exact h3
    · refine keep ((hc p).trans (if_neg hpp)) ?_ ?_
      · rw [ht]
        rfl
      · rw [ht]
        exact h3

/-- **Requests are serial on every disk**, in every run that meets the condition. -/
theorem serial (h : lts.Reach NoLateStart s) (p : PdoId) : Serial s.bus p := by
  refine h.invariant (I := fun s => Serial s.bus p) ?_ fun s a s' hr hi hC hs => ?_
  · exact ⟨fun _ => rfl, fun _ => rfl, trivial⟩
  · rcases step_moves hs with ⟨t, b', pc', m, rfl⟩ | ⟨m, f, -, rfl⟩ | ⟨e, -, -, rfl⟩
    · exact hi.move (linked hr) (locked hr) hC m
    · exact ⟨hi.1, hi.2, hi.3⟩
    · exact ⟨hi.1, hi.2, hi.3⟩

/-! ## Conservation -/

/-- **Conservation of requests, and exclusive use of the mapped buffers.** -/
structure Conserved (s : Driver) : Prop where
  balanced : ∀ p, s.bus.Balanced p
  total : {r | (s.bus.requests r).systemBuffer ≠ none}.ncard =
    ∑ p ∈ Finset.range s.bus.pdoCount, s.bus.delivered p
  once : s.bus.filled.Nodup
  notQueued : ∀ r ∈ s.bus.fdo.requestQueue, (s.bus.requests r).systemBuffer = none
  undisturbed : ∀ p, Undisturbed p s.bus.trace

/-- The requests filled are as many as the deliveries. -/
theorem ncard_filled (h : lts.Reach C s) : {r | (s.bus.requests r).systemBuffer ≠ none}.ncard =
    ∑ p ∈ Finset.range s.bus.pdoCount, s.bus.delivered p := by
  have hr := rqOwned h
  have hset : {r | (s.bus.requests r).systemBuffer ≠ none} = ↑s.bus.filled.toFinset := by
    ext r
    simpa using hr.filled r
  have hnodup : s.bus.filled.Nodup := hr.ledger.nodup .filled
  rw [hset, Set.ncard_coe_finset, List.toFinset_card_of_nodup hnodup]
  exact filled_length _ _ (accounted h).2

/-- A filled GET_REQUEST IRP is not in the `RequestQueue`. -/
theorem not_filled_of_queued (h : lts.Reach C s) : ∀ r ∈ s.bus.fdo.requestQueue,
    (s.bus.requests r).systemBuffer = none := by
  intro r hr
  by_contra hfilled
  have hmem : r ∈ s.holdsRq .filled := ((rqOwned h).filled r).mp hfilled
  have hplace := (rqOwned h).ledger.unique (k := .queue) hr hmem
  cases hplace

theorem conserved (h : lts.Reach NoLateStart s) : s.Conserved where
  balanced := (accounted h).1
  total := ncard_filled h
  once := (rqOwned h).ledger.nodup .filled
  notQueued := not_filled_of_queued h
  undisturbed p := (serial h p).undisturbed

/-- One READ, delivered and answered. -/
theorem conserved_answered :
    ∃ s, lts.Reach NoLateStart s ∧ (s.bus.delivered 0 = 1 ∧ s.bus.accepted 0 = 1) ∧
      s.Conserved := by
  obtain ⟨s, hs, hcount⟩ := lts.exists_reach (C := NoLateStart)
    (c := fun s a => match a with
      | .step t true => (s.calls t).starts.all fun p => !(s.bus.pdos p).drained
      | _ => true)
    (by
      intro s a ha
      cases a with
      | step t ok =>
        cases ok with
        | true =>
          intro p hp
          simpa [hp] using ha
        | false => trivial
      | _ => trivial)
    (startedRun ++ .call (.sys 1) (.sendReply startedReply) :: steps (.sys 1) 3)
    (fun s => s.bus.delivered 0 = 1 ∧ s.bus.accepted 0 = 1) (by decide +kernel)
  exact ⟨s, hs, hcount, conserved hs⟩

/-- A WRITE of the first block. -/
def writeSrb : ScsiRequestBlock where
  cdb := { operationCode := scsiopWrite, transferBlocksLsb := 1 }
  dataTransferLength := 512

/-- **A start on a drained disk overwrites a buffer in use.**  A WRITE that `Bus_Scsi` let in before
the removal is started when `Bus_DestroyPdo` has cancelled the current READ, whose request the
service has not answered. -/
theorem not_conserved : ¬ ∀ s, lts.Reachable s → s.Conserved := by
  intro h
  obtain ⟨s, hs, hcopy⟩ := lts.exists_reachable
    (startedRun ++ routine (.sys 0) (.pdoPnp 0 .eject) 1 ++
      routine (.sys 0) (.queryRelations none) 2 ++
      .call (.sys 1) (.scsi 0 1 writeSrb) :: steps (.sys 1) 2 ++
      .call (.sys 0) (.pdoRemove 0) :: steps (.sys 0) 3 ++
      .call (.sys 2) (.getRequest 1 0) :: steps (.sys 2) 1 ++ steps (.sys 1) 3)
    (fun s => ¬ Undisturbed 0 s.bus.trace) (by decide +kernel)
  exact hcopy ((h s hs).undisturbed 0)

end Driver

end VirtualDisk
