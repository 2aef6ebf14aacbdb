import VirtualDisk.Driver.Requests

/-!
# Driver/Custody — every GET_REQUEST IRP has one owner until it is completed

The IRPs that the service waits with go round between the `RequestQueue` and the routines that take
them from it: a routine fills one, puts it back, or completes it.  The ledger of `Conservation` says
which of them are filled; here they are followed until they are completed, in every run, whatever is
cancelled and whatever fails.
-/

namespace VirtualDisk

open Machinery

variable {t : Tid} {a : Action} {b b' : Bus} {pc pc' : Pc} {r x : RqId}

/-! ## Where an IRP is until it is completed -/

/-- The GET_REQUEST IRP a thread has taken and not yet put back or completed. -/
def Pc.custody : Pc → List RqId
  | .startSetup _ _ r | .startComplete _ _ r => [r]
  | .nextIrp _ r _ | .nextSetup _ r _ _ | .nextPutBack _ r _ | .nextComplete r _ => [r]
  | .getInsert r => [r]
  | .cleanupDrained r _ => [r]
  | _ => []

@[simp] theorem Pc.custody_nextReturn (k : NextCaller) : (nextReturn k).custody = [] := by
  cases k <;> rfl

@[simp] theorem Pc.custody_destroyReturn (k : DestroyCaller) : (destroyReturn k).custody = [] := by
  cases k <;> rfl

/-- A thread has an IRP until it fills it, and then until it completes it. -/
theorem Pc.custody_eq (pc : Pc) : pc.custody = pc.rqHand ++ pc.completing.toList := by
  cases pc <;> rfl

/-- The IRP came in and was not completed. -/
def Bus.Pending (b : Bus) (r : RqId) : Prop :=
  (b.requests r).arrived = true ∧ (b.requests r).completed = false

/-- Where a GET_REQUEST IRP can be until then. -/
inductive RqOwner
  | hand (t : Tid)
  | queue
  deriving DecidableEq

/-- **The ledger of the GET_REQUEST IRPs that are not completed.** -/
def Driver.custody (s : Driver) : RqOwner → List RqId
  | .hand t => (s.calls t).custody
  | .queue => s.bus.fdo.requestQueue

/-- **What a move does to the IRPs that are not completed.** -/
inductive CustodyEntry (b : Bus) (pc : Pc) (b' : Bus) (pc' : Pc) : Prop
  | keep (hand : pc'.custody = pc.custody)
      (queue : b'.fdo.requestQueue = b.fdo.requestQueue)
      (pending : ∀ x, b'.Pending x ↔ b.Pending x)
  | arrive (r : RqId) (new : (b.requests r).arrived = false)
      (hand : pc.custody = [] ∧ pc'.custody = [r])
      (queue : b'.fdo.requestQueue = b.fdo.requestQueue)
      (pending : ∀ x, b'.Pending x ↔ (x = r ∧ (b.requests r).completed = false) ∨ b.Pending x)
  | enqueue (r : RqId) (hand : pc.custody = [r] ∧ pc'.custody = [])
      (queue : b'.fdo.requestQueue = b.fdo.requestQueue ++ [r])
      (pending : ∀ x, b'.Pending x ↔ b.Pending x)
  | dequeue (r : RqId) (hand : pc.custody = [] ∧ pc'.custody = [r])
      (mem : r ∈ b.fdo.requestQueue)
      (queue : b'.fdo.requestQueue = b.fdo.requestQueue.erase r)
      (pending : ∀ x, b'.Pending x ↔ b.Pending x)
  | complete (r : RqId) (hand : pc.custody = [r] ∧ pc'.custody = [])
      (queue : b'.fdo.requestQueue = b.fdo.requestQueue)
      (pending : ∀ x, b'.Pending x ↔ x ≠ r ∧ b.Pending x)
  | cancel (r : RqId) (place : pc = .csqCancelRequest r) (hand : pc'.custody = [])
      (queue : b'.fdo.requestQueue = b.fdo.requestQueue.erase r)
      (pending : ∀ x, b'.Pending x ↔ x ≠ r ∧ b.Pending x)

namespace Moves

/-- Every move makes one of these entries. -/
theorem custodyEntry (m : Moves t b a pc b' pc') : CustodyEntry b pc b' pc' := by
  cases m
  case' callGetRequest r file hr => refine .arrive r hr ⟨rfl, rfl⟩ rfl ?_
  case' startRequest p i r h => refine .dequeue r ⟨rfl, rfl⟩ (Bus.mem_of_peekRequest h) rfl ?_
  case' nextRequest p k r h => refine .dequeue r ⟨rfl, rfl⟩ (Bus.mem_of_peekRequest h) rfl ?_
  case' cleanupDrain file r h => refine .dequeue r ⟨rfl, rfl⟩ (Bus.mem_of_peekRequest h) rfl ?_
  case' startSetupFailed p i r h => refine .enqueue r ⟨rfl, rfl⟩ rfl ?_
  case' startSetupFailedCancelled p i r h => refine .complete r ⟨rfl, rfl⟩ rfl ?_
  case' startComplete p i r => refine .complete r ⟨rfl, rfl⟩ rfl ?_
  case' nextSetupFailed p r i k h => refine .enqueue r ⟨rfl, rfl⟩ rfl ?_
  case' nextSetupFailedCancelled p r i k h => refine .complete r ⟨rfl, rfl⟩ rfl ?_
  case' nextPutBack p r k h => refine .enqueue r ⟨rfl, Pc.custody_nextReturn k⟩ rfl ?_
  case' nextPutBackCancelled p r k h => refine .complete r ⟨rfl, Pc.custody_nextReturn k⟩ rfl ?_
  case' nextComplete r k => refine .complete r ⟨rfl, Pc.custody_nextReturn k⟩ rfl ?_
  case' getInsertDeleted r h => refine .complete r ⟨rfl, rfl⟩ rfl ?_
  case' getInsert r hd h => refine .enqueue r ⟨rfl, rfl⟩ rfl ?_
  case' getInsertCancelled r hd h => refine .complete r ⟨rfl, rfl⟩ rfl ?_
  case' cleanupDrained r file => refine .complete r ⟨rfl, rfl⟩ rfl ?_
  case' csqCancelRequest r => refine .cancel r rfl rfl rfl ?_
  all_goals try exact .keep rfl rfl fun _ => Iff.rfl
  all_goals try refine .keep ?_ rfl ?_
  all_goals first
    | rfl
    | exact Pc.custody_nextReturn _
    | exact Pc.custody_destroyReturn _
    | exact fun _ => Iff.rfl
    | (intro x; simp only [Bus.Pending]; simp [Function.update_apply]; done)
    | (intro x; simp only [Bus.Pending]; simp [Function.update_apply]; split <;> simp_all)

/-- **A GET_REQUEST IRP is written to by its owner**: as it comes in, while it is not completed, or
by a routine that has it. -/
theorem request_frame (m : Moves t b a pc b' pc') : b'.requests r = b.requests r ∨
    ((b.requests r).arrived = false ∧ (b'.requests r).arrived = true) ∨ b.Pending r ∨
    r ∈ b.fdo.requestQueue ∨ r ∈ pc.custody ∨ pc = .csqCancelRequest r := by
  by_cases hr : b.Pending r
  · exact .inr (.inr (.inl hr))
  cases m
  case callGetRequest x file hx =>
    by_cases hrx : r = x
    · exact .inr (.inl ⟨hrx ▸ hx, by simp [hrx]⟩)
    · exact .inl (by simp [hrx])
  case cancelRequestNone x ha hx _ | cancelRequestArmed x ha hx _ =>
    by_cases hrx : r = x
    · exact absurd (hrx ▸ ⟨ha, hx⟩) hr
    · exact .inl (by simp [hrx])
  case startRequest x h | nextRequest x h | cleanupDrain x h =>
    by_cases hrx : r = x
    · exact .inr (.inr (.inr (.inl (hrx ▸ Bus.mem_of_peekRequest h))))
    · exact .inl (by simp [hrx])
  case csqCancelRequest x =>
    by_cases hrx : r = x
    · exact .inr (.inr (.inr (.inr (.inr (hrx ▸ rfl)))))
    · exact .inl (by simp [hrx])
  case startSetup x | startSetupFailed x _ | startSetupFailedCancelled x _ | startComplete x |
      nextSetup x _ _ | nextSetupFailed x _ _ _ | nextSetupFailedCancelled x _ _ _ |
      nextPutBack x _ _ | nextPutBackCancelled x _ _ | nextComplete x _ | getInsertDeleted x _ |
      getInsert x _ _ | getInsertCancelled x _ _ | cleanupDrained x _ =>
    by_cases hrx : r = x
    · exact .inr (.inr (.inr (.inr (.inl (by simp [Pc.custody, hrx])))))
    · exact .inl (by simp [hrx])
  all_goals exact .inl rfl

/-- **The queue's cancel routine is registered** when the IRP is queued, and stays so while it is on
the queue. -/
theorem arms (m : Moves t b a pc b' pc') (hr : (b'.requests r).armed = true) :
    (r ∈ pc.custody ∧ r ∈ b'.fdo.requestQueue) ∨
    (pc = .csqCancelRequest r ∧ (b.requests r).armed = true) ∨
    ((b.requests r).armed = true ∧ (r ∈ b.fdo.requestQueue → r ∈ b'.fdo.requestQueue)) := by
  cases m
  case startSetupFailed x _ | nextSetupFailed x _ _ _ | nextPutBack x _ _ | getInsert x _ _ =>
    by_cases hrx : r = x
    · exact .inl (by simp [Pc.custody, hrx])
    · exact .inr (.inr ⟨by simpa [hrx] using hr, by simp +contextual⟩)
  case startRequest x _ | nextRequest x _ | cleanupDrain x _ =>
    by_cases hrx : r = x
    · simp [hrx] at hr
    · exact .inr (.inr ⟨by simpa [hrx] using hr, by simp [List.mem_erase_of_ne hrx]⟩)
  case csqCancelRequest x =>
    by_cases hrx : r = x
    · exact .inr (.inl ⟨hrx ▸ rfl, by simpa [hrx] using hr⟩)
    · exact .inr (.inr ⟨by simpa [hrx] using hr, by simp [List.mem_erase_of_ne hrx]⟩)
  all_goals
    right
    right
    first
    | exact ⟨hr, id⟩
    | (simp [Function.update_apply] at hr ⊢
       first | exact ⟨hr, id⟩ | (split at hr <;> simp_all))

/-- An IRP leaves the queue when it is taken from it, or withdrawn. -/
theorem stays_queued (m : Moves t b a pc b' pc') (hr : r ∈ b.fdo.requestQueue) :
    r ∈ b'.fdo.requestQueue ∨ pc = .csqCancelRequest r ∨
    ((b.requests r).armed = true ∧ r ∈ pc'.custody) := by
  cases m
  case startRequest x h | nextRequest x h | cleanupDrain x h =>
    by_cases hrx : r = x
    · subst hrx
      have harmed := List.find?_some h
      simp only [Bool.and_eq_true] at harmed
      exact .inr (.inr ⟨harmed.1, List.mem_singleton_self _⟩)
    · exact .inl (by simpa [List.mem_erase_of_ne hrx] using hr)
  case csqCancelRequest x =>
    by_cases hrx : r = x
    · exact .inr (.inl (hrx ▸ rfl))
    · exact .inl (by simpa [List.mem_erase_of_ne hrx] using hr)
  all_goals
    left
    first
    | exact hr
    | simp [hr]

/-- An IRP is queued with the queue's cancel routine. -/
theorem queues_request (m : Moves t b a pc b' pc') (hr : r ∈ b'.fdo.requestQueue) :
    r ∈ b.fdo.requestQueue ∨ (b'.requests r).armed = true := by
  cases m
  case startSetupFailed x _ | nextSetupFailed x _ _ _ | nextPutBack x _ _ | getInsert x _ _ =>
    by_cases hrx : r = x
    · exact .inr (by simp [hrx])
    · exact .inl (by simpa [hrx] using hr)
  case startRequest x _ | nextRequest x _ | cleanupDrain x _ | csqCancelRequest x =>
    exact .inl (List.mem_of_mem_erase hr)
  all_goals exact .inl hr

/-- An IRP on the queue loses its cancel routine to the thread that takes it, or that withdraws
it. -/
theorem disarms (m : Moves t b a pc b' pc') (hr : (b.requests r).armed = true) :
    (b'.requests r).armed = true ∨ r ∈ pc'.custody ∨ pc' = .csqCancelRequest r := by
  cases m
  case startRequest x _ | nextRequest x _ | cleanupDrain x _ | cancelRequestArmed x _ _ _ =>
    by_cases hrx : r = x
    · exact .inr (by simp [Pc.custody, hrx])
    · exact .inl (by simpa [hrx] using hr)
  all_goals
    left
    first
    | exact hr
    | (simp [Function.update_apply]; split <;> simp_all)

/-- The IRP is withdrawn through its cancel routine. -/
theorem withdrawing (m : Moves t b a pc b' pc') (hpc : pc' = .csqCancelRequest r) :
    (b.requests r).armed = true ∧ (b'.requests r).armed = false ∧ b'.fdo = b.fdo := by
  cases m
  case cancelRequestArmed x _ _ hx =>
    cases hpc
    exact ⟨hx, by simp, rfl⟩
  all_goals first
    | cases hpc
    | (rename NextCaller => k; cases k <;> cases hpc)
    | (rename DestroyCaller => k; cases k <;> cases hpc)

/-- **An IRP is completed** with success by the thread that filled it, and otherwise before it is
filled. -/
theorem completes (m : Moves t b a pc b' pc') (hr : (b'.requests r).completed = true) :
    (b.requests r).completed = true ∨
    ((b'.requests r).systemBuffer = (b.requests r).systemBuffer ∧
      ((pc.completing = some r ∧ (b'.requests r).status = statusSuccess) ∨
        ((b'.requests r).status ≠ statusSuccess ∧
          (r ∈ pc.rqHand ∨ pc = .csqCancelRequest r)))) := by
  cases m
  case startComplete x | nextComplete x _ =>
    by_cases hrx : r = x
    · exact .inr ⟨by simp [hrx], .inl ⟨by simp [Pc.completing, hrx], by simp [hrx]⟩⟩
    · exact .inl (by simpa [hrx] using hr)
  case startSetupFailedCancelled x _ | nextSetupFailedCancelled x _ _ _ |
      nextPutBackCancelled x _ _ | getInsertDeleted x _ | getInsertCancelled x _ _ |
      cleanupDrained x _ =>
    by_cases hrx : r = x
    · exact .inr ⟨by simp [hrx], .inr ⟨by simp [hrx, statusSuccess, statusCancelled,
        statusNoSuchDevice], .inl (by simp [Pc.rqHand, hrx])⟩⟩
    · exact .inl (by simpa [hrx] using hr)
  case csqCancelRequest x =>
    by_cases hrx : r = x
    · exact .inr ⟨by simp [hrx], .inr ⟨by simp [hrx, statusSuccess, statusCancelled],
        .inr (hrx ▸ rfl)⟩⟩
    · exact .inl (by simpa [hrx] using hr)
  all_goals
    left
    first
    | exact hr
    | (simp [Function.update_apply] at hr
       first | exact hr | (split at hr <;> simp_all))

end Moves

/-! ## The invariant -/

namespace Driver

variable {s s' : Driver} {C : Driver → Action → Prop}

/-- The ledger accounts for the IRPs that are not completed.  One on the queue has the queue's
cancel routine registered, or is being withdrawn by the thread that took it out. -/
structure Custody (s : Driver) : Prop where
  ledger : Accounts s.bus.Pending s.custody
  fresh : ∀ r, (s.bus.requests r).arrived = false →
    (s.bus.requests r).completed = false ∧ (s.bus.requests r).armed = false
  armed : ∀ r, (s.bus.requests r).armed = true → r ∈ s.bus.fdo.requestQueue
  queued : ∀ r ∈ s.bus.fdo.requestQueue, (s.bus.requests r).armed = true ∨
    ∃ t, s.calls t = .csqCancelRequest r
  withdrawing : ∀ t r, s.calls t = .csqCancelRequest r →
    r ∈ s.bus.fdo.requestQueue ∧ (s.bus.requests r).armed = false
  withdrawnOnce : ∀ t t' r, s.calls t = .csqCancelRequest r → s.calls t' = .csqCancelRequest r →
    t = t'

/-- The ledger after a move, place by place. -/
theorem custody_put {c : RqOwner → List RqId} (hand : (pc'.custody).Perm (c (.hand t)))
    (hands : ∀ t₂, t₂ ≠ t → ((s.calls t₂).custody).Perm (c (.hand t₂)))
    (queue : (b'.fdo.requestQueue).Perm (c .queue)) :
    ∀ k, ((s.put t (b', pc')).custody k).Perm (c k)
  | .hand t₂ =>
    forall_update (L := fun t₂ (pc : Pc) => (pc.custody).Perm (c (.hand t₂))) hand hands t₂
  | .queue => queue

/-- **The entry of a move, in the ledger.** -/
theorem Custody.ledger_move (h : s.Custody) (m : Moves t s.bus a (s.calls t) b' pc') :
    Accounts b'.Pending (s.put t (b', pc')).custody := by
  have hhand : s.custody (.hand t) = (s.calls t).custody := rfl
  cases m.custodyEntry with
  | keep hh hq hp =>
    refine h.ledger.frame hp (custody_put ?_ ?_ ?_)
    all_goals simp [custody, hh, hq]
  | arrive r hr hh hq hp =>
    have hnew : ¬ s.bus.Pending r := fun hpend => by simp [hpend.1] at hr
    have hiff : ∀ x, b'.Pending x ↔ x = r ∨ s.bus.Pending x := by
      intro x
      rw [hp x]
      exact or_congr_left ⟨And.left, fun hx => ⟨hx, (h.fresh r hr).1⟩⟩
    refine (h.ledger.receive hnew (.hand t)).frame hiff (custody_put ?_ ?_ ?_)
    all_goals simp +contextual [receive, custody, hh, hq]
  | enqueue r hh hq hp =>
    have hr : r ∈ s.custody (.hand t) := by simp [hhand, hh]
    refine (h.ledger.transfer hr .queue).frame hp (custody_put ?_ ?_ ?_)
    all_goals simp +contextual [transfer, receive, release, custody, hh, hq]
  | dequeue r hh hr hq hp =>
    have hr : r ∈ s.custody .queue := hr
    refine (h.ledger.transfer hr (.hand t)).frame hp (custody_put ?_ ?_ ?_)
    all_goals simp +contextual [transfer, receive, release, custody, hh, hq]
  | complete r hh hq hp =>
    have hr : r ∈ s.custody (.hand t) := by simp [hhand, hh]
    refine (h.ledger.release hr).frame hp (custody_put ?_ ?_ ?_)
    all_goals simp +contextual [release, custody, hh, hq]
  | cancel r hpc hh hq hp =>
    have hr : r ∈ s.custody .queue := (h.withdrawing t r hpc).1
    refine (h.ledger.release hr).frame hp (custody_put ?_ ?_ ?_)
    · rw [hh]
      simp [release, hhand, hpc, Pc.custody]
    all_goals simp +contextual [release, custody, hq]

/-- An IRP in a thread's hands is neither on the queue nor being withdrawn. -/
theorem Custody.of_hand (h : s.Custody) (hr : r ∈ (s.calls t).custody) :
    r ∉ s.bus.fdo.requestQueue ∧ ∀ t₂, s.calls t₂ ≠ .csqCancelRequest r := by
  have hr : r ∈ s.custody (.hand t) := hr
  have hq : r ∉ s.custody .queue := fun hq => by cases h.ledger.unique hr hq
  exact ⟨hq, fun t₂ ht₂ => hq (h.withdrawing t₂ r ht₂).1⟩

/-- **A move keeps the custody.** -/
theorem Custody.move (h : s.Custody) (m : Moves t s.bus a (s.calls t) b' pc') :
    (s.put t (b', pc')).Custody where
  ledger := h.ledger_move m
  fresh r hr := by
    have hr : (b'.requests r).arrived = false := hr
    have hold : (s.bus.requests r).arrived = false := by
      by_contra harr
      rw [m.request_arrived (Bool.not_eq_false _ ▸ harr)] at hr
      cases hr
    have hnone : ¬ s.bus.Pending r := fun hp => by simp [hp.1] at hold
    have hheld : ∀ k, r ∉ s.custody k := fun k hk => hnone ((h.ledger.covers r).mpr ⟨k, hk⟩)
    rcases m.request_frame (r := r) with heq | ⟨-, hnew⟩ | hp | hq | hc | hpc
    · show (b'.requests r).completed = false ∧ (b'.requests r).armed = false
      rw [heq]
      exact h.fresh r hold
    · rw [hr] at hnew
      cases hnew
    · exact absurd hp hnone
    · exact absurd hq (hheld .queue)
    · exact absurd hc (hheld (.hand t))
    · exact absurd (h.withdrawing t r hpc).1 (hheld .queue)
  armed r hr := by
    rcases m.arms hr with ⟨-, hq⟩ | ⟨hpc, harmed⟩ | ⟨harmed, hkeep⟩
    · exact hq
    · rw [(h.withdrawing t r hpc).2] at harmed
      cases harmed
    · exact hkeep (h.armed r harmed)
  queued r hr := by
    have hr' : r ∈ (s.put t (b', pc')).custody .queue := hr
    have hhand : r ∉ pc'.custody := by
      intro hc
      have hc' : r ∈ (s.put t (b', pc')).custody (.hand t) := by
        simpa only [custody, put_calls_self] using hc
      cases (h.ledger_move m).unique hr' hc'
    rcases m.queues_request hr with hq | harmed
    · rcases h.queued r hq with harmed | ⟨t₂, ht₂⟩
      · rcases m.disarms harmed with harmed | hc | hpc
        · exact .inl harmed
        · exact absurd hc hhand
        · exact .inr ⟨t, by rw [put_calls_self, hpc]⟩
      · rcases eq_or_ne t₂ t with rfl | hne
        · rw [ht₂] at m
          cases m
          exact absurd hr (List.Nodup.not_mem_erase (h.ledger.nodup .queue))
        · exact .inr ⟨t₂, (put_calls_of_ne s hne _).trans ht₂⟩
    · exact .inl harmed
  withdrawing := by
    refine forall_update (L := fun _ (pc : Pc) => ∀ r, pc = .csqCancelRequest r →
      r ∈ b'.fdo.requestQueue ∧ (b'.requests r).armed = false) ?_ ?_
    · intro r hpc
      obtain ⟨harmed, hnot, hfdo⟩ := m.withdrawing hpc
      exact ⟨hfdo ▸ h.armed r harmed, hnot⟩
    · intro t₂ hne r ht₂
      obtain ⟨hq, hnot⟩ := h.withdrawing t₂ r ht₂
      have hpc : s.calls t ≠ .csqCancelRequest r := fun ht =>
        hne (h.withdrawnOnce t₂ t r ht₂ ht)
      constructor
      · rcases m.stays_queued hq with hq | ht | ⟨harmed, -⟩
        · exact hq
        · exact absurd ht hpc
        · rw [hnot] at harmed
          cases harmed
      · by_contra harmed
        rcases m.arms (Bool.not_eq_false _ ▸ harmed) with ⟨hc, -⟩ | ⟨ht, -⟩ | ⟨harmed, -⟩
        · exact (h.of_hand hc).1 hq
        · exact hpc ht
        · rw [hnot] at harmed
          cases harmed
  withdrawnOnce := by
    have hnew : ∀ t₂ r, s.calls t₂ = .csqCancelRequest r → pc' ≠ .csqCancelRequest r := by
      intro t₂ r ht₂ hpc
      have hnot := (h.withdrawing t₂ r ht₂).2
      rw [(m.withdrawing hpc).1] at hnot
      cases hnot
    intro t₁ t₂ r ht₁ ht₂
    rcases eq_or_ne t₁ t with rfl | hne₁
    · rw [put_calls_self] at ht₁
      by_contra hne
      rw [put_calls_of_ne s (Ne.symm hne)] at ht₂
      exact hnew t₂ r ht₂ ht₁
    · rw [put_calls_of_ne s hne₁] at ht₁
      rcases eq_or_ne t₂ t with rfl | hne₂
      · rw [put_calls_self] at ht₂
        exact absurd ht₂ (hnew t₁ r ht₁)
      · rw [put_calls_of_ne s hne₂] at ht₂
        exact h.withdrawnOnce t₁ t₂ r ht₁ ht₂

/-- **Every GET_REQUEST IRP is in custody until it is completed**, in every state reached. -/
theorem rqCustody (h : lts.Reach C s) : s.Custody := by
  refine h.invariant (I := Custody) ⟨.empty ?_ ?_, ?_, ?_, ?_, ?_, ?_⟩ fun s a s' _ hi _ hs => ?_
  · rintro (t | _) <;> rfl
  · rintro r ⟨hr, -⟩
    cases hr
  · exact fun _ _ => ⟨rfl, rfl⟩
  · intro r hr
    cases hr
  · intro r hr
    cases hr
  · intro t r ht
    cases ht
  · intro t t' r ht
    cases ht
  · rcases step_moves hs with ⟨t, b', pc', m, rfl⟩ | ⟨m, f, -, rfl⟩ | ⟨e, -, -, rfl⟩
    · exact hi.move m
    · exact ⟨hi.1, hi.2, hi.3, hi.4, hi.5, hi.6⟩
    · exact ⟨hi.1, hi.2, hi.3, hi.4, hi.5, hi.6⟩

/-! ## What becomes of an IRP -/

/-- **A completed IRP is not written to any more.** -/
theorem Custody.settled (h : s.Custody) (hr : (s.bus.requests r).completed = true)
    (hs : s.step a = some s') : s'.bus.requests r = s.bus.requests r := by
  have hnone : ¬ s.bus.Pending r := fun hp => by simp [hp.2] at hr
  have hheld : ∀ k, r ∉ s.custody k := fun k hk => hnone ((h.ledger.covers r).mpr ⟨k, hk⟩)
  rcases step_moves hs with ⟨t, b', pc', m, rfl⟩ | ⟨m, f, -, rfl⟩ | ⟨e, -, -, rfl⟩
  · rcases m.request_frame (r := r) with heq | ⟨hnew, -⟩ | hp | hq | hc | hpc
    · exact heq
    · rw [(h.fresh r hnew).1] at hr
      cases hr
    · exact absurd hp hnone
    · exact absurd hq (hheld .queue)
    · exact absurd hc (hheld (.hand t))
    · exact absurd (h.withdrawing t r hpc).1 (hheld .queue)
  · rfl
  · rfl

/-- **A GET_REQUEST IRP is filled or it failed.** -/
theorem status_iff (h : lts.Reach C s) :
    ∀ r, (s.bus.requests r).completed = true →
      ((s.bus.requests r).status = statusSuccess ↔ (s.bus.requests r).systemBuffer ≠ none) := by
  refine h.invariant (I := fun s => ∀ r, (s.bus.requests r).completed = true →
    ((s.bus.requests r).status = statusSuccess ↔ (s.bus.requests r).systemBuffer ≠ none)) ?_ ?_
  · intro r hr
    cases hr
  · intro s a s' hreach hi _ hs r hr
    by_cases hold : (s.bus.requests r).completed = true
    · rw [(rqCustody hreach).settled hold hs]
      exact hi r hold
    have hfilled := (fills hreach).completing
    have howned := rqOwned hreach
    rcases step_moves hs with ⟨t, b', pc', m, rfl⟩ | ⟨m, f, -, rfl⟩ | ⟨e, -, -, rfl⟩
    · show (b'.requests r).status = statusSuccess ↔ (b'.requests r).systemBuffer ≠ none
      rcases m.completes hr with hc | ⟨hbuf, ⟨hc, hst⟩ | ⟨hst, hhand⟩⟩
      · exact absurd hc hold
      · rw [hbuf]
        exact iff_of_true hst (hfilled t r hc)
      · rw [hbuf]
        refine iff_of_false hst ?_
        rw [howned.filled r]
        intro hf
        have hf : r ∈ s.holdsRq .filled := hf
        rcases hhand with hhand | hpc
        · have hhand : r ∈ s.holdsRq (.hand t) := hhand
          cases howned.ledger.unique hf hhand
        · have hq : r ∈ s.holdsRq .queue := ((rqCustody hreach).withdrawing t r hpc).1
          cases howned.ledger.unique hf hq
    · exact absurd hr hold
    · exact absurd hr hold

/-- **One owner, one completion, for every GET_REQUEST IRP**, whatever is cancelled and whatever
fails.  It is pending exactly while it is on the queue or in the hands of one routine; when it is
completed it has a request or an error, and nothing writes to it again. -/
theorem one_custodian (h : lts.Reachable s) :
    (∀ r, s.bus.Pending r ↔ ∃! k, r ∈ s.custody k) ∧
    (∀ k, (s.custody k).Nodup) ∧
    (∀ r, (s.bus.requests r).completed = true →
      ((s.bus.requests r).status = statusSuccess ↔ (s.bus.requests r).systemBuffer ≠ none) ∧
      ∀ a s', s.step a = some s' → s'.bus.requests r = s.bus.requests r) := by
  have hc := rqCustody h
  refine ⟨fun r => ⟨fun hr => ?_, fun hk => ?_⟩, hc.ledger.nodup, fun r hr => ⟨?_, ?_⟩⟩
  · obtain ⟨k, hk⟩ := (hc.ledger.covers r).mp hr
    exact ⟨k, hk, fun k' hk' => hc.ledger.unique hk' hk⟩
  · exact (hc.ledger.covers r).mpr hk.exists
  · exact status_iff h r hr
  · exact fun a s' hs => hc.settled hr hs

/-- A GET_REQUEST that is cancelled on the queue, and one that brings a request. -/
theorem one_custodian_cancelled : ∃ s, lts.Reachable s ∧
    (s.bus.requests 0).status = statusSuccess ∧ (s.bus.requests 1).status = statusCancelled ∧
    (∀ r, s.bus.Pending r ↔ ∃! k, r ∈ s.custody k) ∧
    (∀ k, (s.custody k).Nodup) ∧
    (∀ r, (s.bus.requests r).completed = true →
      ((s.bus.requests r).status = statusSuccess ↔ (s.bus.requests r).systemBuffer ≠ none) ∧
      ∀ a s', s.step a = some s' → s'.bus.requests r = s.bus.requests r) := by
  obtain ⟨s, hs, -, hgot, -, hcancelled⟩ := Lts.exists_reachable (T := lts)
    (startedRun ++ routine (.sys 1) (.getRequest 1 0) 4 ++
      .cancelRequest (.sys 2) 1 :: steps (.sys 2) 1)
    (fun s => (s.bus.requests 0).completed = true ∧ (s.bus.requests 0).status = statusSuccess ∧
      (s.bus.requests 1).completed = true ∧ (s.bus.requests 1).status = statusCancelled)
    (by decide +kernel)
  exact ⟨s, hs, hgot, hcancelled, one_custodian hs⟩

end Driver

end VirtualDisk
