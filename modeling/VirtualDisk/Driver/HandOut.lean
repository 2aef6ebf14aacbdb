import VirtualDisk.Driver.Drain
import VirtualDisk.Driver.Regular
import VirtualDisk.Machinery.Trace

/-!
# Driver/HandOut — the order in which a disk's requests are handed out

In a regular run the life of an IRP is four events: it arrives, `BusSetupRequest` hands its request
out, `Bus_ProcessReply` takes the reply for it, and it is completed.  Each follows the one before it
in the trace, and a request is handed out once; so the order of the hand-outs is an order of the
disk's requests in which each stands between its arrival and its completion.
-/

namespace VirtualDisk

open Machinery

variable {t : Tid} {a : Action} {b b' : Bus} {pc pc' : Pc} {p q : PdoId} {i j : IrpId} {r : RqId}

/-! ## Hand-outs -/

/-- The IRP whose request was handed out for the disk. -/
def Event.handedTo (p : PdoId) : Event → Option IrpId
  | .deliver q _ i _ _ => if q = p then some i else none
  | _ => none

/-- **The IRPs of the disk whose requests were handed out**, the latest first. -/
def Bus.handedOut (b : Bus) (p : PdoId) : List IrpId := b.trace.filterMap (Event.handedTo p)

/-- **The IRPs that were sent to the disk**, the latest first. -/
def Bus.dispatched (b : Bus) (p : PdoId) : List IrpId :=
  b.trace.filterMap fun
    | .arrive q i => if q = p then some i else none
    | _ => none

/-- **What an event of a regular run follows**: an IRP arrives once, its request is handed out once,
after that, a reply is taken for a request that was handed out, and an IRP is completed when its
reply is. -/
def Event.Follows : Event → List Event → Prop
  | .arrive _ i, es => ∀ q, .arrive q i ∉ es
  | .deliver p _ i _ _, es => .arrive p i ∈ es ∧ i ∉ es.filterMap (handedTo p)
  | .accept p i _, es => i ∈ es.filterMap (handedTo p)
  | .complete i, es => ∃ p rep, .accept p i rep ∈ es
  | _, _ => True

/-- What was handed out had arrived. -/
theorem Event.arrive_of_handedTo {es : List Event} (h : Justified Event.Follows es)
    (hi : i ∈ es.filterMap (Event.handedTo p)) : .arrive p i ∈ es := by
  obtain ⟨e, he, heq⟩ := List.mem_filterMap.mp hi
  cases e with
  | deliver q r k rq data =>
    simp only [Event.handedTo] at heq
    split at heq
    · next hqp =>
      subst hqp
      obtain rfl := Option.some.inj heq
      obtain ⟨older, hsub, hf⟩ := h.of_mem he
      exact hsub hf.1
    · cases heq
  | _ => cases heq

/-- A reply is taken for what was handed out. -/
theorem Event.handedTo_of_accept {es : List Event} {rep : Tagged BusenumReply}
    (h : Justified Event.Follows es) (he : .accept p i rep ∈ es) :
    i ∈ es.filterMap (Event.handedTo p) := by
  obtain ⟨older, hsub, hf⟩ := h.of_mem he
  obtain ⟨e, he, heq⟩ := List.mem_filterMap.mp hf
  exact List.mem_filterMap.mpr ⟨e, hsub he, heq⟩

/-- What is completed was answered. -/
theorem Event.accept_of_complete {es : List Event} (h : Justified Event.Follows es)
    (he : .complete i ∈ es) : ∃ p rep, .accept p i rep ∈ es := by
  obtain ⟨older, hsub, p, rep, hacc⟩ := h.of_mem he
  exact ⟨p, rep, hsub hacc⟩

/-- An event that is about no current IRP hands nothing out. -/
theorem Event.handedTo_of_isQuiet {e : Event} (h : e.isQuiet = true) : e.handedTo p = none := by
  cases e <;> first | rfl | cases h

namespace Exchange

/-- **What an exchange does to the hand-outs of a disk.** -/
theorem handedOut (e : Exchange t a b pc b') :
    (b'.handedOut p = b.handedOut p ∧
      ∀ i, (b'.pdos p).currentIrp = some i → (b.pdos p).currentIrp = some i) ∨
    ∃ i, b'.handedOut p = i :: b.handedOut p ∧ (b'.pdos p).currentIrp = some i ∧
      pc.starts = some p ∧ a = .step t true := by
  unfold Bus.handedOut
  cases e with
  | same hc ht => exact .inl ⟨by rw [ht], fun i hi => (hc p).symm.trans hi⟩
  | note e hq hc ht =>
    exact .inl ⟨by rw [ht, List.filterMap_cons_none (Event.handedTo_of_isQuiet hq)],
      fun i hi => (hc p).symm.trans hi⟩
  | deliver q r i rq data copies hs ha hcopies hc ht =>
    by_cases hqp : q = p
    · subst hqp
      refine .inr ⟨i, ?_, by rw [hc, if_pos rfl], hs, ha⟩
      rcases hcopies with rfl | ⟨n, rfl⟩ <;> simp [ht, Event.handedTo, List.filterMap_cons]
    · refine .inl ⟨?_, fun j hj => ?_⟩
      · rcases hcopies with rfl | ⟨n, rfl⟩ <;> simp [ht, Event.handedTo, List.filterMap_cons, hqp]
      · rwa [hc, if_neg (Ne.symm hqp)] at hj
  | accept q i rep copies hi hcopies hc ht =>
    refine .inl ⟨?_, fun j hj => ?_⟩
    · rcases hcopies with rfl | ⟨n, rfl⟩ <;> simp [ht, Event.handedTo, List.filterMap_cons]
    · rw [hc] at hj
      split at hj
      · cases hj
      · exact hj
  | destroyCancel q i hi hd hc ht =>
    refine .inl ⟨by simp [ht, Event.handedTo, List.filterMap_cons], fun j hj => ?_⟩
    rw [hc] at hj
    split at hj
    · cases hj
    · exact hj

end Exchange

namespace Moves

/-- **The SRB of an IRP that arrived changes** when the reply to it is taken. -/
theorem srb (m : Moves t b a pc b' pc') (hi : (b.irps i).arrived = true) :
    (b'.irps i).srb = (b.irps i).srb ∨
    ∃ p rep, pc = .replyTake p rep ∧ (b.pdos p).currentIrp = some i ∧
      (b.irps i).cancel = false ∧ b' = b.acceptAnswer p i rep := by
  cases m
  case callScsi j _ _ _ hj =>
    have hne : i ≠ j := by
      rintro rfl
      cases hj.symm.trans hi
    exact .inl (by simp [hne])
  case replyTake p rep j _ hj hc =>
    by_cases hij : i = j
    · subst hij
      exact .inr ⟨p, rep, rfl, hj, hc, rfl⟩
    · exact .inl (by simp [hij])
  all_goals
    left
    simp [Function.update_apply]
  all_goals split <;> simp_all

/-- **An IRP that is not a READ keeps its data.** -/
theorem dataBuffer (m : Moves t b a pc b' pc') (hi : (b.irps i).arrived = true)
    (hop : (b.irps i).srb.cdb.operationCode ≠ scsiopRead) :
    (b'.irps i).srb.dataBuffer = (b.irps i).srb.dataBuffer ∧
    (b'.irps i).srb.dataTransferLength = (b.irps i).srb.dataTransferLength := by
  rcases m.srb hi with heq | ⟨p, rep, -, -, -, rfl⟩
  · rw [heq]
    exact ⟨rfl, rfl⟩
  · simp [replyData_of_ne hop]

/-- No disk is drained in a regular run. -/
theorem drained_of_regular (m : Moves t b a pc b' pc') (hpc : pc.regular = true)
    (hp : (b.pdos p).drained = false) : (b'.pdos p).drained = false := by
  cases m
  all_goals first
    | (cases hpc; done)
    | exact hp
    | skip
  all_goals simp [Function.update_apply]
  all_goals split <;> simp_all [Bus.newPdo]

/-- A reply is taken in one step with its record. -/
theorem recorded (m : Moves t b a pc b' pc') (hpc : pc' = .replyComplete p i) :
    ∃ rep, .accept p i rep ∈ b'.trace := by
  cases m
  case replyTakeCancelled q rep j _ _ _ | replyTake q rep j _ _ _ =>
    cases hpc
    exact ⟨rep, List.mem_cons_self⟩
  all_goals first
    | cases hpc
    | (rename NextCaller => k; cases k <;> cases hpc)
    | (rename DestroyCaller => k; cases k <;> cases hpc)

/-- The IRP is then completed. -/
theorem of_replyComplete (m : Moves t b a (.replyComplete p i) b' pc') : i ∈ b'.completed := by
  cases m
  simp [Bus.completed]

/-- A reply that is taken completes an IRP, when there is one. -/
theorem answers_current {rep : Tagged BusenumReply} (m : Moves t b a (.replyTake p rep) b' pc')
    (hi : (b.pdos p).currentIrp = some i) : pc' = .replyComplete p i := by
  cases m with
  | replyTakeNone _ hc => cases hi.symm.trans hc
  | replyTakeCancelled _ hc | replyTake _ hc =>
    cases hi.symm.trans hc
    rfl

/-- `Bus_Scsi` ends with STATUS_PENDING in a regular run. -/
theorem pending_of_regular {status : NTSTATUS} (m : Moves t b a pc b' pc') (hpc : pc.regular = true)
    (hd : ∀ p, (b.pdos p).devicePnPState ≠ .deleted) (hend : pc' = .scsiEnd p i status) :
    status = statusPending := by
  cases m
  case busScsiDeleted h => exact absurd h (hd _)
  all_goals first
    | (cases hpc; done)
    | (cases hend; done)
    | (cases hend; rfl)
    | (rename NextCaller => k; cases k <;> cases hend)

/-- **The events of a regular move follow what they must.** -/
theorem follows (m : Moves t b a pc b' pc') (ha : pc.allows a = true) (hpc : pc.regular = true)
    (hstart : ∀ p i, pc.starts = some p → pc.bears = some (p, i) →
      .arrive p i ∈ b.trace ∧ i ∉ b.handedOut p)
    (hcurrent : ∀ p i, (b.pdos p).currentIrp = some i → i ∈ b.handedOut p)
    (hdone : ∀ p i, pc = .replyComplete p i → ∃ rep, .accept p i rep ∈ b.trace)
    (hend : ∀ p i status, pc = .scsiEnd p i status → status = statusPending)
    (hcancel : ∀ i, (b.irps i).cancel = false)
    (harrived : ∀ p i, .arrive p i ∈ b.trace → (b.irps i).arrived = true)
    (h : Justified Event.Follows b.trace) : Justified Event.Follows b'.trace := by
  cases m
  case callScsi p i srb _ _ hi =>
    refine .cons (fun q hq => ?_) h
    cases hi.symm.trans (harrived q i hq)
  case scsiEnd p i status hs => exact absurd (hend p i status rfl) hs
  case startInsertCancelled i hc => cases hc.symm.trans (hcancel i)
  case startSetup p i r | nextSetup p r i k =>
    have hi := hstart p i rfl rfl
    simp only [Bus.startIrp_trace]
    split
    · refine .cons ?_ (.cons trivial h)
      exact ⟨List.mem_cons_of_mem _ hi.1, hi.2⟩
    · exact .cons hi h
  case replyTakeCancelled p rep i _ hi _ => exact .cons (hcurrent p i hi) h
  case replyTake p rep i _ hi _ =>
    simp only [Bus.acceptAnswer_trace]
    split
    · exact .cons (hcurrent p i hi) (.cons trivial h)
    · exact .cons (hcurrent p i hi) h
  case replyComplete p i => exact .cons ⟨p, hdone p i rfl⟩ h
  all_goals first
    | (cases ha; done)
    | (cases hpc; done)
    | exact h
    | exact .cons trivial h

end Moves

/-! ## The order -/

namespace Driver

variable {s s' : Driver}

/-- **The order of the events**, and where the IRPs are that it is about. -/
structure InOrder (s : Driver) : Prop where
  follows : Justified Event.Follows s.bus.trace
  current : ∀ p i, (s.bus.pdos p).currentIrp = some i → ∃ is, s.bus.handedOut p = i :: is
  past : ∀ p, ∀ i ∈ s.bus.handedOut p, (s.bus.pdos p).currentIrp = some i ∨
    ∃ rep, .accept p i rep ∈ s.bus.trace
  accepted : ∀ p i rep, .accept p i rep ∈ s.bus.trace →
    i ∈ s.bus.completed ∨ ∃ t, s.calls t = .replyComplete p i
  completing : ∀ t p i, s.calls t = .replyComplete p i → ∃ rep, .accept p i rep ∈ s.bus.trace
  pending : ∀ t p i status, s.calls t = .scsiEnd p i status → status = statusPending
  drained : ∀ p, (s.bus.pdos p).drained = false

/-- An IRP whose request was handed out is not about to be started. -/
theorem InOrder.not_mem_handedOut (h : s.InOrder) (ho : s.Owned)
    (hs : (s.calls t).starts = some p) (hi : i ∈ (s.calls t).hand) : i ∉ s.bus.handedOut p := by
  have hhand : i ∈ s.holds (.hand t) := hi
  intro hmem
  rcases h.past p i hmem with hcur | ⟨rep, hacc⟩
  · have hcur : i ∈ s.holds (.current p) := by simp [holds, Bus.holds, hcur]
    cases ho.ledger.unique hcur hhand
  · rcases h.accepted p i rep hacc with hdone | ⟨t', ht'⟩
    · have hdone : i ∈ s.holds .done := hdone
      cases ho.ledger.unique hdone hhand
    · have hhand' : i ∈ s.holds (.hand t') := by
        show i ∈ (s.calls t').hand
        rw [ht']
        exact List.mem_singleton_self _
      obtain rfl := Place.hand.inj (ho.ledger.unique hhand' hhand)
      rw [ht'] at hs
      cases hs

/-- An IRP whose request was handed out for a disk was sent to that disk. -/
theorem InOrder.arrive_of_mem (h : s.InOrder) (hi : i ∈ s.bus.handedOut p) :
    .arrive p i ∈ s.bus.trace := Event.arrive_of_handedTo h.follows hi

/-- An IRP is completed when a reply to it was taken. -/
theorem InOrder.accept_of_completed (h : s.InOrder) (hi : i ∈ s.bus.completed) :
    ∃ p rep, .accept p i rep ∈ s.bus.trace := by
  obtain ⟨e, he, heq⟩ := List.mem_filterMap.mp hi
  cases e with
  | complete j =>
    obtain rfl : j = i := by simpa using heq
    exact Event.accept_of_complete h.follows he
  | _ => simp at heq

/-- **What was completed before an IRP arrived was handed out before it.** -/
theorem InOrder.handedOut_before (h : s.InOrder) (hs : s.Sent) {newer older : List Event}
    (htrace : s.bus.trace = newer ++ .arrive p j :: older) (hdone : .complete i ∈ older)
    (hi : i ∈ s.bus.handedOut p) (hj : j ∈ s.bus.handedOut p) :
    ∃ later earlier, s.bus.handedOut p = later ++ earlier ∧ j ∈ later ∧ i ∈ earlier := by
  have hf : Justified Event.Follows (newer ++ .arrive p j :: older) := htrace ▸ h.follows
  have hold : Justified Event.Follows older := by
    cases hf.suffix with
    | cons _ hold => exact hold
  have hsplit : s.bus.handedOut p =
      newer.filterMap (Event.handedTo p) ++ older.filterMap (Event.handedTo p) := by
    rw [Bus.handedOut, htrace, List.filterMap_append, List.filterMap_cons_none rfl]
  refine ⟨_, _, hsplit, (List.mem_append.mp (hsplit ▸ hj)).resolve_right fun hj => ?_, ?_⟩
  · exact hf.of_append p (Event.arrive_of_handedTo hold hj)
  · obtain ⟨q, rep, hacc⟩ := Event.accept_of_complete hold hdone
    have hq := Event.handedTo_of_accept hold hacc
    have hmem : .arrive q i ∈ s.bus.trace :=
      htrace ▸ List.mem_append_right _ (List.mem_cons_of_mem _ (Event.arrive_of_handedTo hold hq))
    obtain rfl := hs.once q p i hmem (h.arrive_of_mem hi)
    exact hq

/-- An IRP whose reply was taken is no disk's current one. -/
theorem InOrder.not_current (h : s.InOrder) (ho : s.Owned) {rep : Tagged BusenumReply}
    (hacc : .accept p i rep ∈ s.bus.trace) : (s.bus.pdos q).currentIrp ≠ some i := by
  intro hcur
  have hcur : i ∈ s.holds (.current q) := by simp [holds, Bus.holds, hcur]
  rcases h.accepted p i rep hacc with hdone | ⟨t, ht⟩
  · have hdone : i ∈ s.holds .done := hdone
    cases ho.ledger.unique hcur hdone
  · have hhand : i ∈ s.holds (.hand t) := by
      show i ∈ (s.calls t).hand
      rw [ht]
      exact List.mem_singleton_self _
    cases ho.ledger.unique hcur hhand

/-- **A regular move keeps the order.** -/
theorem InOrder.move (h : s.InOrder) (hl : s.Linked) (hk : s.Locked) (ho : s.Owned)
    (hi : s.InService) (hsent : s.Sent) (hC : s.Regular a = true)
    (m : Moves t s.bus a (s.calls t) b' pc') : (s.put t (b', pc')).InOrder := by
  have ha : (s.calls t).allows a = true := by simpa [Regular, m.thread] using hC
  have hpc := hi.pc t
  have hdrained : ∀ p, (b'.pdos p).drained = false := fun p =>
    m.drained_of_regular hpc (h.drained p)
  have hcurrent : ∀ p i, (s.bus.pdos p).currentIrp = some i → i ∈ s.bus.handedOut p := by
    intro p i hcur
    obtain ⟨is, his⟩ := h.current p i hcur
    simp [his]
  have hex := fun p => (m.exchange (hl.new _ (Nat.le_refl _))).handedOut (p := p)
  refine ⟨?_, ?_, ?_, ?_, ?_, ?_, hdrained⟩
  · exact m.follows ha hpc
      (fun p i hs hb =>
        ⟨hsent.carried t p i hb, h.not_mem_handedOut ho hs (Pc.mem_hand_of_bears hb)⟩)
      hcurrent (h.completing t) (h.pending t) hi.irp hsent.arrived h.follows
  · intro p i hcur
    have hcur : (b'.pdos p).currentIrp = some i := hcur
    rcases hex p with ⟨hsame, hold⟩ | ⟨j, hnew, hj, -⟩
    · obtain ⟨is, his⟩ := h.current p i (hold i hcur)
      exact ⟨is, hsame.trans his⟩
    · obtain rfl := Option.some.inj (hj.symm.trans hcur)
      exact ⟨_, hnew⟩
  · intro p i hmem
    have hmem : i ∈ b'.handedOut p := hmem
    show (b'.pdos p).currentIrp = some i ∨ ∃ rep, .accept p i rep ∈ b'.trace
    rcases hex p with ⟨hsame, -⟩ | ⟨j, hnew, hj, hs, -⟩
    · rw [hsame] at hmem
      rcases h.past p i hmem with hcur | ⟨rep, hacc⟩
      · have hp : p < s.bus.pdoCount := by
          by_contra hp
          rw [hl.new p (Nat.not_lt.mp hp)] at hcur
          cases hcur
        rcases m.current_until hcur hp with hcur' | hd | ht | ⟨rep, ht⟩
        · exact .inl hcur'
        · cases hd.symm.trans (hdrained p)
        · cases hcur.symm.trans (hk.tested t p ht)
        · rw [ht] at m
          exact .inr (m.recorded (m.answers_current hcur))
      · exact .inr ⟨rep, m.trace_subset hacc⟩
    · rw [hnew] at hmem
      rcases List.mem_cons.mp hmem with rfl | hmem
      · exact .inl hj
      · rcases h.past p i hmem with hcur | ⟨rep, hacc⟩
        · cases hcur.symm.trans (hk.tested t p (Pc.tested_of_starts hs))
        · exact .inr ⟨rep, m.trace_subset hacc⟩
  · intro p i rep hacc
    rcases m.accepts hacc with hold | ⟨ht, hcur⟩
    · rcases h.accepted p i rep hold with hdone | ⟨t', ht'⟩
      · exact .inl (m.completed_subset hdone)
      · by_cases htt : t' = t
        · subst htt
          rw [ht'] at m
          exact .inl m.of_replyComplete
        · exact .inr ⟨t', (put_calls_of_ne s htt _).trans ht'⟩
    · rw [ht] at m
      exact .inr ⟨t, (put_calls_self ..).trans (m.answers_current hcur)⟩
  · refine forall_update (L := fun (_ : Tid) (pc : Pc) => ∀ p i, pc = .replyComplete p i →
      ∃ rep, .accept p i rep ∈ b'.trace) (fun p i => m.recorded) ?_
    intro t₂ _ p i ht₂
    obtain ⟨rep, hacc⟩ := h.completing t₂ p i ht₂
    exact ⟨rep, m.trace_subset hacc⟩
  · refine forall_update (L := fun _ (pc : Pc) => ∀ p i status, pc = .scsiEnd p i status →
      status = statusPending) ?_ fun t₂ _ => h.pending t₂
    exact fun p i status => m.pending_of_regular hpc fun p => (hi.pnp p).1

/-- **The events of a regular run are in order.** -/
theorem inOrder (h : lts.Reach (fun s a => s.Regular a = true) s) : s.InOrder := by
  refine h.invariant (I := InOrder) ?_ fun s a s' hr hi hC hs => ?_
  · refine ⟨.nil, ?_, ?_, ?_, ?_, ?_, fun _ => rfl⟩
    · intro p i hi
      cases hi
    · intro p i hi
      cases hi
    · intro p i rep hi
      cases hi
    · intro t p i hi
      cases hi
    · intro t p i status hi
      cases hi
  · rcases step_moves hs with ⟨t, b', pc', m, rfl⟩ | ⟨m, f, -, rfl⟩ | ⟨e, -, -, rfl⟩
    · have ho := owned (hr.mono fun _ _ _ _ h => keepsOwner_of_regular h)
      exact hi.move (linked hr) (locked hr) ho (inService hr) (sent hr) hC m
    · exact ⟨hi.1, hi.2, hi.3, hi.4, hi.5, hi.6, hi.7⟩
    · exact ⟨hi.1, hi.2, hi.3, hi.4, hi.5, hi.6, hi.7⟩

/-- A request is handed out once. -/
theorem InOrder.nodup (h : s.InOrder) (p : PdoId) : (s.bus.handedOut p).Nodup := by
  refine h.follows.nodup fun e es i hf he => ?_
  cases e with
  | deliver q r j rq data =>
    simp only [Event.handedTo] at he
    split at he
    · next hqp =>
      subst hqp
      obtain rfl := Option.some.inj he
      exact hf.2
    · cases he
  | _ => cases he

end Driver

end VirtualDisk
