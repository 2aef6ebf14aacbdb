import Mathlib.Algebra.BigOperators.Group.Finset.Sigma
import VirtualDisk.Machinery.Progress
import VirtualDisk.Driver.Progress
import VirtualDisk.Driver.Traversal

/-!
# Driver/Quiescence — the routines wind down

When no routine is entered any more, the threads inside the driver come nearer to the end of theirs
with every step.  What they do is bounded by what is left: an entry of a queue is taken out and
finished, or put back by a routine that ends; a disk is taken off the list once; and a loop visits
what lies between it and the head, and the disks that are still being added.

This holds as long as the loops keep their way (`SparesCursors`): a loop whose disk comes to link to
itself need not end.
-/

namespace VirtualDisk

open Machinery

variable {t : Tid} {ok : Bool} {b b' : Bus} {pc pc' : Pc} {p : PdoId} {e : Entry}

/-! ## What is left to do -/

namespace Bus

/-- How many IRPs are on the disks' queues. -/
def queued (b : Bus) : ℕ := ∑ p ∈ Finset.range b.pdoCount, (b.pdos p).irpQueue.length

/-- **The work in the shared state**: to take each IRP off its queue, and to destroy each disk on
the list. -/
def bulk (b : Bus) : ℕ :=
  2 * (b.queued + b.fdo.requestQueue.length) + 8 * b.fdo.listOfPDOs.length

/-- How many disks a loop has still to visit. -/
noncomputable def left (b : Bus) (e : Entry) : ℕ := rest b.flink .head e

end Bus

namespace Pc

/-- The disks the thread is about to put on the list. -/
def brings : Pc → ℕ
  | .addUnique _ | .addCreate _ | .addInsert _ => 1
  | _ => 0

/-- Where the loop stands, or is to start. -/
def route : Pc → Option Entry
  | .getInsert _ => some .head
  | pc => pc.cursor

/-- **The steps to the end of the routine**, or to the next link of a loop, entries of the queues
and of the list aside. -/
def weight : Pc → ℕ
  | .idle | .ret _ | .crash _ => 0
  | .busScsi _ _ => 10
  | .scsiAcquire _ _ => 9
  | .startPacket _ _ => 8
  | .startRequest _ _ => 7
  | .startSetup _ _ _ => 6
  | .startInsert _ _ => 5
  | .startFail _ _ | .startComplete _ _ _ => 3
  | .scsiEnd _ _ _ => 2
  | .scsiRelease _ _ => 1
  | .nextPacket _ _ => 7
  | .nextRequest _ _ => 6
  | .nextIrp _ _ _ | .nextSetup _ _ _ _ => 5
  | .nextPutBack _ _ _ | .getInsert _ => 4
  | .nextFail _ _ | .nextComplete _ _ => 2
  | .getLoop _ => 1
  | .replyFind _ => 11
  | .replyTake _ _ => 10
  | .replyComplete _ _ => 9
  | .replyRelease _ => 8
  | .addUnique _ => 11
  | .addCreate _ => 10
  | .addInsert _ => 9
  | .removeDisk _ | .pdoPnp _ _ | .queryCaps _ _ | .queryRelations _ => 1
  | .pdoRemove _ => 10
  | .pdoUnlink _ => 9
  | .destroyTake _ _ => 8
  | .destroyComplete _ _ _ | .destroyDrained _ _ _ => 7
  | .destroyDrain _ _ => 6
  | .destroyUnmap _ _ => 5
  | .destroySignal _ _ => 4
  | .destroyDelete _ _ => 3
  | .pdoRemoved | .fdoLoop => 2
  | .pdoSignal | .fdoOrphan => 1
  | .fdoSurprise | .busPnp _ => 2
  | .fdoRemove => 4
  | .fdoLock => 3
  | .cleanup _ | .cleanupDrained _ _ => 6
  | .cleanupDrain _ => 5
  | .cleanupTest => 4
  | .cleanupReset => 3
  | .cleanupRemoveAll => 2
  | .cleanupWait => 1
  | .csqCancelIrp _ _ | .busCancelIrp _ | .csqCancelRequest _ => 1

theorem weight_nextReturn_le : ∀ k : NextCaller, (nextReturn k).weight ≤ 1
  | .getRequest _ => Nat.le_refl 1
  | .reply => Nat.zero_le 1

theorem weight_destroyReturn_le : ∀ k : DestroyCaller, (destroyReturn k).weight ≤ 2
  | .pdo | .fdo => Nat.le_refl 2
  | .orphan => Nat.zero_le 2

@[simp] theorem brings_nextReturn (k : NextCaller) : (nextReturn k).brings = 0 := by cases k <;> rfl

@[simp] theorem brings_destroyReturn (k : DestroyCaller) : (destroyReturn k).brings = 0 := by
  cases k <;> rfl

@[simp] theorem route_nextReturn (k : NextCaller) : (nextReturn k).route = k.cursor := by
  cases k <;> rfl

@[simp] theorem route_destroyReturn (k : DestroyCaller) : (destroyReturn k).route = none := by
  cases k <;> rfl

/-- A loop waits for a PDO lock at most. -/
theorem awaits_of_cursor (h : pc.cursor = some e) :
    pc.inside = true ∧ (pc.awaits = none ∨ ∃ p, pc.awaits = some (.pdoLock p)) := by
  cases pc
  case nextPacket p k => exact ⟨rfl, .inr ⟨p, rfl⟩⟩
  all_goals first | exact ⟨rfl, .inl rfl⟩ | cases h

end Pc

/-! ## The queues -/

namespace Bus

/-- What leaves the queues and the list alone leaves the work as it is. -/
theorem bulk_congr (hc : b'.pdoCount = b.pdoCount)
    (hq : ∀ p, (b'.pdos p).irpQueue = (b.pdos p).irpQueue)
    (hr : b'.fdo.requestQueue = b.fdo.requestQueue)
    (hl : b'.fdo.listOfPDOs = b.fdo.listOfPDOs) : b'.bulk = b.bulk := by
  simp only [bulk, queued, hc, hq, hr, hl]

/-- **One queue changes.** -/
theorem queued_update (b b' : Bus) (hc : b'.pdoCount = b.pdoCount) (hp : p < b.pdoCount)
    (hq : ∀ q, q ≠ p → (b'.pdos q).irpQueue = (b.pdos q).irpQueue) :
    b'.queued + (b.pdos p).irpQueue.length = b.queued + (b'.pdos p).irpQueue.length := by
  have hsum := sum_update (fun q => (b.pdos q).irpQueue.length)
    (fun q => (b'.pdos q).irpQueue.length) (Finset.mem_range.mpr hp) fun q hne => by rw [hq q hne]
  rw [queued, queued, hc]
  exact hsum

/-- An IRP put on a disk's queue. -/
theorem bulk_appendIrp (hp : p < b.pdoCount) (i : IrpId) :
    (b.appendIrp p i).bulk = b.bulk + 2 := by
  have hfdo : (b.appendIrp p i).fdo = b.fdo := rfl
  have hsum := queued_update b (b.appendIrp p i) rfl hp fun q hq => by simp [hq]
  simp only [appendIrp_pdos, Function.update_self, List.length_append, List.length_singleton] at hsum
  simp only [bulk, hfdo]
  omega

/-- An IRP taken off a disk's queue. -/
theorem bulk_erase (b b' : Bus) (hc : b'.pdoCount = b.pdoCount) (hfdo : b'.fdo = b.fdo)
    (hp : p < b.pdoCount)
    {i : IrpId} (hself : (b'.pdos p).irpQueue = (b.pdos p).irpQueue.erase i)
    (hq : ∀ q, q ≠ p → (b'.pdos q).irpQueue = (b.pdos q).irpQueue) : b'.bulk ≤ b.bulk ∧
      (i ∈ (b.pdos p).irpQueue → b'.bulk + 2 = b.bulk) := by
  have hsum := queued_update b b' hc hp hq
  simp only [bulk, hfdo]
  rw [hself] at hsum
  constructor
  · have hle := List.length_erase_le (a := i) (l := (b.pdos p).irpQueue)
    omega
  · intro hmem
    have hpos := List.length_pos_of_mem hmem
    rw [List.length_erase_of_mem hmem] at hsum
    omega

theorem bulk_removeIrp (hp : p < b.pdoCount) {i : IrpId} (h : b.peekIrp p = some i) :
    (b.removeIrp p i).bulk + 2 = b.bulk :=
  (bulk_erase b (b.removeIrp p i) rfl rfl hp (by simp) fun q hq => by simp [hq]).2
    (mem_of_peekIrp h).1

/-- A GET_REQUEST IRP put on the queue. -/
theorem bulk_appendRequest (b : Bus) (r : RqId) : (b.appendRequest r).bulk = b.bulk + 2 := by
  have hq : (b.appendRequest r).queued = b.queued := rfl
  simp only [bulk, hq, appendRequest_fdo_requestQueue, appendRequest_fdo_listOfPDOs,
    List.length_append, List.length_singleton]
  omega

/-- A GET_REQUEST IRP taken off the queue. -/
theorem bulk_removeRequest {file : Option FileObject} {r : RqId}
    (h : b.peekRequest file = some r) : (b.removeRequest r).bulk + 2 = b.bulk := by
  have hmem := List.mem_of_find?_eq_some h
  have hpos := List.length_pos_of_mem hmem
  have hq : (b.removeRequest r).queued = b.queued := rfl
  simp only [bulk, hq, removeRequest_fdo_requestQueue, removeRequest_fdo_listOfPDOs,
    List.length_erase_of_mem hmem]
  omega

/-- A new disk has nothing on its queue. -/
theorem bulk_createPdo (b : Bus) (dd : BusenumAddDisk) : (b.createPdo dd).bulk = b.bulk := by
  have hq : (b.createPdo dd).queued = b.queued := by
    have hold : ∀ q ∈ Finset.range b.pdoCount,
        ((b.createPdo dd).pdos q).irpQueue.length = (b.pdos q).irpQueue.length := fun q hq => by
      simp [Nat.ne_of_lt (Finset.mem_range.mp hq)]
    rw [queued, createPdo_pdoCount, Finset.sum_range_succ, Finset.sum_congr rfl hold]
    simp [queued, newPdo]
  have hfdo : (b.createPdo dd).fdo = b.fdo := rfl
  simp only [bulk, hq, hfdo]

/-- A disk taken off the list, if it is there. -/
theorem bulk_erase_list (b b' : Bus) (hc : b'.pdoCount = b.pdoCount)
    (hq : ∀ p, (b'.pdos p).irpQueue = (b.pdos p).irpQueue)
    (hr : b'.fdo.requestQueue = b.fdo.requestQueue)
    (hl : b'.fdo.listOfPDOs = b.fdo.listOfPDOs.erase p) : b'.bulk ≤ b.bulk := by
  have hle := List.length_erase_le (a := p) (l := b.fdo.listOfPDOs)
  simp only [bulk, queued, hc, hq, hr, hl]
  omega

/-- The same queues and fewer disks on the list. -/
theorem bulk_list (b b' : Bus) (hc : b'.pdoCount = b.pdoCount)
    (hq : ∀ p, (b'.pdos p).irpQueue = (b.pdos p).irpQueue)
    (hr : b'.fdo.requestQueue = b.fdo.requestQueue) {n : ℕ}
    (hl : b'.fdo.listOfPDOs.length + n = b.fdo.listOfPDOs.length) : b'.bulk + 8 * n = b.bulk := by
  simp only [bulk, queued, hc, hq, hr]
  omega

end Bus

namespace Moves

/-- The work in the shared state stays as it is, and the thread comes nearer to its end. -/
theorem lowers_of_weight (h : b'.bulk = b.bulk) (hw : pc'.weight < pc.weight) :
    b'.bulk + pc'.weight < b.bulk + pc.weight := by
  rw [h]
  exact Nat.add_lt_add_left hw _

/-- **A step makes the work less**, or follows a link. -/
theorem lowers (m : Moves t b (.step t ok) pc b' pc') (hk : ∀ p ∈ pc.mentions, p < b.pdoCount) :
    b'.bulk + pc'.weight < b.bulk + pc.weight ∨
      ∃ e p, pc = .getLoop e ∧ b.flink e = .pdo p ∧ pc' = .nextPacket p (.getRequest p) ∧ b' = b := by
  have hrelease : ∀ {b : Bus} p, (b.release p).bulk = b.bulk := fun p =>
    Bus.bulk_congr rfl (fun _ => frame_update PdoDeviceData.irpQueue (by rfl)) rfl rfl
  cases m
  case getLoop e p h => exact .inr ⟨e, p, rfl, h, rfl, rfl⟩
  all_goals left
  case startRequest p i r h | nextRequest p k r h | cleanupDrain file r h =>
    have hbulk := Bus.bulk_removeRequest h
    simp only [Pc.weight]
    omega
  case nextIrp p r k i h | destroyDrain p k i h =>
    have hbulk := Bus.bulk_removeIrp (hk p List.mem_cons_self) h
    simp only [Pc.weight]
    omega
  case startInsert p i h =>
    rw [hrelease, Bus.bulk_appendIrp (hk p List.mem_cons_self)]
    simp only [Pc.weight]
    omega
  case startSetupFailed p i r h | nextSetupFailed p r i k h =>
    rw [hrelease, Bus.bulk_appendRequest]
    simp only [Pc.weight]
    omega
  case nextPutBack p r k h =>
    have hw := Pc.weight_nextReturn_le k
    rw [hrelease, Bus.bulk_appendRequest]
    show b.bulk + 2 + (Pc.nextReturn k).weight < b.bulk + 4
    omega
  case getInsert r hd h =>
    rw [Bus.bulk_appendRequest]
    simp only [Pc.weight]
    omega
  case replyTake p rep i hl hc h =>
    refine lowers_of_weight (Bus.bulk_congr rfl (fun _ => ?_) rfl rfl) (Nat.le_of_ble_eq_true rfl)
    exact frame_update PdoDeviceData.irpQueue (by rw [replySrb_pdo])
  case addCreate dd => exact lowers_of_weight (Bus.bulk_createPdo b dd) (Nat.le_of_ble_eq_true rfl)
  case addInsert p hm =>
    have hbulk := Bus.bulk_list ((b.insertTailList p).setPdo p fun d =>
        { d with deviceInitializing := false }) b (n := 1) rfl
      (fun _ => (frame_update PdoDeviceData.irpQueue (by rfl)).symm) rfl (by simp)
    simp only [Pc.weight]
    omega
  case pdoUnlink p hm =>
    have hle := Bus.bulk_erase_list b (b.unlinkCounted p) rfl
      (fun _ => frame_update PdoDeviceData.irpQueue (by rfl)) rfl rfl
    simp only [Pc.weight]
    omega
  case fdoLoop p l h hs =>
    have hbulk := Bus.bulk_list b (b.unlinkCounted p) (n := 1) rfl
      (fun _ => frame_update PdoDeviceData.irpQueue (by rfl)) rfl (by simp [h])
    simp only [Pc.weight]
    omega
  case fdoLoopOrphan p l h hs =>
    have hbulk := Bus.bulk_list b (b.orphanOne p) (n := 1) rfl
      (fun _ => by simp [Function.update_apply]; split <;> simp_all) rfl (by simp [h])
    simp only [Pc.weight]
    omega
  case fdoOrphan hm =>
    have hbulk := Bus.bulk_list b b.orphanAll (n := b.fdo.listOfPDOs.length) rfl
      (fun q => by simp only [Bus.orphanAll_pdos]; split <;> rfl) rfl (by simp)
    simp only [Pc.weight]
    omega
  case queryRelations old hm =>
    refine lowers_of_weight (Bus.bulk_congr rfl (fun q => ?_) rfl rfl) (Nat.le_of_ble_eq_true rfl)
    simp only [Bus.log_pdos, Bus.reportMissing_pdos]
    split <;> rfl
  case cleanupRemoveAll hm hn =>
    refine lowers_of_weight (Bus.bulk_congr rfl (fun q => ?_) rfl rfl) (Nat.le_of_ble_eq_true rfl)
    simp only [Bus.ejectAll_pdos]
    split <;> rfl
  case csqCancelIrp p i =>
    have hle := (Bus.bulk_erase (i := i) b
      ((b.setPdo p fun d => { d with irpQueue := d.irpQueue.erase i }).failIrp i statusCancelled)
      rfl rfl (hk p List.mem_cons_self) (by simp) fun q hq => by simp [hq]).1
    simp only [Pc.weight]
    omega
  case csqCancelRequest r =>
    have hle := List.length_erase_le (a := r) (l := b.fdo.requestQueue)
    show 2 * (b.queued + (b.fdo.requestQueue.erase r).length) + 8 * b.fdo.listOfPDOs.length + 0 <
      b.bulk + 1
    rw [Bus.bulk]
    omega
  case destroyDelete p k =>
    refine lowers_of_weight (Bus.bulk_congr rfl (fun _ => ?_) rfl rfl) ?_
    · exact frame_update PdoDeviceData.irpQueue (by rfl)
    · exact Nat.lt_of_le_of_lt (Pc.weight_destroyReturn_le k) (Nat.le_of_ble_eq_true rfl)
  all_goals first
    | exact lowers_of_weight rfl (Nat.le_of_ble_eq_true rfl)
    | exact lowers_of_weight (Bus.bulk_congr rfl (fun _ => rfl) rfl rfl)
        (Nat.le_of_ble_eq_true rfl)
    | exact lowers_of_weight (Bus.bulk_congr rfl
        (fun _ => frame_update PdoDeviceData.irpQueue (by rfl)) rfl rfl)
        (Nat.le_of_ble_eq_true rfl)
    | exact lowers_of_weight rfl
        (Nat.lt_of_le_of_lt (Pc.weight_nextReturn_le _) (Nat.le_of_ble_eq_true rfl))
    | exact lowers_of_weight (Bus.bulk_congr rfl
        (fun _ => frame_update PdoDeviceData.irpQueue (by rfl)) rfl rfl)
        (Nat.lt_of_le_of_lt (Pc.weight_nextReturn_le _) (Nat.le_of_ble_eq_true rfl))

/-- Disks are put on the list by the routines that were adding them. -/
theorem brings_le (m : Moves t b (.step t ok) pc b' pc') : pc'.brings ≤ pc.brings := by
  cases m
  all_goals first
    | exact Nat.le_refl _
    | exact Nat.zero_le _
    | exact (Pc.brings_nextReturn _).trans_le (Nat.zero_le _)
    | exact (Pc.brings_destroyReturn _).trans_le (Nat.zero_le _)

/-- …which then have. -/
theorem brings_of_addInsert (m : Moves t b (.step t ok) (.addInsert p) b' pc') : pc'.brings = 0 := by
  cases m
  rfl

/-- A thread that has a way before it brings no disk. -/
theorem route (m : Moves t b (.step t ok) pc b' pc') (he : pc'.route = some e) :
    pc'.brings = pc.brings ∧ (pc.route = some e ∨
      ∃ e₀ p, pc = .getLoop e₀ ∧ pc' = .nextPacket p (.getRequest p) ∧ b' = b) := by
  cases m
  case getLoop e₀ p h => exact ⟨rfl, .inr ⟨e₀, p, rfl, rfl, rfl⟩⟩
  all_goals first
    | (cases he; done)
    | exact ⟨rfl, .inl he⟩
    | exact ⟨Pc.brings_nextReturn _, .inl ((Pc.route_nextReturn _).symm.trans he)⟩
    | (rw [Pc.route_destroyReturn] at he; cases he)

end Moves

/-! ## The way before a loop -/

namespace Bus

theorem left_head (hn : b.fdo.listOfPDOs.Nodup) : b.left .head = b.fdo.listOfPDOs.length := by
  rw [left, (path_head hn).rest_eq, List.length_map]

end Bus

namespace Driver

variable {s s' : Driver} {a : Action} {t₂ : Tid}

/-- **A way becomes no longer by a step of another thread**, but for the disk that thread was
adding. -/
theorem Traversing.left_le (h : s.Traversing) (hl : s.Linked)
    (m : Moves t s.bus (.step t ok) (s.calls t) b' pc') (hspare : s.SparesCursors (.step t ok))
    (he : (s.calls t₂).route = some e) :
    b'.left e + pc'.brings ≤ s.bus.left e + (s.calls t).brings := by
  have hbrings := m.brings_le
  have hadd : ∀ q, s.calls t = .addInsert q → pc'.brings + 1 = (s.calls t).brings := by
    intro q hq
    rw [hq] at m ⊢
    rw [m.brings_of_addInsert]
    rfl
  cases e with
  | head =>
    have hn' : b'.fdo.listOfPDOs.Nodup := (hl.move m).nodup
    rw [Bus.left_head hl.nodup, Bus.left_head hn']
    rcases m.listOfPDOs with hlist | ⟨q, hq, hlist⟩ | ⟨q, hlist⟩ | hlist
    · rw [hlist]
      omega
    · have hone := hadd q hq
      rw [hlist, List.length_append, List.length_singleton]
      omega
    · have hle := List.length_erase_le (a := q) (l := s.bus.fdo.listOfPDOs)
      rw [hlist]
      omega
    · rw [hlist, List.length_nil]
      omega
  | pdo p =>
    have hc : (s.calls t₂).cursor = some (.pdo p) := by
      cases hpc : s.calls t₂ <;> rw [hpc] at he <;> first | exact he | cases he
    obtain ⟨l, hp, -⟩ := h.passes t₂ p hc
    have hlink : ∀ q, s.calls t = .addInsert q →
        q ∉ s.bus.fdo.listOfPDOs ∧ (s.bus.pdos q).flink = .head := by
      intro q hq
      obtain ⟨-, dd, hdd⟩ := hl.adding t q hq
      exact ⟨fun hm => hl.not_known hq (hl.known hm), by rw [hdd]; rfl⟩
    have hleft : s.bus.left (.pdo p) = l.length := hp.rest_eq
    rw [hleft]
    rcases m.links hl.nodup (hl.new _ (Nat.le_refl _)) hlink with hf | ⟨q, hq, hqf, hf⟩ |
      ⟨q, hqf, hf⟩ | ⟨q, hq⟩
    · rw [Bus.left, hf, hp.rest_eq]
      omega
    · have hone := hadd q hq
      obtain ⟨l', hp', hle⟩ := hp.exists_append_length_le Entry.noConfusion hqf hf
      rw [Bus.left, hp'.rest_eq]
      omega
    · obtain ⟨l', hsub, hp'⟩ := hp.skip Entry.noConfusion hqf hf
      have hle := hsub.length_le
      rw [Bus.left, hp'.rest_eq]
      omega
    · have hp' : Path b'.flink .head (.pdo p) l := by
        refine hp.of_eqOn fun y hy => ?_
        cases y with
        | head =>
          rcases List.mem_cons.mp hy with hy | hy
          · cases hy
          · exact absurd rfl (hp.ne_of_mem hy)
        | pdo x =>
          refine ((m.orphans hl.nodup hq).2 x).2 fun ho => ?_
          exact hspare t₂ p x hc (Bus.Passes.ahead hp hy) ⟨t, rfl, .inl ho⟩
      rw [Bus.left, hp'.rest_eq]
      omega

/-- A loop that follows a link has one disk less before it. -/
theorem Traversing.left_next (h : s.Traversing) (hl : s.Linked) (he : s.calls t = .getLoop e)
    (hf : s.bus.flink e = .pdo p) : s.bus.left (.pdo p) + 1 = s.bus.left e := by
  obtain ⟨l, hp, -⟩ := h.passes_of_cursor hl (t := t) (by rw [he]; rfl)
  have hnext := hp.rest_next (by rw [hf]; exact Entry.noConfusion)
  rw [hf] at hnext
  exact hnext.symm

/-! ## The measure -/

/-- The disks that are still being added. -/
def adding (s : Driver) (ts : Finset Tid) : ℕ := ∑ t ∈ ts, (s.calls t).brings

/-- **What is left for a thread to do**: the steps of its routine, and a visit to each disk before
its loop. -/
noncomputable def share (b : Bus) (adding : ℕ) (pc : Pc) : ℕ :=
  pc.weight + 7 * pc.route.elim 0 fun e => b.left e + adding

/-- **What is left to do** for the threads and with the shared state. -/
noncomputable def todo (ts : Finset Tid) (s : Driver) : ℕ :=
  s.bus.bulk + ∑ t ∈ ts, share s.bus (s.adding ts) (s.calls t)

/-- A thread makes its next step, which takes nothing from under a loop. -/
def Winding (s : Driver) (a : Action) : Prop := (∃ t ok, a = .step t ok) ∧ s.SparesCursors a

/-- What the routines rely on to come to their ends; no thread but these is inside one. -/
structure Ending (ts : Finset Tid) (s : Driver) : Prop where
  linked : s.Linked
  held : s.Held
  traversing : s.Traversing
  idle : ∀ t ∉ ts, s.calls t = .idle

variable {ts : Finset Tid}

/-- A thread that makes a step is inside a routine. -/
theorem Ending.mem (h : s.Ending ts) (m : Moves t s.bus (.step t ok) (s.calls t) b' pc') :
    t ∈ ts := by
  by_contra ht
  rw [h.idle t ht] at m
  cases m

theorem Ending.step (h : s.Ending ts) (hw : s.Winding a) (hs : s.step a = some s') :
    s'.Ending ts := by
  refine ⟨h.linked.step hs, h.held.step hs, h.traversing.step h.linked hw.2 hs, ?_⟩
  obtain ⟨⟨t, ok, rfl⟩, -⟩ := hw
  rcases step_moves hs with ⟨t', b', pc', m, rfl⟩ | ⟨_, _, hc, -⟩ | ⟨_, hc, -⟩
  · obtain rfl : t = t' := Option.some.inj m.thread
    intro t₂ ht₂
    rw [put_calls_of_ne s (by rintro rfl; exact ht₂ (h.mem m))]
    exact h.idle t₂ ht₂
  · cases hc
  · cases hc

/-- **Every step leaves less to do.** -/
theorem Ending.lowers (h : s.Ending ts) (hw : s.Winding a) (hs : s.step a = some s') :
    todo ts s' < todo ts s := by
  obtain ⟨⟨t, ok, rfl⟩, hspare⟩ := hw
  rcases step_moves hs with ⟨t', b', pc', m, rfl⟩ | ⟨_, _, hc, -⟩ | ⟨_, hc, -⟩
  case inr.inl => cases hc
  case inr.inr => cases hc
  obtain rfl : t = t' := Option.some.inj m.thread
  have ht := h.mem m
  have hadding : (s.put t (b', pc')).adding ts + (s.calls t).brings ≤ s.adding ts + pc'.brings :=
    sum_move pc' ht fun _ _ => Nat.le_refl _
  have hleft : ∀ {t₂ e}, (s.calls t₂).route = some e →
      b'.left e + (s.put t (b', pc')).adding ts ≤ s.bus.left e + s.adding ts := by
    intro t₂ e he
    have hle := h.traversing.left_le h.linked m hspare he
    omega
  have hothers : ∀ t₂, t₂ ≠ t → share b' ((s.put t (b', pc')).adding ts) (s.calls t₂) ≤
      share s.bus (s.adding ts) (s.calls t₂) := by
    intro t₂ _
    unfold share
    cases hr : (s.calls t₂).route with
    | none => exact Nat.le_refl _
    | some e => exact Nat.add_le_add_left (Nat.mul_le_mul_left 7 (hleft hr)) _
  have hsum := sum_move pc' ht hothers
  have hmover : b'.bulk + share b' ((s.put t (b', pc')).adding ts) pc' <
      s.bus.bulk + share s.bus (s.adding ts) (s.calls t) := by
    unfold share
    rcases m.lowers fun p hp => (h.linked.mentions t p hp).1 with hlt | ⟨e, p, hpc, hf, rfl, rfl⟩
    · have hway : pc'.route.elim 0 (fun e => b'.left e + (s.put t (b', pc')).adding ts) ≤
          (s.calls t).route.elim 0 fun e => s.bus.left e + s.adding ts := by
        cases hr : pc'.route with
        | none => exact Nat.zero_le _
        | some e =>
          rcases (m.route hr).2 with hr' | ⟨e₀, p, hpc, rfl, rfl⟩
          · rw [hr']
            exact hleft hr'
          · rw [hpc] at hlt
            simp only [Pc.weight] at hlt
            omega
      omega
    · have hnext := h.traversing.left_next h.linked hpc hf
      rw [hpc] at hadding ⊢
      simp only [Pc.weight, Pc.brings, Pc.route, Pc.cursor, NextCaller.cursor, Option.elim] at hadding ⊢
      omega
  show b'.bulk + ∑ t₂ ∈ ts, share b' _ (Function.update s.calls t pc' t₂) < todo ts s
  unfold todo
  omega

/-- A section takes nothing from under a loop. -/
theorem sparesCursors_of_locked (hp : (s.calls t).locked = some p) :
    s.SparesCursors (.step t ok) := by
  rintro _ _ q - - ⟨t', ht', hrem⟩
  obtain rfl : t = t' := Option.some.inj ht'
  cases hpc : s.calls t <;> rw [hpc] at hp hrem <;> first
    | (cases hp; done)
    | exact hrem.elim id nofun

/-- At every moment finitely many threads are inside the driver. -/
theorem exists_idle {C : Driver → Action → Prop} (h : lts.Reach C s) :
    ∃ ts : Finset Tid, ∀ t ∉ ts, s.calls t = .idle := by
  refine h.invariant (I := fun s => ∃ ts : Finset Tid, ∀ t ∉ ts, s.calls t = .idle)
    ⟨∅, fun _ _ => rfl⟩ ?_
  rintro s a s' - ⟨ts, hts⟩ - hs
  rcases step_moves hs with ⟨t, b', pc', m, rfl⟩ | ⟨_, _, -, rfl⟩ | ⟨_, -, -, rfl⟩
  · refine ⟨insert t ts, fun t₂ ht₂ => ?_⟩
    obtain ⟨hne, ht₂⟩ := not_or.mp (Finset.mem_insert.not.mp ht₂)
    rw [put_calls_of_ne s hne]
    exact hts t₂ ht₂
  · exact ⟨ts, hts⟩
  · exact ⟨ts, hts⟩

end Driver

end VirtualDisk
