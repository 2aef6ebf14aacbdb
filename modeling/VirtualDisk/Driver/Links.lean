import VirtualDisk.Driver.Moves

/-!
# Driver/Links — which disks can be reached, and from where

A disk's device object is *known* once its initialisation is complete.  Every place from which a
thread takes a device object (the list, a stale link, a cancel routine, a local variable) holds
known ones only, and a disk on the list has not been touched by `Bus_DestroyPdo`.
-/

namespace VirtualDisk

open Machinery

variable {t : Tid} {a : Action} {b b' : Bus} {pc pc' : Pc} {p q : PdoId}

/-! ## Names of device objects -/

/-- The device object a caller of `BusStartNextPacket` stands at. -/
def NextCaller.mentions : NextCaller → List PdoId
  | .getRequest p => [p]
  | .reply => []

/-- The device object of a list entry. -/
def Entry.mentions : Entry → List PdoId
  | .head => []
  | .pdo p => [p]

namespace Pc

/-- The device objects a thread's local variables name.  A PDO still being initialised is left
out. -/
def mentions : Pc → List PdoId
  | .busScsi p _ | .scsiAcquire p _ | .scsiEnd p _ _ | .scsiRelease p _ => [p]
  | .startPacket p _ | .startRequest p _ | .startInsert p _ | .startSetup p _ _ => [p]
  | .startFail p _ | .startComplete p _ _ => [p]
  | .nextPacket p k | .nextRequest p k | .nextIrp p _ k | .nextSetup p _ _ k => p :: k.mentions
  | .nextPutBack p _ k => p :: k.mentions
  | .nextFail _ k | .nextComplete _ k => k.mentions
  | .getLoop e => e.mentions
  | .replyTake p _ | .replyComplete p _ | .replyRelease p => [p]
  | .pdoPnp p _ | .pdoRemove p | .pdoUnlink p | .queryCaps p _ => [p]
  | .destroyTake p _ | .destroyComplete p _ _ | .destroyDrain p _ | .destroyDrained p _ _ => [p]
  | .destroyUnmap p _ | .destroySignal p _ | .destroyDelete p _ => [p]
  | .csqCancelIrp p _ => [p]
  | _ => []

/-- The PDO a thread is destroying. -/
def destroying : Pc → Option PdoId
  | .destroyTake p _ | .destroyComplete p _ _ | .destroyDrain p _ | .destroyDrained p _ _ => some p
  | .destroyUnmap p _ | .destroySignal p _ | .destroyDelete p _ => some p
  | _ => none

@[simp] theorem mentions_nextReturn (k : NextCaller) : (nextReturn k).mentions = k.mentions := by
  cases k <;> rfl

@[simp] theorem mentions_destroyReturn (k : DestroyCaller) : (destroyReturn k).mentions = [] := by
  cases k <;> rfl

@[simp] theorem destroying_nextReturn (k : NextCaller) : (nextReturn k).destroying = none := by
  cases k <;> rfl

@[simp] theorem destroying_destroyReturn (k : DestroyCaller) :
    (destroyReturn k).destroying = none := by
  cases k <;> rfl

theorem mem_mentions_of_destroying (h : pc.destroying = some p) : p ∈ pc.mentions := by
  cases pc <;> cases h <;> exact List.mem_cons_self

end Pc

namespace Bus

/-- The PDO's initialisation is complete. -/
def Known (b : Bus) (p : PdoId) : Prop := p < b.pdoCount ∧ (b.pdos p).deviceInitializing = false

/-- The shared state names the PDO: on the list, in another PDO's stale link, or in a registered
cancel routine. -/
def Names (b : Bus) (p : PdoId) : Prop :=
  p ∈ b.fdo.listOfPDOs ∨ (∃ q, (b.pdos q).flink = .pdo p) ∨
    ∃ i, (b.irps i).cancelRoutine = some (.csq p)

/-- A PDO that `Bus_DestroyPdo` has not touched, with its parent. -/
@[mk_iff]
structure Intact (d : PdoDeviceData) : Prop where
  parentFdo : d.parentFdo = some .fdo
  drained : d.drained = false
  mapped : d.mapped = true
  signalled : d.signalled = false
  deleted : d.deleted = false

theorem known_of_exposed (h : b.exposed p = true) : b.Known p := by
  simp only [exposed, Bool.and_eq_true, decide_eq_true_eq, Bool.not_eq_true'] at h
  exact h.1

/-- The successor of an entry on the list is on the list. -/
theorem mem_of_next {l : List PdoId} (h : next l p = .pdo q) : q ∈ l := by
  unfold next at h
  split at h
  · next r q' l' hd =>
    obtain rfl : q' = q := Entry.pdo.inj h
    have hmem : q' ∈ l.dropWhile (fun x => x ≠ p) := by rw [hd]; simp
    exact (List.dropWhile_sublist _).subset hmem
  · cases h

/-- What a link leads to is named. -/
theorem names_of_flink {e : Entry} (h : b.flink e = .pdo q) : b.Names q := by
  cases e with
  | head =>
    simp only [flink] at h
    split at h
    · next r l hl => exact .inl (by simp [hl, Entry.pdo.inj h])
    · cases h
  | pdo p =>
    simp only [flink] at h
    split at h
    · exact .inl (mem_of_next h)
    · exact .inr (.inl ⟨p, h⟩)

theorem names_of_find {handle : ULONG} (h : b.findPdo handle = some p) : b.Names p :=
  .inl (List.mem_of_find?_eq_some h)

end Bus

/-! ## What a PDO does not take back -/

/-- **A PDO ages**: what was settled about `x` stays so in `y`. -/
structure PdoDeviceData.Ages (x y : PdoDeviceData) : Prop where
  deviceInitializing : x.deviceInitializing = false → y.deviceInitializing = false
  deleted : x.deleted = true → y.deleted = true
  state : x.devicePnPState = .deleted → y.devicePnPState = .deleted
  present : x.present = false → y.present = false
  reportedMissing : x.reportedMissing = true → y.reportedMissing = true
  parentFdo : x.parentFdo = none → y.parentFdo = none

namespace PdoDeviceData.Ages

variable {x y : PdoDeviceData}

theorem refl (x : PdoDeviceData) : x.Ages x := ⟨id, id, id, id, id, id⟩

theorem trans {z : PdoDeviceData} (h : x.Ages y) (h' : y.Ages z) : x.Ages z :=
  ⟨h'.deviceInitializing ∘ h.deviceInitializing, h'.deleted ∘ h.deleted, h'.state ∘ h.state,
    h'.present ∘ h.present, h'.reportedMissing ∘ h.reportedMissing, h'.parentFdo ∘ h.parentFdo⟩

/-- One PDO is written. -/
theorem update {pdos : PdoId → PdoDeviceData} (h : (pdos q).Ages y) :
    (pdos p).Ages (Function.update pdos q y p) := by
  by_cases hpq : p = q
  · subst hpq
    rwa [Function.update_self]
  · rw [Function.update_of_ne hpq]
    exact refl _

/-- Some PDOs are written. -/
theorem ite {c : Prop} [Decidable c] (h : x.Ages y) : x.Ages (if c then y else x) := by
  split
  · exact h
  · exact refl x

/-- A request of the PnP manager. -/
theorem apply (m : PnpMinor) (h : x.devicePnPState ≠ .deleted) : x.Ages (m.apply x) := by
  refine ⟨id, id, fun hd => absurd hd h, fun hp => ?_, id, id⟩
  rw [PnpMinor.apply_present, hp, Bool.and_false]

end PdoDeviceData.Ages

namespace Moves

/-! ## What a move does to the names -/

/-- PDOs are only added. -/
theorem pdoCount_le (m : Moves t b a pc b' pc') : b.pdoCount ≤ b'.pdoCount := by
  cases m
  case addCreate => exact Nat.le_succ _
  all_goals exact Nat.le_refl _

/-- **Every move ages the PDOs there are.** -/
theorem ages (m : Moves t b a pc b' pc') (hlt : p < b.pdoCount) :
    (b.pdos p).Ages (b'.pdos p) := by
  cases m
  case addCreate =>
    rw [Bus.createPdo_pdos, Function.update_of_ne (Nat.ne_of_lt hlt)]
    exact .refl _
  case addInsert => exact .update ⟨fun _ => rfl, id, id, id, id, id⟩
  case startInsert q i _ =>
    refine .trans (y := (b.appendIrp q i).pdos p) (.update ?_) (.update ?_)
    · exact ⟨id, id, id, id, id, id⟩
    · exact ⟨id, id, id, id, id, id⟩
  case replyTake =>
    refine .update ?_
    rw [replySrb_pdo]
    exact ⟨id, id, id, id, id, id⟩
  case pdoPnp m h => exact .update (.apply m h)
  case pdoRemoveOrphan | pdoRemoveMissing => exact .update ⟨id, id, fun _ => rfl, id, id, id⟩
  case pdoRemovePresent h _ _ => exact .update ⟨id, id, fun hd => absurd hd h, id, id, id⟩
  case destroyDelete => exact .update ⟨id, fun _ => rfl, id, id, id, id⟩
  case queryRelations => exact .ite ⟨id, id, id, id, fun _ => rfl, id⟩
  case fdoOrphan => exact .ite ⟨id, id, id, id, fun _ => rfl, fun _ => rfl⟩
  case fdoLoopOrphan =>
    rw [Bus.orphanOne_pdos]
    refine .update ?_
    exact ⟨id, id, id, id, fun _ => rfl, fun _ => rfl⟩
  case cleanupRemoveAll => exact .ite ⟨id, id, id, fun _ => rfl, id, id⟩
  all_goals first
    | exact .refl _
    | exact .update ⟨id, id, id, id, id, id⟩

/-- **A known PDO stays known.** -/
theorem known (m : Moves t b a pc b' pc') (hp : b.Known p) : b'.Known p :=
  ⟨Nat.lt_of_lt_of_le hp.1 m.pdoCount_le, (m.ages hp.1).deviceInitializing hp.2⟩

/-- **Names are not made up**: what a thread comes to know was exposed, or named by the shared
state. -/
theorem mem_mentions (m : Moves t b a pc b' pc') (hq : q ∈ pc'.mentions) :
    q ∈ pc.mentions ∨ b.exposed q = true ∨ b.Names q := by
  cases m
  case callScsi hp _ _ => exact .inr (.inl (by simp_all [Pc.mentions]))
  case callPdoPnp hp => exact .inr (.inl (by simp_all [Pc.mentions]))
  case callPdoRemove hp => exact .inr (.inl (by simp_all [Pc.mentions]))
  case callQueryCapabilities hp => exact .inr (.inl (by simp_all [Pc.mentions]))
  case cancelCsq i p _ _ hc =>
    obtain rfl : q = p := by simpa [Pc.mentions] using hq
    exact .inr (.inr (.inr (.inr ⟨i, hc⟩)))
  case getLoop h =>
    have hq' := Bus.names_of_flink h
    simp_all [Pc.mentions, NextCaller.mentions]
  case replyFind h =>
    have hq' := Bus.names_of_find h
    simp_all [Pc.mentions]
  case fdoLoop p l h _ =>
    obtain rfl : q = p := by simpa [Pc.mentions] using hq
    exact .inr (.inr (.inl (by simp [h])))
  all_goals
    left
    first
    | exact hq
    | exact absurd hq List.not_mem_nil
    | exact List.mem_cons_of_mem _ hq
    | exact List.mem_cons_of_mem _ (Pc.mentions_nextReturn _ ▸ hq)
    | (rw [Pc.mentions_nextReturn] at hq; exact hq)
    | (rw [Pc.mentions_destroyReturn] at hq; exact absurd hq List.not_mem_nil)

/-- **The list** is left alone, or a PDO is put at its end, or PDOs are taken off it. -/
theorem listOfPDOs (m : Moves t b a pc b' pc') :
    b'.fdo.listOfPDOs = b.fdo.listOfPDOs ∨
    (∃ p, pc = .addInsert p ∧ b'.fdo.listOfPDOs = b.fdo.listOfPDOs ++ [p]) ∨
    (∃ p, b'.fdo.listOfPDOs = b.fdo.listOfPDOs.erase p) ∨ b'.fdo.listOfPDOs = [] := by
  cases m
  case addInsert p _ => exact .inr (.inl ⟨p, rfl, rfl⟩)
  case pdoUnlink p _ => exact .inr (.inr (.inl ⟨p, rfl⟩))
  case fdoLoopOrphan p _ _ _ => exact .inr (.inr (.inl ⟨p, rfl⟩))
  case fdoLoop p _ _ _ => exact .inr (.inr (.inl ⟨p, rfl⟩))
  case fdoOrphan => exact .inr (.inr (.inr rfl))
  all_goals exact .inl rfl

/-- A link changes when its PDO leaves the list. -/
theorem flink (m : Moves t b a pc b' pc') :
    (b'.pdos p).flink = (b.pdos p).flink ∨ (b'.pdos p).flink = .head ∨
    (b'.pdos p).flink = b.flink (.pdo p) ∨
    (b'.pdos p).flink = .pdo p ∧ p ∈ b.fdo.listOfPDOs := by
  cases m
  all_goals first
    | exact .inl rfl
    | exact .inl (frame_update PdoDeviceData.flink rfl)
    | skip
  all_goals simp [Function.update_apply]
  all_goals split <;> simp_all [Bus.newPdo]

/-- A cancel routine is registered by the routine that has the IRP in hand. -/
theorem cancelRoutine {i : IrpId} (m : Moves t b a pc b' pc') :
    (b'.irps i).cancelRoutine = (b.irps i).cancelRoutine ∨
    (b'.irps i).cancelRoutine = none ∨
    (b'.irps i).cancelRoutine = some .busCancelIrp ∨
    ∃ p, pc = .startInsert p i ∧ (b'.irps i).cancelRoutine = some (.csq p) := by
  cases m
  all_goals first
    | exact .inl rfl
    | exact .inl (frame_update Irp.cancelRoutine rfl)
    | skip
  all_goals simp [Function.update_apply]
  all_goals split <;> simp_all

/-- **What the shared state comes to name** was named before, by it or by the thread. -/
theorem names (m : Moves t b a pc b' pc') (hq : b'.Names q) :
    b.Names q ∨ q ∈ pc.mentions ∨ pc = .addInsert q := by
  rcases hq with hl | ⟨p, hp⟩ | ⟨i, hi⟩
  · rcases m.listOfPDOs with h | ⟨p, rfl, h⟩ | ⟨p, h⟩ | h
    · exact .inl (.inl (h ▸ hl))
    · rw [h, List.mem_append, List.mem_singleton] at hl
      rcases hl with hl | rfl
      · exact .inl (.inl hl)
      · exact .inr (.inr rfl)
    · exact .inl (.inl (List.mem_of_mem_erase (h ▸ hl)))
    · exact absurd (h ▸ hl) List.not_mem_nil
  · rcases m.flink with h | h | h | ⟨h, hmem⟩
    · exact .inl (.inr (.inl ⟨p, h ▸ hp⟩))
    · rw [h] at hp
      cases hp
    · exact .inl (Bus.names_of_flink (h ▸ hp))
    · rw [h] at hp
      cases hp
      exact .inl (.inl hmem)
  · rcases m.cancelRoutine (i := i) with h | h | h | ⟨p, rfl, h⟩
    · exact .inl (.inr (.inr ⟨i, h ▸ hi⟩))
    · rw [h] at hi
      cases hi
    · rw [h] at hi
      cases hi
    · rw [h] at hi
      cases hi
      exact .inr (.inl (by simp [Pc.mentions]))

/-- A PDO that is not known is left as it was created, until its routine puts it on the list. -/
theorem untouched (m : Moves t b a pc b' pc') (hlist : p ∉ b.fdo.listOfPDOs)
    (hpc : p ∉ pc.mentions) (hadd : ∀ q, pc = .addInsert q → p ≠ q)
    (hp : p < b.pdoCount ∨ b'.pdoCount ≤ p) : b'.pdos p = b.pdos p := by
  cases m
  case addCreate =>
    have hne : p ≠ b.pdoCount := hp.elim Nat.ne_of_lt fun h => (Nat.ne_of_lt h).symm
    simp [hne]
  all_goals simp [Function.update_apply]
  all_goals try split
  all_goals simp_all [Pc.mentions]

/-- A PDO comes on the list out of its initialisation. -/
theorem mem_listOfPDOs (m : Moves t b a pc b' pc') (hp : p ∈ b'.fdo.listOfPDOs) :
    p ∈ b.fdo.listOfPDOs ∨ pc = .addInsert p := by
  rcases m.listOfPDOs with h | ⟨q, rfl, h⟩ | ⟨q, h⟩ | h
  · exact .inl (h ▸ hp)
  · rw [h, List.mem_append, List.mem_singleton] at hp
    rcases hp with hp | rfl
    · exact .inl hp
    · exact .inr rfl
  · exact .inl (List.mem_of_mem_erase (h ▸ hp))
  · exact absurd (h ▸ hp) List.not_mem_nil

/-- **A PDO on the list stays intact** while it is there. -/
theorem intact (m : Moves t b a pc b' pc') (hn : b.fdo.listOfPDOs.Nodup)
    (hp : p ∈ b.fdo.listOfPDOs) (hp' : p ∈ b'.fdo.listOfPDOs) (hlt : p < b.pdoCount)
    (hd : pc.destroying ≠ some p) (hi : Bus.Intact (b.pdos p)) : Bus.Intact (b'.pdos p) := by
  have hne : p ≠ b.pdoCount := Nat.ne_of_lt hlt
  rw [Bus.intact_iff] at hi ⊢
  cases m
  case fdoOrphan => exact absurd hp' List.not_mem_nil
  case fdoLoopOrphan p' l h _ =>
    have hpp : p ≠ p' := by
      rintro rfl
      exact hn.not_mem_erase (by simpa using hp')
    simpa [hpp] using hi
  all_goals simp [Function.update_apply, hi, hne]
  all_goals split <;> simp_all [Pc.destroying]

/-- A PDO put on the list is initialised. -/
theorem pdos_addInsert (m : Moves t b a (.addInsert p) b' pc') :
    b'.pdoCount = b.pdoCount ∧ b'.pdos p = { b.pdos p with deviceInitializing := false } := by
  cases m
  simp

/-- A thread comes to initialise a PDO by creating it. -/
theorem adding (m : Moves t b a pc b' pc') (hpc : pc' = .addInsert p) :
    p = b.pdoCount ∧ b'.pdoCount = b.pdoCount + 1 ∧ ∃ dd, b'.pdos p = Bus.newPdo dd := by
  cases m
  case addCreate dd =>
    cases hpc
    exact ⟨rfl, rfl, dd, by simp⟩
  all_goals first
    | cases hpc
    | (rename NextCaller => k; cases k <;> cases hpc)
    | (rename DestroyCaller => k; cases k <;> cases hpc)

/-- **A PDO keeps the identity it was created with**: the serial number, the geometry, and the
service's buffer and event. -/
theorem identity (m : Moves t b a pc b' pc') (hp : p < b.pdoCount) :
    (b'.pdos p).serialNo = (b.pdos p).serialNo ∧ (b'.pdos p).nBlocks = (b.pdos p).nBlocks ∧
    (b'.pdos p).blockSize = (b.pdos p).blockSize ∧ (b'.pdos p).buffer = (b.pdos p).buffer ∧
    (b'.pdos p).removeEvent = (b.pdos p).removeEvent := by
  have hne : p ≠ b.pdoCount := Nat.ne_of_lt hp
  cases m
  all_goals simp [Function.update_apply, hne]
  all_goals split <;> simp_all

/-- A PDO is created from the ADD_DISK request its thread carries. -/
theorem creates (m : Moves t b a pc b' pc') (hp : p < b'.pdoCount) (hnew : b.pdoCount ≤ p) :
    p = b.pdoCount ∧ ∃ dd, pc = .addCreate dd ∧ a = .step t true ∧ pc' = .addInsert p ∧
      b'.pdos p = Bus.newPdo dd := by
  cases m
  case addCreate dd =>
    obtain rfl : p = b.pdoCount := Nat.le_antisymm (Nat.lt_succ_iff.mp hp) hnew
    exact ⟨rfl, dd, rfl, rfl, rfl, by simp⟩
  all_goals exact absurd hp (Nat.not_lt.mpr hnew)

/-- A thread comes to destroy a PDO that has no parent, or that it takes off the list. -/
theorem destroying (m : Moves t b a pc b' pc') (hp : pc'.destroying = some p) :
    pc.destroying = some p ∨
    ((b.pdos p).parentFdo = none ∧ b'.fdo.listOfPDOs = b.fdo.listOfPDOs) ∨
    b'.fdo.listOfPDOs = b.fdo.listOfPDOs.erase p := by
  cases m
  all_goals try rw [Pc.destroying_nextReturn] at hp
  all_goals try rw [Pc.destroying_destroyReturn] at hp
  all_goals first | exact .inl hp | (cases hp; done) | skip
  all_goals cases hp
  all_goals simp_all

end Moves

/-! ## The invariant -/

/-- What holds of the list, of the PDOs and of the threads' local variables. -/
structure Driver.Linked (s : Driver) : Prop where
  nodup : s.bus.fdo.listOfPDOs.Nodup
  intact : ∀ p ∈ s.bus.fdo.listOfPDOs, Bus.Intact (s.bus.pdos p)
  names : ∀ p, s.bus.Names p → s.bus.Known p
  mentions : ∀ t, ∀ p ∈ (s.calls t).mentions, s.bus.Known p
  new : ∀ p, s.bus.pdoCount ≤ p → s.bus.pdos p = {}
  adding : ∀ t p, s.calls t = .addInsert p →
    p < s.bus.pdoCount ∧ ∃ dd, s.bus.pdos p = Bus.newPdo dd
  addingUnique : ∀ t t' p, s.calls t = .addInsert p → s.calls t' = .addInsert p → t = t'
  destroying : ∀ t p, (s.calls t).destroying = some p → p ∉ s.bus.fdo.listOfPDOs

namespace Driver

variable {s s' : Driver}

/-- A PDO being put on the list is not known. -/
theorem Linked.not_known (h : s.Linked) (ht : s.calls t = .addInsert p) : ¬ s.bus.Known p := by
  intro hk
  obtain ⟨-, dd, hdd⟩ := h.adding t p ht
  have hi := hk.2
  rw [hdd] at hi
  cases hi

/-- A PDO on the list is known. -/
theorem Linked.known (h : s.Linked) (hp : p ∈ s.bus.fdo.listOfPDOs) : s.bus.Known p :=
  h.names p (.inl hp)

/-- **A move of a thread keeps the links.** -/
theorem Linked.move (h : s.Linked) (m : Moves t s.bus a (s.calls t) b' pc') :
    (s.put t (b', pc')).Linked := by
  -- what a PDO being initialised by another thread is safe from
  have huntouched : ∀ t₂ p, t₂ ≠ t → s.calls t₂ = .addInsert p → b'.pdos p = s.bus.pdos p := by
    intro t₂ p hne ht₂
    have hk := h.not_known ht₂
    refine m.untouched (fun hp => hk (h.known hp)) (fun hp => hk (h.mentions t p hp)) ?_
      (.inl (h.adding t₂ p ht₂).1)
    rintro q hq rfl
    exact hne (h.addingUnique t₂ t p ht₂ hq)
  refine ⟨?_, ?_, ?_, ?_, ?_, ?_, ?_, ?_⟩
  · show b'.fdo.listOfPDOs.Nodup
    rcases m.listOfPDOs with hl | ⟨p, hpc, hl⟩ | ⟨p, hl⟩ | hl
    · exact hl ▸ h.nodup
    · have hp : p ∉ s.bus.fdo.listOfPDOs := fun hp => h.not_known hpc (h.known hp)
      rw [hl, List.nodup_append]
      refine ⟨h.nodup, by simp, ?_⟩
      rintro q hq r hr rfl
      exact hp (List.mem_singleton.mp hr ▸ hq)
    · exact hl ▸ h.nodup.erase p
    · exact hl ▸ List.nodup_nil
  · intro p hp'
    rcases m.mem_listOfPDOs hp' with hp | hpc
    · exact m.intact h.nodup hp hp' (h.known hp).1
        (fun hd => h.destroying t p hd hp) (h.intact p hp)
    · obtain ⟨-, dd, hdd⟩ := h.adding t p hpc
      have hd := (hpc ▸ m).pdos_addInsert.2
      show Bus.Intact (b'.pdos p)
      rw [hd, hdd]
      exact ⟨rfl, rfl, rfl, rfl, rfl⟩
  · intro p hp
    rcases m.names hp with hp | hp | hpc
    · exact m.known (h.names p hp)
    · exact m.known (h.mentions t p hp)
    · obtain ⟨hcount, hd⟩ := (hpc ▸ m).pdos_addInsert
      refine ⟨?_, ?_⟩
      · show p < b'.pdoCount
        exact hcount ▸ (h.adding t p hpc).1
      · show (b'.pdos p).deviceInitializing = false
        rw [hd]
  · refine forall_update (L := fun _ (pc : Pc) => ∀ p ∈ pc.mentions, b'.Known p) ?_ ?_
    · intro p hp
      rcases m.mem_mentions hp with hp | hp | hp
      · exact m.known (h.mentions t p hp)
      · exact m.known (Bus.known_of_exposed hp)
      · exact m.known (h.names p hp)
    · intro t₂ _ p hp
      exact m.known (h.mentions t₂ p hp)
  · intro p hp
    have hp' : s.bus.pdoCount ≤ p := Nat.le_trans m.pdoCount_le hp
    have hk : ¬ s.bus.Known p := fun hk => absurd hk.1 (Nat.not_lt.mpr hp')
    refine (m.untouched (fun h' => hk (h.known h')) (fun h' => hk (h.mentions t p h')) ?_
      (.inr hp)).trans (h.new p hp')
    rintro q hq rfl
    exact absurd (h.adding t p hq).1 (Nat.not_lt.mpr hp')
  · refine forall_update (L := fun _ (pc : Pc) => ∀ p, pc = .addInsert p →
      p < b'.pdoCount ∧ ∃ dd, b'.pdos p = Bus.newPdo dd) ?_ ?_
    · intro p hp
      obtain ⟨rfl, hcount, hdd⟩ := m.adding hp
      exact ⟨hcount ▸ Nat.lt_succ_self _, hdd⟩
    · intro t₂ hne p hp
      obtain ⟨hlt, hdd⟩ := h.adding t₂ p hp
      exact ⟨Nat.lt_of_lt_of_le hlt m.pdoCount_le, huntouched t₂ p hne hp ▸ hdd⟩
  · have hnew : ∀ t₂ p, t₂ ≠ t → s.calls t₂ = .addInsert p → pc' ≠ .addInsert p := by
      rintro t₂ p hne ht₂ hpc
      obtain ⟨rfl, -, -⟩ := m.adding hpc
      exact Nat.lt_irrefl _ (h.adding t₂ _ ht₂).1
    refine forall_update (L := fun t₁ (pc : Pc) => ∀ t₂ p, pc = .addInsert p →
      (s.put t (b', pc')).calls t₂ = .addInsert p → t₁ = t₂) ?_ ?_
    · intro t₂ p hpc ht₂
      by_contra hne
      rw [put_calls_of_ne s (Ne.symm hne)] at ht₂
      exact hnew t₂ p (Ne.symm hne) ht₂ hpc
    · intro t₁ hne₁ t₂ p ht₁ ht₂
      rcases eq_or_ne t₂ t with rfl | hne₂
      · rw [put_calls_self] at ht₂
        exact absurd ht₂ (hnew t₁ p hne₁ ht₁)
      · rw [put_calls_of_ne s hne₂] at ht₂
        exact h.addingUnique t₁ t₂ p ht₁ ht₂
  · have hoff : ∀ t₂ p, (s.calls t₂).destroying = some p → p ∉ b'.fdo.listOfPDOs := by
      intro t₂ p hd hp
      rcases m.mem_listOfPDOs hp with hp | hpc
      · exact h.destroying t₂ p hd hp
      · exact h.not_known hpc (h.mentions t₂ p (Pc.mem_mentions_of_destroying hd))
    refine forall_update (L := fun _ (pc : Pc) => ∀ p, pc.destroying = some p →
      p ∉ b'.fdo.listOfPDOs) ?_ fun t₂ _ => hoff t₂
    intro p hd
    rcases m.destroying hd with hd | ⟨hf, hl⟩ | hl
    · exact hoff t p hd
    · intro hp
      have hi := (h.intact p (hl ▸ hp)).parentFdo
      rw [hf] at hi
      cases hi
    · exact hl ▸ h.nodup.not_mem_erase

/-- **The links are kept by every step.** -/
theorem Linked.step (h : s.Linked) (hs : s.step a = some s') : s'.Linked := by
  rcases step_moves hs with ⟨t, b', pc', m, rfl⟩ | ⟨m, f, -, rfl⟩ | ⟨e, -, -, rfl⟩
  · exact h.move m
  · exact ⟨h.1, h.2, h.3, h.4, h.5, h.6, h.7, h.8⟩
  · exact ⟨h.1, h.2, h.3, h.4, h.5, h.6, h.7, h.8⟩

/-- An empty bus. -/
theorem Linked.init : lts.init.Linked := by
  refine ⟨List.nodup_nil, ?_, ?_, ?_, fun _ _ => rfl, ?_, ?_, ?_⟩
  · intro p hp
    cases hp
  · rintro p (hp | ⟨q, hq⟩ | ⟨i, hi⟩)
    · cases hp
    · cases hq
    · cases hi
  · intro t p hp
    cases hp
  · intro t p hp
    cases hp
  · intro t t' p hp
    cases hp
  · intro t p hp
    cases hp

variable {C : Driver → Action → Prop}

/-- **The links hold in every state reached.** -/
theorem linked (h : lts.Reach C s) : s.Linked :=
  h.invariant Linked.init fun _ _ _ _ hi _ hs => hi.step hs

end Driver

end VirtualDisk
