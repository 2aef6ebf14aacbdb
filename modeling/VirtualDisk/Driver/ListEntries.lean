import VirtualDisk.Machinery.Ring
import VirtualDisk.Driver.Unlinking

/-!
# Driver/ListEntries — `ListOfPDOs` as the links of its entries

In `Driver.Step` the list of PDOs is a list.  In memory it is a ring of `LIST_ENTRY`s: the head and
the PDOs' `Link`s, each with an `Flink` and a `Blink`.  `RemoveEntryList` writes the links of the
two neighbours that the entry's own links name, whether or not the entry is on the list; so to take
off an entry that is off already puts its stale neighbours back.  Here the four routines that write
links write them one by one, the loop of IOCTL_BUSENUM_GET_REQUEST reads them, and every other
routine sees what the links lead through.

Where no PDO is taken off twice the links form a ring, and the driver is the one of `Driver.Step`.
-/

namespace VirtualDisk

open Machinery

/-! ## The shared state with its links -/

/-- The shared state and the links.  `listOfPDOs` holds what the links lead through from the
head. -/
structure ListBus extends Bus where
  links : ListLinks Entry := ⟨fun _ => .head, fun _ => .head⟩

namespace ListBus

/-- A step that writes no link. -/
def lift (b : ListBus) (f : Bus → Bus) : ListBus := { b with toBus := f b.toBus }

/-- The PDOs the links lead through from the head, `n` of them at most. -/
def linked (b : ListBus) (n : ℕ) : List PdoId :=
  (walk b.links.flink .head n .head).filterMap Entry.node

/-- The links do not lead back to the head: a search that does not find what it looks for never
ends. -/
def endless (b : ListBus) : Bool := b.pdoCount < (b.linked (b.pdoCount + 1)).length

/-- The links are written. -/
def relink (b : ListBus) (k : ListLinks Entry) : ListBus where
  toBus := b.toBus.setFdo fun f =>
    { f with listOfPDOs := { b with links := k }.linked b.pdoCount }
  links := k

/-! ## `ListOfPDOs` -/

/-- `InsertTailList`. -/
def insertTailList (b : ListBus) (p : PdoId) : ListBus :=
  b.relink (b.links.insertTail .head (.pdo p))

/-- `RemoveEntryList`. -/
def removeEntryList (b : ListBus) (p : PdoId) : ListBus :=
  (b.lift fun c => c.setPdo p fun d => { d with flink := b.links.flink (.pdo p) }).relink
    (b.links.removeEntry (.pdo p))

/-- `InitializeListHead`, on the link of a PDO. -/
def initializeListHead (b : ListBus) (p : PdoId) : ListBus :=
  (b.lift fun c => c.setPdo p fun d => { d with flink := .pdo p }).relink
    (b.links.selfLink (.pdo p))

/-- `NumPDOs--`, on a ULONG. -/
def countOff (b : ListBus) : ListBus :=
  b.lift fun c => c.setFdo fun f =>
    { f with numPDOs := if f.numPDOs = 0 then 2 ^ 32 - 1 else f.numPDOs - 1 }

/-- A PDO taken off the list and off the count. -/
def unlinkCounted (b : ListBus) (p : PdoId) : ListBus := (b.removeEntryList p).countOff

/-- A PDO taken off the list and left to its own REMOVE_DEVICE. -/
def orphanOne (b : ListBus) (p : PdoId) : ListBus :=
  ((b.removeEntryList p).initializeListHead p).lift fun c =>
    c.setPdo p fun d => { d with parentFdo := none, reportedMissing := true }

/-- The loop of `Bus_FDO_PnP` (IRP_MN_SURPRISE_REMOVAL) from an entry on, which reads the link of
the entry before it takes it off. -/
def orphanFrom : ℕ → Entry → ListBus → ListBus
  | 0, _, b => b
  | _ + 1, .head, b => b
  | n + 1, .pdo p, b => orphanFrom n (b.links.flink (.pdo p)) (b.orphanOne p)

/-! ## The steps -/

/-- The loop of IOCTL_BUSENUM_GET_REQUEST reads the link of the entry it stands at. -/
def getLoopStep (b : ListBus) (e : Entry) : ListBus × Pc :=
  match b.links.flink e with
  | .head => (b, .ret statusPending)
  | .pdo p => (b, .nextPacket p (.getRequest p))

/-- `Bus_InitializePdo` puts the PDO on the list, under the mutex. -/
def addInsertStep (b : ListBus) (p : PdoId) : Option (ListBus × Pc) :=
  if b.fdo.mutex ≠ none then none
  else some ((b.insertTailList p).lift fun c =>
    (c.setFdo fun f => { f with numPDOs := f.numPDOs + 1 }).setPdo p fun d =>
      { d with deviceInitializing := false }, .ret statusSuccess)

/-- `Bus_PDO_PnP` (IRP_MN_REMOVE_DEVICE) takes the PDO off the list, under the mutex. -/
def pdoUnlinkStep (b : ListBus) (p : PdoId) : Option (ListBus × Pc) :=
  if b.fdo.mutex ≠ none then none
  else some (b.unlinkCounted p, .destroyTake p .pdo)

/-- A thread never leaves the loop it is in, and keeps the mutex. -/
def spin (b : ListBus) (t : Tid) (pc : Pc) : ListBus × Pc :=
  (b.lift fun c => c.setFdo fun f => { f with mutex := some t }, pc)

/-- `Bus_FDO_PnP` (IRP_MN_SURPRISE_REMOVAL) unlinks every PDO, under the mutex, and leaves the
count alone. -/
def fdoOrphanStep (b : ListBus) (t : Tid) : Option (ListBus × Pc) :=
  if b.fdo.mutex ≠ none then none
  else if b.endless then some (b.spin t .fdoOrphan)
  else some (orphanFrom (b.pdoCount + 1) (b.links.flink .head) b, .ret statusSuccess)

/-- The loop of `Bus_FDO_PnP` (IRP_MN_REMOVE_DEVICE), which holds the mutex: a surprise-removed
child is orphaned, any other is counted off and destroyed. -/
def fdoLoopStep (b : ListBus) : ListBus × Pc :=
  match b.links.flink .head with
  | .head => (b.lift fun c => c.setFdo fun f => { f with mutex := none }, .ret statusSuccess)
  | .pdo p =>
    if (b.pdos p).devicePnPState = .surpriseRemovePending then (b.orphanOne p, .fdoLoop)
    else (b.unlinkCounted p, .destroyTake p .fdo)

/-- The section looks through the list and comes to its end. -/
def searches (b : Bus) : Pc → Bool
  | .replyFind rep => b.fdo.numPDOs ≠ 0 && (b.findPdo rep.val.handle).isNone
  | .removeDisk handle => b.fdo.numPDOs ≠ 0 && (b.findPdo handle).isNone
  | .addUnique dd => b.unique dd.handle
  | .queryRelations old => !(old.isSome && b.fdo.numPDOs = 0)
  | .cleanupRemoveAll => b.fdo.numPDOs ≠ 0
  | _ => false

/-- **The next atomic step of a thread**, on the links. -/
def step (t : Tid) (ok : Bool) (b : ListBus) : Pc → Option (ListBus × Pc)
  | .getLoop e => some (b.getLoopStep e)
  | .addInsert p => b.addInsertStep p
  | .pdoUnlink p => b.pdoUnlinkStep p
  | .fdoOrphan => b.fdoOrphanStep t
  | .fdoLoop => some b.fdoLoopStep
  | pc =>
    if b.endless && searches b.toBus pc then
      if b.fdo.mutex ≠ none then none else some (b.spin t pc)
    else (pc.step t ok b.toBus).map fun r => (b.lift fun _ => r.1, r.2)

end ListBus

/-- **The driver on the links.** -/
structure ListDriver where
  bus : ListBus := {}
  calls : Tid → Pc := fun _ => .idle

/-! ## Where the links form a ring -/

/-- The routine writes links. -/
def Pc.writesLinks : Pc → Bool
  | .addInsert _ | .pdoUnlink _ | .fdoOrphan | .fdoLoop => true
  | _ => false

/-- The other moves leave the list alone. -/
theorem Moves.list_of_not_writes {t : Tid} {a : Action} {b b' : Bus} {pc pc' : Pc}
    (m : Moves t b a pc b' pc') (hnew : b.pdos b.pdoCount = {}) (h : pc.writesLinks = false) :
    b'.fdo.listOfPDOs = b.fdo.listOfPDOs ∧ ∀ p, (b'.pdos p).flink = (b.pdos p).flink := by
  cases m
  case addInsert | pdoUnlink | fdoOrphan | fdoLoopEnd | fdoLoopOrphan | fdoLoop => cases h
  all_goals
    refine ⟨by simp, fun p => ?_⟩
    simp [Function.update_apply]
  all_goals split <;> simp_all [Bus.newPdo]

namespace ListBus

variable {b : ListBus} {c : Bus} {p : PdoId} {l : List PdoId} {n : ℕ} {t : Tid} {ok : Bool}
  {pc : Pc}

/-- **The links form a ring through the list**, and a PDO off the list keeps the link it was left
with. -/
structure Ringed (b : ListBus) : Prop where
  ring : b.links.Ring .head (b.fdo.listOfPDOs.map .pdo)
  off : ∀ p ∉ b.fdo.listOfPDOs, b.links.flink (.pdo p) = (b.pdos p).flink

theorem mem_entries : Entry.pdo p ∈ Entry.head :: l.map .pdo ↔ p ∈ l := by
  simp

/-- What the links lead through, where they are a path. -/
theorem linked_eq (h : Path b.links.flink .head .head (l.map .pdo)) (hn : l.length ≤ n) :
    b.linked n = l := by
  rw [linked, h.walk_eq (by simpa using hn), List.filterMap_map]
  exact List.filterMap_some

/-- A list of different PDOs is no longer than there are PDOs. -/
theorem length_le_pdoCount (hn : l.Nodup) (hlt : ∀ p ∈ l, p < c.pdoCount) :
    l.length ≤ c.pdoCount := by
  rw [← List.toFinset_card_of_nodup hn, ← Finset.card_range c.pdoCount]
  exact Finset.card_le_card fun p hp => Finset.mem_range.mpr (hlt p (List.mem_toFinset.mp hp))

namespace Ringed

variable (h : b.Ringed)
include h

theorem nodup : b.fdo.listOfPDOs.Nodup :=
  .of_map _ (List.nodup_cons.mp h.ring.nodup).2

/-- **The links are those that `Driver.Step` reads off the list.** -/
theorem flink_eq : b.links.flink = b.toBus.flink := by
  funext e
  by_cases he : e ∈ Entry.head :: b.fdo.listOfPDOs.map .pdo
  · exact h.ring.forward.eqOn (Bus.path_head h.nodup) he
  · cases e with
    | head => exact absurd List.mem_cons_self he
    | pdo p =>
      rw [mem_entries] at he
      rw [h.off p he, Bus.flink_of_not_mem he]

theorem not_endless (hlen : b.fdo.listOfPDOs.length ≤ b.pdoCount) : b.endless = false := by
  rw [endless, linked_eq h.ring.forward (Nat.le_succ_of_le hlen)]
  exact decide_eq_false (Nat.not_lt.mpr hlen)

/-- What leaves the list and the links alone keeps the ring. -/
theorem keep {b' : ListBus} (hk : b'.links = b.links)
    (hl : b'.fdo.listOfPDOs = b.fdo.listOfPDOs) (hf : ∀ p, (b'.pdos p).flink = (b.pdos p).flink) :
    b'.Ringed where
  ring := by
    rw [hk, hl]
    exact h.ring
  off p hp := by
    rw [hk, hf]
    exact h.off p (hl ▸ hp)

/-- **`RemoveEntryList`** on an entry of the list, or on one that is linked to itself. -/
theorem removeEntryList (hlen : b.fdo.listOfPDOs.length ≤ b.pdoCount)
    (hp : p ∈ b.fdo.listOfPDOs ∨ b.links.Lone (.pdo p)) :
    (b.removeEntryList p).toBus = b.toBus.removeEntryList p ∧ (b.removeEntryList p).Ringed := by
  have hflink : b.links.flink (.pdo p) = b.toBus.flink (.pdo p) := congrFun h.flink_eq _
  have hring : (b.links.removeEntry (.pdo p)).Ring .head
      ((b.fdo.listOfPDOs.erase p).map .pdo) := by
    by_cases hmem : p ∈ b.fdo.listOfPDOs
    · rw [List.map_erase fun _ _ => Entry.pdo.inj]
      exact h.ring.removeEntry (List.mem_map_of_mem hmem)
    · rw [List.erase_of_not_mem hmem, ListLinks.removeEntry_of_lone (hp.resolve_left hmem)]
      exact h.ring
  have hlist : (b.removeEntryList p).fdo.listOfPDOs = b.fdo.listOfPDOs.erase p :=
    linked_eq hring.forward ((List.length_erase_le).trans hlen)
  have hbus : (b.removeEntryList p).toBus = b.toBus.removeEntryList p := by
    have heq : (b.removeEntryList p).toBus =
        (b.toBus.setPdo p fun d => { d with flink := b.links.flink (.pdo p) }).setFdo fun f =>
          { f with listOfPDOs := (b.removeEntryList p).fdo.listOfPDOs } := rfl
    rw [heq, hlist, hflink]
    rfl
  refine ⟨hbus, ?_, fun q hq => ?_⟩
  · rw [hlist]
    exact hring
  · rw [hlist] at hq
    show (b.links.removeEntry (.pdo p)).flink (.pdo q) =
      (Function.update b.pdos p { b.pdos p with flink := b.links.flink (.pdo p) } q).flink
    by_cases hqp : q = p
    · subst hqp
      rw [Function.update_self]
      rcases hp with hp | hp
      · exact h.ring.removeEntry_flink_self (List.mem_map_of_mem hp)
      · rw [ListLinks.removeEntry_of_lone hp]
    · rw [Function.update_of_ne hqp]
      have hq : q ∉ b.fdo.listOfPDOs := fun hmem => hq ((List.mem_erase_of_ne hqp).mpr hmem)
      rcases hp with hp | hp
      · rw [h.ring.removeEntry_flink (List.mem_map_of_mem hp) (mem_entries.not.mpr hq), h.off q hq]
      · rw [ListLinks.removeEntry_of_lone hp, h.off q hq]

/-- **`InsertTailList`** on an entry that is not on the list. -/
theorem insertTailList (hlen : b.fdo.listOfPDOs.length < b.pdoCount)
    (hp : p ∉ b.fdo.listOfPDOs) :
    (b.insertTailList p).toBus = b.toBus.setFdo (fun f =>
      { f with listOfPDOs := f.listOfPDOs ++ [p] }) ∧ (b.insertTailList p).Ringed := by
  have hring : (b.links.insertTail .head (.pdo p)).Ring .head
      ((b.fdo.listOfPDOs ++ [p]).map .pdo) := by
    rw [List.map_append]
    exact h.ring.insertTail (mem_entries.not.mpr hp)
  have hlist : (b.insertTailList p).fdo.listOfPDOs = b.fdo.listOfPDOs ++ [p] :=
    linked_eq hring.forward (by simpa using hlen)
  refine ⟨?_, ?_, fun q hq => ?_⟩
  · have heq : (b.insertTailList p).toBus = b.toBus.setFdo fun f =>
        { f with listOfPDOs := (b.insertTailList p).fdo.listOfPDOs } := rfl
    rw [heq, hlist]
    rfl
  · rw [hlist]
    exact hring
  · rw [hlist, List.mem_append, List.mem_singleton, not_or] at hq
    have hne : Entry.pdo q ≠ .pdo p := fun heq => hq.2 (Entry.pdo.inj heq)
    exact (h.ring.insertTail_flink (mem_entries.not.mpr hq.1) hne).trans (h.off q hq.1)

/-- `InitializeListHead`, on the link of a PDO off the list. -/
theorem initializeListHead (hlen : b.fdo.listOfPDOs.length ≤ b.pdoCount)
    (hp : p ∉ b.fdo.listOfPDOs) :
    (b.initializeListHead p).toBus = b.toBus.setPdo p (fun d => { d with flink := .pdo p }) ∧
      (b.initializeListHead p).Ringed := by
  have hring : (b.links.selfLink (.pdo p)).Ring .head (b.fdo.listOfPDOs.map .pdo) :=
    h.ring.selfLink (mem_entries.not.mpr hp)
  have hlist : (b.initializeListHead p).fdo.listOfPDOs = b.fdo.listOfPDOs :=
    linked_eq hring.forward hlen
  refine ⟨?_, ?_, fun q hq => ?_⟩
  · have heq : (b.initializeListHead p).toBus =
        (b.toBus.setPdo p fun d => { d with flink := .pdo p }).setFdo fun f =>
          { f with listOfPDOs := (b.initializeListHead p).fdo.listOfPDOs } := rfl
    rw [heq, hlist]
    rfl
  · rw [hlist]
    exact hring
  · rw [hlist] at hq
    show Function.update b.links.flink (.pdo p) (.pdo p) (.pdo q) =
      (Function.update b.pdos p { b.pdos p with flink := .pdo p } q).flink
    by_cases hqp : q = p
    · subst hqp
      rw [Function.update_self, Function.update_self]
    · have hne : Entry.pdo q ≠ .pdo p := fun heq => hqp (Entry.pdo.inj heq)
      rw [Function.update_of_ne hqp, Function.update_of_ne hne, h.off q hq]

/-- **A PDO of the list is orphaned.** -/
theorem orphanOne (hlen : b.fdo.listOfPDOs.length ≤ b.pdoCount) (hp : p ∈ b.fdo.listOfPDOs) :
    (b.orphanOne p).toBus = b.toBus.orphanOne p ∧ (b.orphanOne p).Ringed := by
  obtain ⟨hbus, hr⟩ := h.removeEntryList hlen (.inl hp)
  have hlist : (b.removeEntryList p).fdo.listOfPDOs = b.fdo.listOfPDOs.erase p := by rw [hbus]; rfl
  have hlen' : (b.removeEntryList p).fdo.listOfPDOs.length ≤ (b.removeEntryList p).pdoCount := by
    rw [hlist]
    exact List.length_erase_le.trans hlen
  obtain ⟨hbus', hr'⟩ := hr.initializeListHead (p := p) hlen'
    (by rw [hlist]; exact h.nodup.not_mem_erase)
  constructor
  · have heq : (b.orphanOne p).toBus = ((b.removeEntryList p).initializeListHead p).toBus.setPdo p
        fun d => { d with parentFdo := none, reportedMissing := true } := rfl
    rw [heq, hbus', hbus]
    simp [Bus.orphanOne, Bus.setPdo, Bus.orphan]
  · exact hr'.keep rfl rfl fun q => frame_update PdoDeviceData.flink (by rfl)

/-- **A PDO is taken off the list and off the count.** -/
theorem unlinkCounted (hlen : b.fdo.listOfPDOs.length ≤ b.pdoCount) (hn : 0 < b.fdo.numPDOs)
    (hp : p ∈ b.fdo.listOfPDOs ∨ b.links.Lone (.pdo p)) :
    (b.unlinkCounted p).toBus = b.toBus.unlinkCounted p ∧ (b.unlinkCounted p).Ringed := by
  obtain ⟨hbus, hr⟩ := h.removeEntryList hlen hp
  refine ⟨?_, hr.keep rfl rfl fun _ => rfl⟩
  have heq : (b.unlinkCounted p).toBus = (b.removeEntryList p).toBus.setFdo fun f =>
      { f with numPDOs := if f.numPDOs = 0 then 2 ^ 32 - 1 else f.numPDOs - 1 } := rfl
  have hne : (b.toBus.removeEntryList p).fdo.numPDOs ≠ 0 := Nat.ne_of_gt hn
  rw [heq, hbus]
  simp only [Bus.setFdo, if_neg hne]
  rfl

end Ringed

/-- Nothing is left to orphan. -/
theorem orphanAll_nil (hl : c.fdo.listOfPDOs = []) : c.orphanAll = c := by
  have hpdos : (fun p => if p ∈ c.fdo.listOfPDOs then Bus.orphan (c.pdos p) p else c.pdos p) =
      c.pdos := by
    simp [hl]
  rw [Bus.orphanAll, hpdos, ← hl]

/-- One PDO is orphaned, then the rest. -/
theorem orphanAll_cons (hl : c.fdo.listOfPDOs = p :: l) (hn : c.fdo.listOfPDOs.Nodup) :
    (c.orphanOne p).orphanAll = c.orphanAll := by
  have hp : p ∉ l := (List.nodup_cons.mp (hl ▸ hn)).1
  have hlist : (c.orphanOne p).fdo.listOfPDOs = l := by simp [hl]
  have hpdos : ∀ q, (if q ∈ l then Bus.orphan ((c.orphanOne p).pdos q) q
      else (c.orphanOne p).pdos q) = if q ∈ p :: l then Bus.orphan (c.pdos q) q else c.pdos q := by
    intro q
    by_cases hq : q = p
    · subst hq
      simp [hp, Bus.orphan]
    · simp [hq]
  simp only [Bus.orphanAll, hlist, hl, funext hpdos]
  rfl

/-- **The loop of SURPRISE_REMOVAL orphans every PDO of the list**, and ends. -/
theorem Ringed.orphanFrom (h : b.Ringed) (hlen : b.fdo.listOfPDOs.length ≤ b.pdoCount)
    (hn : b.fdo.listOfPDOs.length < n) :
    (ListBus.orphanFrom n (b.links.flink .head) b).toBus = b.toBus.orphanAll ∧
      (ListBus.orphanFrom n (b.links.flink .head) b).Ringed := by
  generalize hl : b.fdo.listOfPDOs = l at hn
  induction l generalizing b n with
  | nil =>
    obtain ⟨n, rfl⟩ := Nat.exists_eq_succ_of_ne_zero (Nat.ne_zero_of_lt hn)
    have hf : b.links.flink .head = .head := by
      rw [h.flink_eq, Bus.flink_head, hl]
      rfl
    rw [hf]
    exact ⟨(orphanAll_nil hl).symm, h⟩
  | cons p l ih =>
    obtain ⟨n, rfl⟩ := Nat.exists_eq_succ_of_ne_zero (Nat.ne_zero_of_lt hn)
    have hp : p ∈ b.fdo.listOfPDOs := by simp [hl]
    have hpl : p ∉ l := (List.nodup_cons.mp (hl ▸ h.nodup)).1
    have hf : b.links.flink .head = .pdo p := by
      rw [h.flink_eq, Bus.flink_head, hl]
      rfl
    obtain ⟨hbus, hr⟩ := h.orphanOne hlen hp
    have hlist : (b.orphanOne p).fdo.listOfPDOs = l := by
      rw [hbus]
      simp [hl]
    -- the entry read before the removal is the one that comes first after it
    have hnext : b.links.flink (.pdo p) = (b.orphanOne p).links.flink .head := by
      rw [h.flink_eq, Bus.flink_of_mem hp, hr.flink_eq, Bus.flink_head, hlist, hl,
        Bus.next_cons_self]
    have hlen' : (b.orphanOne p).fdo.listOfPDOs.length ≤ (b.orphanOne p).pdoCount := by
      have hcount : (b.orphanOne p).pdoCount = b.pdoCount := by rw [hbus]; rfl
      rw [hl, List.length_cons] at hlen
      rw [hlist, hcount]
      omega
    obtain ⟨hall, hr'⟩ := ih hr hlen' hlist (Nat.lt_of_succ_lt_succ hn)
    have hstep : ListBus.orphanFrom (n + 1) (.pdo p) b =
        ListBus.orphanFrom n ((b.orphanOne p).links.flink .head) (b.orphanOne p) := by
      rw [← hnext]
      rfl
    rw [hf, hstep, hall, hbus]
    exact ⟨orphanAll_cons hl h.nodup, hr'⟩

/-! ## The steps where no PDO is taken off twice -/

/-- What a step of a thread relies on to be the one of `Driver.Step`. -/
structure Sound (b : ListBus) (pc : Pc) : Prop where
  ringed : b.Ringed
  lt : ∀ p ∈ b.fdo.listOfPDOs, p < b.pdoCount
  new : b.pdos b.pdoCount = {}
  adding : ∀ p, pc = .addInsert p → p < b.pdoCount ∧ p ∉ b.fdo.listOfPDOs
  counted : b.fdo.listOfPDOs.length ≤ b.fdo.numPDOs
  unlinking : ∀ p, pc = .pdoUnlink p → 0 < b.fdo.numPDOs ∧
    (p ∈ b.fdo.listOfPDOs ∨ b.links.Lone (.pdo p))

/-- A step on the links is the step on the list, and leaves a ring. -/
structure Follows (r : Option (ListBus × Pc)) (r' : Option (Bus × Pc)) : Prop where
  eq : r.map (fun x => (x.1.toBus, x.2)) = r'
  ringed : ∀ x ∈ r, x.1.Ringed

theorem Follows.none : Follows none none := ⟨rfl, fun _ hx => by cases hx⟩

theorem Follows.some {b : ListBus} (hbus : b.toBus = c) (hr : b.Ringed) (pc : Pc) :
    Follows (some (b, pc)) (some (c, pc)) :=
  ⟨by rw [Option.map_some, hbus], fun x hx => by cases hx; exact hr⟩

namespace Ringed

variable (h : b.Ringed)
include h

theorem getLoopStep (e : Entry) :
    Follows (some (b.getLoopStep e)) (some (b.toBus.getLoopStep e)) := by
  simp only [ListBus.getLoopStep, Bus.getLoopStep, h.flink_eq]
  cases b.toBus.flink e <;> exact .some rfl h _

theorem addInsertStep (hlen : b.fdo.listOfPDOs.length < b.pdoCount) (hp : p ∉ b.fdo.listOfPDOs) :
    Follows (b.addInsertStep p) (b.toBus.addInsertStep p) := by
  obtain ⟨hbus, hr⟩ := h.insertTailList hlen hp
  simp only [ListBus.addInsertStep, Bus.addInsertStep]
  split
  · exact .none
  · refine .some ?_ ?_ _
    · simp only [ListBus.lift, hbus]
      rfl
    · exact hr.keep rfl rfl fun q => frame_update PdoDeviceData.flink (by rfl)

theorem pdoUnlinkStep (hlen : b.fdo.listOfPDOs.length ≤ b.pdoCount) (hn : 0 < b.fdo.numPDOs)
    (hp : p ∈ b.fdo.listOfPDOs ∨ b.links.Lone (.pdo p)) :
    Follows (b.pdoUnlinkStep p) (b.toBus.pdoUnlinkStep p) := by
  obtain ⟨hbus, hr⟩ := h.unlinkCounted hlen hn hp
  simp only [ListBus.pdoUnlinkStep, Bus.pdoUnlinkStep]
  split
  · exact .none
  · exact .some hbus hr _

theorem fdoOrphanStep (hlen : b.fdo.listOfPDOs.length ≤ b.pdoCount) :
    Follows (b.fdoOrphanStep t) b.toBus.fdoOrphanStep := by
  obtain ⟨hbus, hr⟩ := h.orphanFrom hlen (Nat.lt_succ_of_le hlen)
  simp only [ListBus.fdoOrphanStep, Bus.fdoOrphanStep, h.not_endless hlen, Bool.false_eq_true,
    if_false]
  split
  · exact .none
  · exact .some hbus hr _

theorem fdoLoopStep (hlen : b.fdo.listOfPDOs.length ≤ b.pdoCount)
    (hcount : b.fdo.listOfPDOs.length ≤ b.fdo.numPDOs) :
    Follows (some b.fdoLoopStep) (some b.toBus.fdoLoopStep) := by
  simp only [ListBus.fdoLoopStep, Bus.fdoLoopStep, h.flink_eq, Bus.flink_head]
  cases hl : b.fdo.listOfPDOs with
  | nil =>
    refine .some ?_ ?_ _
    · rfl
    · exact h.keep rfl rfl fun _ => rfl
  | cons p l =>
    have hp : p ∈ b.fdo.listOfPDOs := by simp [hl]
    simp only [Bus.first]
    split
    · obtain ⟨hbus, hr⟩ := h.orphanOne hlen hp
      exact .some hbus hr _
    · obtain ⟨hbus, hr⟩ := h.unlinkCounted hlen
        (Nat.lt_of_lt_of_le (List.length_pos_of_mem hp) hcount) (.inl hp)
      exact .some hbus hr _

end Ringed

/-- **Where no PDO is taken off twice**, a step on the links is the step on the list. -/
theorem Sound.step (h : b.Sound pc) (t : Tid) (ok : Bool) :
    Follows (b.step t ok pc) (pc.step t ok b.toBus) := by
  have hlen := length_le_pdoCount h.ringed.nodup h.lt
  have hother : pc.writesLinks = false → Follows
      ((pc.step t ok b.toBus).map fun r => (b.lift fun _ => r.1, r.2)) (pc.step t ok b.toBus) := by
    intro hw
    refine ⟨by rw [Option.map_map]; exact Option.map_id' , fun x hx => ?_⟩
    obtain ⟨r, hs, rfl⟩ := Option.map_eq_some_iff.mp hx
    have hk := (Pc.step_moves hs).list_of_not_writes h.new hw
    exact h.ringed.keep rfl hk.1 hk.2
  cases pc
  case getLoop e => exact h.ringed.getLoopStep e
  case addInsert p =>
    obtain ⟨hlt, hp⟩ := h.adding p rfl
    exact h.ringed.addInsertStep (length_le_pdoCount (List.nodup_cons.mpr ⟨hp, h.ringed.nodup⟩)
      (List.forall_mem_cons.mpr ⟨hlt, h.lt⟩)) hp
  case pdoUnlink p => exact h.ringed.pdoUnlinkStep hlen (h.unlinking p rfl).1 (h.unlinking p rfl).2
  case fdoOrphan => exact h.ringed.fdoOrphanStep hlen
  case fdoLoop => exact h.ringed.fdoLoopStep hlen h.counted
  all_goals
    simp only [ListBus.step, h.ringed.not_endless hlen, Bool.false_and, Bool.false_eq_true,
      if_false]
    exact hother rfl

end ListBus

namespace ListDriver

/-- The driver without its links. -/
def driver (s : ListDriver) : Driver := ⟨s.bus.toBus, s.calls⟩

/-- **One step of the driver.**  Only a thread's own steps write links. -/
def step (s : ListDriver) : Action → Option ListDriver
  | .step t ok => (s.bus.step t ok (s.calls t)).map fun r => ⟨r.1, Function.update s.calls t r.2⟩
  | a => (s.driver.step a).map fun d => ⟨s.bus.lift fun _ => d.bus, d.calls⟩

/-- **The driver on the links**, started with an empty bus. -/
def lts : Lts ListDriver Action := ⟨{}, step⟩

/-- **No PDO is taken off the list twice**: when a PDO's REMOVE_DEVICE takes it off, it is on the
list, or its link leads to itself. -/
def UnlinksOnce (s : ListDriver) : Action → Prop
  | .step t _ => ∀ p, s.calls t = .pdoUnlink p →
      p ∈ s.bus.fdo.listOfPDOs ∨ s.bus.links.Lone (.pdo p)
  | _ => True

/-- The condition, as a test. -/
def unlinksOnce (s : ListDriver) : Action → Bool
  | .step t _ => match s.calls t with
    | .pdoUnlink p => p ∈ s.bus.fdo.listOfPDOs ∨ s.bus.links.Lone (.pdo p)
    | _ => true
  | _ => true

variable {s s' : ListDriver} {a : Action} {d : Driver} {C : Driver → Action → Prop}

theorem unlinksOnce_sound (s : ListDriver) (a : Action) (h : s.unlinksOnce a = true) :
    s.UnlinksOnce a := by
  cases a with
  | step t ok =>
    intro p hpc
    simpa [unlinksOnce, hpc] using h
  | _ => trivial

theorem UnlinksOnce.driver (h : s.UnlinksOnce a) (hr : s.bus.Ringed) : s.driver.UnlinksOnce a := by
  cases a with
  | step t ok =>
    intro p hpc
    by_cases hp : p ∈ s.bus.fdo.listOfPDOs
    · exact .inl hp
    · exact .inr ((hr.off p hp).symm.trans ((h p hpc).resolve_left hp).1)
  | _ => trivial

/-- What the threads know of the list where it is a ring. -/
theorem sound (hr : s.bus.Ringed) (hl : s.driver.Linked) (ho : s.driver.Owing) {t : Tid} {ok : Bool}
    (hu : s.UnlinksOnce (.step t ok)) : s.bus.Sound (s.calls t) where
  ringed := hr
  lt _ hp := (hl.known hp).1
  new := hl.new _ (Nat.le_refl _)
  adding p hpc := ⟨(hl.adding t p hpc).1, fun hp => hl.not_known hpc (hl.known hp)⟩
  counted := ho.length_le hl
  unlinking p hpc := ⟨ho.numPDOs_pos hl (hu.driver hr) hpc, hu p hpc⟩

theorem step_of_other (ha : ∀ t ok, a ≠ .step t ok) :
    s.step a = (s.driver.step a).map fun d => ⟨s.bus.lift fun _ => d.bus, d.calls⟩ := by
  cases a with
  | step t ok => exact absurd rfl (ha t ok)
  | _ => rfl

/-- The other actions write no link. -/
theorem ringed_of_other (hr : s.bus.Ringed) (hl : s.driver.Linked) (ha : ∀ t ok, a ≠ .step t ok)
    (hs : s.driver.step a = some d) : ListBus.Ringed (s.bus.lift fun _ => d.bus) := by
  rcases Driver.step_moves hs with ⟨t, b', pc', m, rfl⟩ | ⟨_, _, -, rfl⟩ | ⟨_, -, -, rfl⟩
  · have hw : (s.driver.calls t).writesLinks = false := by
      by_contra hw
      obtain ⟨ok, rfl⟩ := m.isStep (by
        cases hpc : s.driver.calls t <;> rw [hpc] at hw <;> first | rfl | exact absurd rfl hw)
      exact ha t ok rfl
    have hk := m.list_of_not_writes (hl.new _ (Nat.le_refl _)) hw
    exact hr.keep rfl hk.1 hk.2
  · exact hr.keep rfl rfl fun _ => rfl
  · exact hr.keep rfl rfl fun _ => rfl

/-- **A step on the links is the step on the list**, where no PDO is taken off twice. -/
theorem step_driver (hr : s.bus.Ringed) (hl : s.driver.Linked) (ho : s.driver.Owing)
    (hu : s.UnlinksOnce a) :
    (s.step a).map driver = s.driver.step a ∧ ∀ s' ∈ s.step a, s'.bus.Ringed := by
  by_cases ha : ∃ t ok, a = .step t ok
  · obtain ⟨t, ok, rfl⟩ := ha
    obtain ⟨heq, hring⟩ := (sound hr hl ho hu).step t ok
    constructor
    · show ((s.bus.step t ok (s.calls t)).map _).map driver =
        ((s.calls t).step t ok s.bus.toBus).map (s.driver.put t)
      rw [← heq, Option.map_map, Option.map_map]
      rfl
    · intro s' hs
      obtain ⟨r, hr', rfl⟩ := Option.map_eq_some_iff.mp hs
      exact hring r hr'
  · have ha : ∀ t ok, a ≠ .step t ok := fun t ok heq => ha ⟨t, ok, heq⟩
    rw [step_of_other ha]
    constructor
    · rw [Option.map_map]
      exact Option.map_id'
    · intro s' hs
      obtain ⟨d, hd, rfl⟩ := Option.map_eq_some_iff.mp hs
      exact ringed_of_other hr hl ha hd

/-- **A step on the links is enabled where the step on the list is**, also when a PDO is taken off a
second time. -/
theorem isSome_step (hr : s.bus.Ringed) (hl : s.driver.Linked) (ho : s.driver.Owing) :
    (s.step a).isSome = (s.driver.step a).isSome := by
  by_cases hu : s.UnlinksOnce a
  · rw [← (step_driver hr hl ho hu).1, Option.isSome_map]
  · cases a with
    | step t ok =>
      simp only [UnlinksOnce, not_forall] at hu
      obtain ⟨p, hpc, -⟩ := hu
      simp only [step, hpc, ListBus.step, ListBus.pdoUnlinkStep, Option.isSome_map, Driver.step,
        Pc.step, Bus.pdoUnlinkStep, driver]
      by_cases hm : s.bus.fdo.mutex = none <;> simp [hm]
    | _ => exact absurd trivial hu

theorem Ringed.init : lts.init.bus.Ringed where
  ring := ListLinks.ring_nil rfl rfl
  off _ _ := rfl

/-- A step of a run in which no PDO is taken off twice, on the list. -/
theorem step_of_reach (hr : s.bus.Ringed)
    (hd : Driver.lts.Reach (fun d a => C d a ∧ d.UnlinksOnce a) s.driver) (hu : s.UnlinksOnce a)
    (hs : s.step a = some s') : s.driver.step a = some s'.driver ∧ s'.bus.Ringed := by
  obtain ⟨heq, hring⟩ := step_driver hr (Driver.linked hd) (Driver.owing (fun _ _ h => h.2) hd) hu
  exact ⟨by rw [← heq, hs]; rfl, hring s' hs⟩

/-- **The driver on the links is the driver on the list**, in every run in which no PDO is taken off
twice. -/
theorem reach_driver (h : lts.Reach (fun s a => C s.driver a ∧ s.UnlinksOnce a) s) :
    s.bus.Ringed ∧ Driver.lts.Reach (fun d a => C d a ∧ d.UnlinksOnce a) s.driver := by
  induction h with
  | init => exact ⟨Ringed.init, .init⟩
  | @step s s' a _ hc hs ih =>
    obtain ⟨hr, hd⟩ := ih
    obtain ⟨hstep, hring⟩ := step_of_reach hr hd hc.2 hs
    exact ⟨hring, .step hd ⟨hc.1, hc.2.driver hr⟩ hstep⟩

end ListDriver

end VirtualDisk
