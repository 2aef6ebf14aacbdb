import VirtualDisk.Driver.ListEntries

/-!
# Driver/Relations — BusRelations answers, and the removals they license

The handler of a BusRelations query walks the list twice: it counts the PDOs that are present,
allocates, and writes them behind the objects collected so far, marking the others as reported
missing.  First the two loops, as they write into the allocated structure; then what a run of
queries, ejects and removals makes of the flags.
-/

namespace VirtualDisk

open Machinery

variable {t : Tid} {a : Action} {b b' : Bus} {pc pc' : Pc} {p q : PdoId}

/-! ## The structure and the loops -/

/-- `sizeof (PDEVICE_OBJECT)`. -/
def sizeofPointer : ℕ := 4

/-- `sizeof (DEVICE_RELATIONS)`: the count and one pointer. -/
def sizeofDeviceRelations : ℕ := 8

/-- The offset of `Objects` in `DEVICE_RELATIONS`. -/
def offsetObjects : ℕ := 4

/-- **`DEVICE_RELATIONS`**, in a block of `length` bytes.  An entry that was not
written is `none`. -/
structure DeviceRelations where
  length : ULONG
  count : ULONG
  objects : ℕ → Option DeviceId := fun _ => none

/-- The size the handler asks for. -/
def relationsLength (numPdosPresent prevcount : ℕ) : ULONG :=
  UInt32.ofNat (sizeofDeviceRelations + (numPdosPresent + prevcount) * sizeofPointer - 1)

namespace DeviceRelations

/-- `Objects[j] = d`, where the entry lies inside the block. -/
def store (r : DeviceRelations) (j : ℕ) (d : DeviceId) : Option DeviceRelations :=
  if offsetObjects + (j + 1) * sizeofPointer ≤ r.length.toNat then
    some { r with objects := Function.update r.objects j (some d) }
  else none

/-- `RtlCopyMemory` of these objects, from the entry `j` on. -/
def copy (r : DeviceRelations) (j : ℕ) : List DeviceId → Option DeviceRelations
  | [] => some r
  | d :: ds => (r.store j d).bind fun r => r.copy (j + 1) ds

/-- The structure holds these objects and no others, all inside the block. -/
structure Holds (r : DeviceRelations) (l : List DeviceId) : Prop where
  count : r.count.toNat = l.length
  objects : ∀ j, r.objects j = l[j]?
  inside : offsetObjects + l.length * sizeofPointer ≤ r.length.toNat

end DeviceRelations

namespace Bus

/-- The first walk: how many PDOs are present. -/
def countPresent (b : Bus) (numPdosPresent : ℕ) : List PdoId → ℕ
  | [] => numPdosPresent
  | p :: l => b.countPresent (if (b.pdos p).present then numPdosPresent + 1 else numPdosPresent) l

/-- The second walk: a PDO that is present is written at the running index, any other is marked. -/
def fillLoop (b : Bus) (relations : DeviceRelations) (prevcount : ℕ) :
    List PdoId → Option (Bus × DeviceRelations)
  | [] => some (b, relations)
  | p :: l =>
    if (b.pdos p).present then
      (relations.store prevcount (.pdo p)).bind fun relations =>
        b.fillLoop relations (prevcount + 1) l
    else (b.setPdo p fun d => { d with reportedMissing := true }).fillLoop relations prevcount l

/-- **The handler once the pool has the block**: the objects so far are copied, the count is set,
and the second walk follows. -/
def newRelations (b : Bus) (old : List DeviceId) : Option (Bus × DeviceRelations) :=
  let numPdosPresent := b.countPresent 0 b.fdo.listOfPDOs
  let relations : DeviceRelations :=
    { length := relationsLength numPdosPresent old.length
      count := UInt32.ofNat (old.length + numPdosPresent) }
  (relations.copy 0 old).bind fun relations =>
    b.fillLoop relations old.length b.fdo.listOfPDOs

/-- The objects from above and the device objects on the list lie in the system's half of the
address space, a device object being larger than a pointer. -/
def InMemory (b : Bus) (old : List DeviceId) : Prop :=
  offsetObjects + (old.length + b.fdo.listOfPDOs.length) * sizeofPointer ≤ 2 ^ 31

/-- The PDOs present on the bus, in list order. -/
def presentPdos (b : Bus) : List PdoId := b.fdo.listOfPDOs.filter fun p => (b.pdos p).present

theorem relations_eq (b : Bus) (old : List DeviceId) :
    b.relations old = old ++ b.presentPdos.map .pdo := rfl

end Bus

namespace DeviceRelations

/-- **Copying writes exactly these entries**, when they lie inside the block. -/
theorem copy_eq (r : DeviceRelations) (j : ℕ) (ds : List DeviceId)
    (h : offsetObjects + (j + ds.length) * sizeofPointer ≤ r.length.toNat) :
    ∃ r', r.copy j ds = some r' ∧ r'.length = r.length ∧ r'.count = r.count ∧
      ∀ k, r'.objects k = if j ≤ k ∧ k < j + ds.length then ds[k - j]? else r.objects k := by
  induction ds generalizing r j with
  | nil => exact ⟨r, rfl, rfl, rfl, fun k => by rw [if_neg (by simp)]⟩
  | cons d ds ih =>
    have hj : offsetObjects + (j + 1) * sizeofPointer ≤ r.length.toNat := by
      simp only [List.length_cons, sizeofPointer] at h ⊢
      omega
    obtain ⟨r', hr', hlen, hcount, hobj⟩ := ih
      { r with objects := Function.update r.objects j (some d) } (j + 1) (by
        simpa [Nat.add_assoc, Nat.add_comm 1] using h)
    refine ⟨r', by simp [copy, store, hj, hr'], hlen, hcount, fun k => ?_⟩
    dsimp only at hobj
    rw [hobj]
    rcases Nat.lt_trichotomy k j with hk | rfl | hk
    · rw [if_neg (by omega), if_neg (by omega), Function.update_of_ne (Nat.ne_of_lt hk)]
    · rw [if_neg (by omega), if_pos (by simp), Function.update_self]
      simp
    · obtain ⟨n, rfl⟩ : ∃ n, k = j + 1 + n := ⟨k - (j + 1), by omega⟩
      simp only [List.length_cons]
      by_cases hn : n < ds.length
      · rw [if_pos (by omega), if_pos (by omega), show j + 1 + n - j = n + 1 by omega,
          show j + 1 + n - (j + 1) = n by omega, List.getElem?_cons_succ]
      · rw [if_neg (by omega), if_neg (by omega), Function.update_of_ne (by omega)]

end DeviceRelations

namespace Bus

/-- The first walk counts the PDOs that are present. -/
theorem countPresent_eq (b : Bus) (n : ℕ) (l : List PdoId) :
    b.countPresent n l = n + (l.filter fun p => (b.pdos p).present).length := by
  induction l generalizing n with
  | nil => rfl
  | cons p l ih =>
    rw [countPresent, ih]
    by_cases hp : (b.pdos p).present
    · simp only [hp, ↓reduceIte, List.filter_cons_of_pos, List.length_cons]
      omega
    · simp [hp]

/-- The PDOs of a part of the list that are not present, marked. -/
def markMissing (b : Bus) (l : List PdoId) : Bus :=
  { b with pdos := fun p =>
      if p ∈ l ∧ (b.pdos p).present = false then { b.pdos p with reportedMissing := true }
      else b.pdos p }

/-- **The second walk** copies the PDOs that are present and marks the others. -/
theorem fillLoop_eq (b : Bus) (r : DeviceRelations) (n : ℕ) (l : List PdoId) :
    b.fillLoop r n l =
      (r.copy n ((l.filter fun p => (b.pdos p).present).map .pdo)).map fun r =>
        (b.markMissing l, r) := by
  induction l generalizing b r n with
  | nil => simp [fillLoop, DeviceRelations.copy, markMissing]
  | cons p l ih =>
    rw [fillLoop]
    by_cases hp : (b.pdos p).present
    · have hmark : b.markMissing (p :: l) = b.markMissing l := by
        simp only [markMissing, List.mem_cons]
        congr 1
        funext q
        by_cases hq : q = p
        · simp [hq, hp]
        · simp [hq]
      simp only [hp, ↓reduceIte, List.filter_cons_of_pos, List.map_cons, DeviceRelations.copy,
        hmark]
      cases r.store n (.pdo p) with
      | none => rfl
      | some r => exact ih b r (n + 1)
    · have hpresent : ∀ q, ((b.setPdo p fun d => { d with reportedMissing := true }).pdos q).present
          = (b.pdos q).present := by
        intro q
        by_cases hq : q = p
        · simp [hq]
        · simp [hq]
      have hmark : (b.setPdo p fun d => { d with reportedMissing := true }).markMissing l =
          b.markMissing (p :: l) := by
        simp only [markMissing, List.mem_cons, hpresent]
        simp only [setPdo]
        congr 1
        funext q
        by_cases hq : q = p
        · simp [hq, hp]
        · simp [hq]
      simp only [hp, Bool.false_eq_true, ↓reduceIte, not_false_eq_true, List.filter_cons_of_neg]
      rw [ih, hmark]
      simp only [hpresent]

/-- **The two walks give the answer**: the new structure holds the objects so far and then the PDOs
that are present, and the others are reported missing. -/
theorem newRelations_eq (b : Bus) (old : List DeviceId) (hm : b.InMemory old) :
    ∃ r, b.newRelations old = some (b.reportMissing, r) ∧ r.Holds (b.relations old) := by
  have hle : b.presentPdos.length ≤ b.fdo.listOfPDOs.length := List.length_filter_le _ _
  have hn : b.countPresent 0 b.fdo.listOfPDOs = b.presentPdos.length := by
    rw [countPresent_eq, Nat.zero_add, presentPdos]
  simp only [InMemory, offsetObjects, sizeofPointer] at hm
  -- the sums the handler forms do not wrap around
  have hlength : (relationsLength b.presentPdos.length old.length).toNat =
      sizeofDeviceRelations + (b.presentPdos.length + old.length) * sizeofPointer - 1 := by
    simp only [relationsLength, sizeofDeviceRelations, sizeofPointer, UInt32.toNat_ofNat']
    omega
  have hcount : (UInt32.ofNat (old.length + b.presentPdos.length)).toNat =
      old.length + b.presentPdos.length := by
    rw [UInt32.toNat_ofNat']
    omega
  obtain ⟨r₁, hr₁, hlen₁, hcount₁, hobj₁⟩ := DeviceRelations.copy_eq
    { length := relationsLength b.presentPdos.length old.length
      count := UInt32.ofNat (old.length + b.presentPdos.length) } 0 old (by
        simp only [hlength, offsetObjects, sizeofDeviceRelations, sizeofPointer]
        omega)
  have hroom : offsetObjects + (old.length + b.presentPdos.length) * sizeofPointer ≤
      r₁.length.toNat := by
    rw [hlen₁, hlength]
    simp only [offsetObjects, sizeofDeviceRelations, sizeofPointer]
    omega
  obtain ⟨r₂, hr₂, hlen₂, hcount₂, hobj₂⟩ := DeviceRelations.copy_eq r₁ old.length
    (b.presentPdos.map .pdo) (by rwa [List.length_map])
  refine ⟨r₂, ?_, ?_, fun k => ?_, ?_⟩
  · rw [newRelations, hn, hr₁]
    show b.fillLoop r₁ old.length b.fdo.listOfPDOs = _
    rw [fillLoop_eq]
    show (r₁.copy old.length (b.presentPdos.map .pdo)).map _ = _
    rw [hr₂]
    rfl
  · rw [hcount₂, hcount₁, hcount, relations_eq, List.length_append, List.length_map]
  · rw [hobj₂, hobj₁, relations_eq, List.length_map]
    by_cases hk : k < old.length
    · rw [if_neg (by omega), if_pos (by omega), List.getElem?_append_left hk, Nat.sub_zero]
    · rw [List.getElem?_append_right (by omega)]
      by_cases hk' : k < old.length + b.presentPdos.length
      · rw [if_pos (by omega)]
      · rw [if_neg (by omega), if_neg (by omega), List.getElem?_eq_none]
        rw [List.length_map]
        omega
  · rw [hlen₂, relations_eq, List.length_append, List.length_map]
    exact hroom

end Bus

/-! ## The answers of a run -/

/-- An answer with a new structure: the PDOs on the list when it was given, the objects so far, and
all the objects. -/
structure Answer where
  linked : List PdoId
  old : List DeviceId
  objects : List DeviceId

/-- What the driver added to the objects so far. -/
def Answer.added (r : Answer) : List DeviceId := r.objects.drop r.old.length

/-- The answer omitted a PDO that was on the list. -/
def Answer.Omits (r : Answer) (p : PdoId) : Prop := p ∈ r.linked ∧ .pdo p ∉ r.added

/-- The answer an event records. -/
def Event.answer : Event → Option Answer
  | .relations linked old objects => some ⟨linked, old, objects⟩
  | _ => none

namespace Bus

/-- The answers given so far, the latest first. -/
def answers (b : Bus) : List Answer := b.trace.filterMap Event.answer

/-- The answer given with a new structure in this state. -/
def newAnswer (b : Bus) (old : List DeviceId) : Answer := ⟨b.fdo.listOfPDOs, old, b.relations old⟩

/-- An earlier answer omitted the PDO. -/
def Omitted (b : Bus) (p : PdoId) : Prop := ∃ r ∈ b.answers, r.Omits p

/-- The FDO was surprise-removed or removed. -/
def ParentRemoved (b : Bus) : Prop :=
  b.fdo.devicePnPState = .surpriseRemovePending ∨ b.fdo.devicePnPState = .deleted

theorem added_newAnswer (b : Bus) (old : List DeviceId) :
    (b.newAnswer old).added = b.presentPdos.map .pdo := by
  rw [Answer.added, newAnswer, relations_eq, List.drop_left]

/-- An answer omits the PDOs that are not present. -/
theorem omits_newAnswer {old : List DeviceId} :
    (b.newAnswer old).Omits p ↔ p ∈ b.fdo.listOfPDOs ∧ (b.pdos p).present = false := by
  rw [Answer.Omits, added_newAnswer]
  show p ∈ b.fdo.listOfPDOs ∧ _ ↔ _
  simp only [presentPdos, List.mem_map, DeviceId.pdo.injEq, exists_eq_right, List.mem_filter,
    not_and, Bool.not_eq_true]
  exact and_congr_right fun hp => ⟨fun h => h hp, fun h _ => h⟩

end Bus

namespace Pc

/-- The PDO that a thread destroys in the PDO's own REMOVE_DEVICE. -/
def ownRemoval : Pc → Option PdoId
  | .pdoUnlink p => some p
  | .destroyTake p k | .destroyComplete p _ k | .destroyDrain p k | .destroyDrained p _ k =>
    if k = .fdo then none else some p
  | .destroyUnmap p k | .destroySignal p k | .destroyDelete p k =>
    if k = .fdo then none else some p
  | _ => none

@[simp] theorem ownRemoval_nextReturn (k : NextCaller) : (nextReturn k).ownRemoval = none := by
  cases k <;> rfl

@[simp] theorem ownRemoval_destroyReturn (k : DestroyCaller) :
    (destroyReturn k).ownRemoval = none := by
  cases k <;> rfl

theorem mem_mentions_of_ownRemoval (h : pc.ownRemoval = some p) : p ∈ pc.mentions := by
  cases pc
  case pdoUnlink => exact mem_mentions_of_unlinks h
  all_goals first
    | cases h
    | skip
  all_goals
    simp only [ownRemoval, Option.ite_none_left_eq_some] at h
    simp_all [mentions]

end Pc

namespace Moves

/-- **An answer is given** by a BusRelations query, in one section of the mutex. -/
theorem answers (m : Moves t b a pc b' pc') :
    b'.answers = b.answers ∨
    ∃ old, pc = .queryRelations old ∧ b'.answers = b.newAnswer (old.getD []) :: b.answers ∧
      b'.pdos = b.reportMissing.pdos := by
  cases m
  case queryRelations old _ _ => exact .inr ⟨old, rfl, rfl, rfl⟩
  case replyTake =>
    refine .inl ?_
    unfold Bus.answers
    simp only [Bus.acceptAnswer_trace]
    split <;> rfl
  case startSetup =>
    refine .inl ?_
    unfold Bus.answers
    simp only [Bus.startIrp_trace]
    split <;> rfl
  case nextSetup =>
    refine .inl ?_
    unfold Bus.answers
    simp only [Bus.startIrp_trace]
    split <;> rfl
  all_goals exact .inl rfl

/-- **A PDO is reported missing** by an answer that omits it, or orphaned by the FDO's handlers. -/
theorem reportedMissing (m : Moves t b a pc b' pc') (hp : (b'.pdos p).reportedMissing = true) :
    (b.pdos p).reportedMissing = true ∨
    (∃ old, pc = .queryRelations old ∧ p ∈ b.fdo.listOfPDOs ∧ (b.pdos p).present = false ∧
      b'.answers = b.newAnswer (old.getD []) :: b.answers) ∨
    pc = .fdoOrphan ∨ pc = .fdoLoop := by
  cases m
  case queryRelations old _ _ =>
    by_cases hq : p ∈ b.fdo.listOfPDOs ∧ (b.pdos p).present = false
    · exact .inr (.inl ⟨old, rfl, hq.1, hq.2, rfl⟩)
    · exact .inl (by simpa [hq] using hp)
  case fdoOrphan => exact .inr (.inr (.inl rfl))
  case fdoLoopOrphan => exact .inr (.inr (.inr rfl))
  case fdoLoop => exact .inr (.inr (.inr rfl))
  all_goals refine .inl ?_
  all_goals first
    | exact hp
    | simpa [Function.update_apply] using hp
    | skip
  all_goals simp [Function.update_apply] at hp
  all_goals split at hp <;> simp_all [Bus.newPdo]

/-- A PDO's own removal goes on only when the PDO was reported missing. -/
theorem ownRemoval (m : Moves t b a pc b' pc') (hp : pc'.ownRemoval = some p) :
    pc.ownRemoval = some p ∨ (b'.pdos p).reportedMissing = true := by
  cases m
  case pdoRemoveOrphan q _ hr _ =>
    obtain rfl : q = p := Option.some.inj hp
    exact .inr (by simpa using hr)
  case pdoRemoveMissing q _ hr _ =>
    obtain rfl : q = p := Option.some.inj hp
    exact .inr (by simpa using hr)
  all_goals first
    | exact .inl hp
    | (rw [Pc.ownRemoval_nextReturn] at hp; cases hp)
    | (rw [Pc.ownRemoval_destroyReturn] at hp; cases hp)

/-- The FDO does not come back from a removal. -/
theorem parentRemoved (m : Moves t b a pc b' pc') (h : b.ParentRemoved) : b'.ParentRemoved := by
  cases m
  case fdoSurprise => exact .inl rfl
  case fdoRemove => exact .inr rfl
  all_goals exact h

/-- The FDO's children are orphaned once its state was set. -/
theorem enters_orphan (m : Moves t b a pc b' pc') (h : pc' = .fdoOrphan) : b'.ParentRemoved := by
  cases m
  case fdoSurprise => exact .inl rfl
  all_goals first
    | cases h
    | (rename NextCaller => k; cases k <;> cases h)
    | (rename DestroyCaller => k; cases k <;> cases h)

end Moves

namespace Driver

variable {s s' : Driver} {C : Driver → Action → Prop}

/-- What the answers given so far have to do with the flags. -/
structure Missing (s : Driver) : Prop where
  reported : ∀ p, (s.bus.pdos p).reportedMissing = true → s.bus.Omitted p ∨ s.bus.ParentRemoved
  own : ∀ t p, (s.calls t).ownRemoval = some p → (s.bus.pdos p).reportedMissing = true
  orphaning : ∀ t, s.calls t = .fdoOrphan → s.bus.ParentRemoved
  omitted : ∀ p, s.bus.Omitted p → p < s.bus.pdoCount ∧ (s.bus.pdos p).present = false
  never : s.bus.answers.Pairwise fun later earlier =>
    ∀ p, earlier.Omits p → DeviceId.pdo p ∉ later.added

/-- A PDO that an earlier answer omitted is in no new one. -/
theorem Missing.not_mem_added (h : s.Missing) (old : List DeviceId) (hp : s.bus.Omitted p) :
    DeviceId.pdo p ∉ (s.bus.newAnswer old).added := by
  rw [Bus.added_newAnswer]
  simp [Bus.presentPdos, (h.omitted p hp).2]

/-- **A move keeps the flags in step with the answers.** -/
theorem Missing.move (h : s.Missing) (hl : s.Linked) (hr : s.Removing)
    (m : Moves t s.bus a (s.calls t) b' pc') : (s.put t (b', pc')).Missing := by
  have hmono : ∀ p, s.bus.Omitted p ∨ s.bus.ParentRemoved → b'.Omitted p ∨ b'.ParentRemoved := by
    refine fun p => Or.imp ?_ m.parentRemoved
    rintro ⟨r, hr, hp⟩
    rcases m.answers with heq | ⟨old, -, heq, -⟩
    · exact ⟨r, heq ▸ hr, hp⟩
    · exact ⟨r, heq ▸ List.mem_cons_of_mem _ hr, hp⟩
  refine ⟨?_, ?_, ?_, ?_, ?_⟩
  · intro p hp
    rcases m.reportedMissing hp with hp | ⟨old, -, hmem, habs, heq⟩ | hpc | hpc
    · exact hmono p (h.reported p hp)
    · exact .inl ⟨_, heq ▸ List.mem_cons_self, Bus.omits_newAnswer.mpr ⟨hmem, habs⟩⟩
    · exact .inr (m.parentRemoved (h.orphaning t hpc))
    · exact .inr (m.parentRemoved (.inr (hr.fdo t (by rw [hpc]; rfl))))
  · have hstays : ∀ {t₂ p}, (s.calls t₂).ownRemoval = some p →
        (b'.pdos p).reportedMissing = true := fun {t₂ p} ht₂ =>
      (m.ages (hl.mentions t₂ p (Pc.mem_mentions_of_ownRemoval ht₂)).1).reportedMissing
        (h.own t₂ p ht₂)
    refine forall_update (L := fun _ (pc : Pc) => ∀ p, pc.ownRemoval = some p →
      (b'.pdos p).reportedMissing = true) ?_ fun t₂ _ p ht₂ => hstays ht₂
    exact fun p hp => (m.ownRemoval hp).elim hstays id
  · exact forall_update (L := fun _ (pc : Pc) => pc = .fdoOrphan → b'.ParentRemoved)
      m.enters_orphan fun t₂ _ ht₂ => m.parentRemoved (h.orphaning t₂ ht₂)
  · rintro p ⟨r, hr, hp⟩
    have hold : p < s.bus.pdoCount ∧ (s.bus.pdos p).present = false := by
      rcases m.answers with heq | ⟨old, -, heq, -⟩
      · exact h.omitted p ⟨r, heq ▸ hr, hp⟩
      · rcases List.mem_cons.mp (heq ▸ hr) with rfl | hr
        · obtain ⟨hmem, habs⟩ := Bus.omits_newAnswer.mp hp
          exact ⟨(hl.known hmem).1, habs⟩
        · exact h.omitted p ⟨r, hr, hp⟩
    exact ⟨Nat.lt_of_lt_of_le hold.1 m.pdoCount_le, (m.ages hold.1).present hold.2⟩
  · show b'.answers.Pairwise _
    rcases m.answers with heq | ⟨old, -, heq, -⟩
    · exact heq ▸ h.never
    · rw [heq, List.pairwise_cons]
      exact ⟨fun r hr p hp => h.not_mem_added _ ⟨r, hr, hp⟩, h.never⟩

/-- **The flags follow the answers in every state reached.** -/
theorem missing (h : lts.Reach C s) : s.Missing := by
  refine h.invariant (I := Missing) ?_ fun s a s' hr hi hC hs => ?_
  · refine ⟨fun p hp => ?_, fun t p ht => ?_, fun t ht => ?_, fun p hp => ?_, .nil⟩
    · cases hp
    · cases ht
    · cases ht
    · obtain ⟨r, hr, -⟩ := hp
      cases hr
  · rcases step_moves hs with ⟨t, b', pc', m, rfl⟩ | ⟨m, f, -, rfl⟩ | ⟨e, -, -, rfl⟩
    · exact hi.move (linked hr) (removing hr) m
    · exact ⟨hi.1, hi.2, hi.3, hi.4, hi.5⟩
    · exact ⟨hi.1, hi.2, hi.3, hi.4, hi.5⟩

end Driver

/-! ## The protocol -/

namespace ListDriver

variable {s s' : ListDriver} {old : Option (List DeviceId)} {status : NTSTATUS}

/-- A thread's BusRelations query comes to its end, with this status. -/
def Answers (s : ListDriver) (t : Tid) (old : Option (List DeviceId)) (status : NTSTATUS)
    (s' : ListDriver) : Prop :=
  s.calls t = .queryRelations old ∧ s'.calls t = .ret status ∧ ∃ ok, s.step (.step t ok) = some s'

/-- There is a structure from above, and nothing to add to it. -/
def NothingToAdd (s : ListDriver) (old : Option (List DeviceId)) : Prop :=
  old.isSome ∧ s.bus.fdo.numPDOs = 0

/-- **The reporting protocol.** -/
structure Reporting (s : ListDriver) : Prop where
  /-- With the mutex free a query ends, and fails where the allocation does. -/
  ends : ∀ t old ok, s.calls t = .queryRelations old → s.bus.fdo.mutex = none → ∃ s',
    (s.NothingToAdd old ∨ ok = true → s.Answers t old statusSuccess s') ∧
    (¬ s.NothingToAdd old → ok = false → s.Answers t old statusInsufficientResources s')
  /-- Where there is nothing to add, the objects from above stay the answer, and no PDO is there. -/
  passed : ∀ t old s', s.Answers t old statusSuccess s' → s.NothingToAdd old →
    s'.bus = s.bus ∧ s.bus.presentPdos = []
  /-- Any other answer is the objects from above, then the PDOs on the list that are present; those
  that are not are reported missing. -/
  answer : ∀ t old s', s.Answers t old statusSuccess s' → ¬ s.NothingToAdd old →
    s'.bus.answers = ⟨s.bus.fdo.listOfPDOs, old.getD [],
      old.getD [] ++ s.bus.presentPdos.map .pdo⟩ :: s.bus.answers ∧
    s.bus.presentPdos.Nodup ∧ s'.bus.pdos = s.bus.reportMissing.pdos
  /-- The handler's two walks make that answer, inside the block. -/
  allocated : ∀ t old s', s.Answers t old statusSuccess s' → ¬ s.NothingToAdd old →
    s.bus.InMemory (old.getD []) → ∃ r,
      s.bus.newRelations (old.getD []) = some (s.bus.reportMissing, r) ∧
      r.Holds (old.getD [] ++ s.bus.presentPdos.map .pdo)
  failed : ∀ t old status s', s.Answers t old status s' → status ≠ statusSuccess → s'.bus = s.bus
  removed : ∀ t p, (s.calls t).ownRemoval = some p → s.bus.Omitted p ∨ s.bus.ParentRemoved
  never : s.bus.answers.Pairwise fun later earlier =>
    ∀ p, earlier.Omits p → DeviceId.pdo p ∉ later.added
  destroyed : ∀ p ∈ s.bus.presentPdos, (s.bus.pdos p).deleted = false ∧
    ∀ t, (s.calls t).destroying ≠ some p

section Sections

variable (hr : s.bus.Ringed) (hl : s.driver.Linked) {ok : Bool}
include hr hl

/-- A step of a query, on the links. -/
theorem step_queryRelations (hpc : s.calls t = .queryRelations old) :
    s.step (.step t ok) = (s.bus.toBus.queryRelationsStep ok old).map fun r =>
      ⟨s.bus.lift fun _ => r.1, Function.update s.calls t r.2⟩ := by
  have hend := hr.not_endless (ListBus.length_le_pdoCount hr.nodup fun p hp => (hl.known hp).1)
  simp only [step, hpc, ListBus.step, hend, Bool.false_and, Bool.false_eq_true, if_false,
    Option.map_map, Pc.step]
  rfl

/-- **What a query's section does**, by its outcome. -/
theorem Answers.cases (h : s.Answers t old status s') :
    (s.NothingToAdd old ∧ status = statusSuccess ∧ s'.bus = s.bus) ∨
    (¬ s.NothingToAdd old ∧ status = statusInsufficientResources ∧ s'.bus = s.bus) ∨
    (¬ s.NothingToAdd old ∧ status = statusSuccess ∧ s'.bus = s.bus.lift fun c =>
      c.reportMissing.log
        (.relations c.fdo.listOfPDOs (old.getD []) (c.relations (old.getD [])))) := by
  obtain ⟨hpc, hret, ok, hs⟩ := h
  rw [step_queryRelations hr hl hpc] at hs
  obtain ⟨r, hq, rfl⟩ := Option.map_eq_some_iff.mp hs
  have hret : r.2 = .ret status := by simpa using hret
  simp only [Bus.queryRelationsStep] at hq
  split at hq
  · cases hq
  split at hq
  · next hn =>
    cases hq
    exact .inl ⟨hn, (Pc.ret.inj hret).symm, rfl⟩
  · next hn =>
    split at hq <;> cases hq
    · exact .inr (.inr ⟨hn, (Pc.ret.inj hret).symm, rfl⟩)
    · exact .inr (.inl ⟨hn, (Pc.ret.inj hret).symm, rfl⟩)

/-- With the mutex free the section is gone through. -/
theorem exists_answers (hpc : s.calls t = .queryRelations old) (hm : s.bus.fdo.mutex = none)
    (ok : Bool) : ∃ s', (s.NothingToAdd old ∨ ok = true → s.Answers t old statusSuccess s') ∧
      (¬ s.NothingToAdd old → ok = false → s.Answers t old statusInsufficientResources s') := by
  have hgo : ∀ c status, s.bus.toBus.queryRelationsStep ok old = some (c, .ret status) →
      s.Answers t old status ⟨s.bus.lift fun _ => c, Function.update s.calls t (.ret status)⟩ :=
    fun c status hq =>
      ⟨hpc, Function.update_self .., ok, by rw [step_queryRelations hr hl hpc, hq]; rfl⟩
  simp only [Bus.queryRelationsStep, if_neg (not_not.mpr hm)] at hgo
  by_cases hn : s.NothingToAdd old
  · exact ⟨_, fun _ => hgo _ _ (if_pos hn), fun h => absurd hn h⟩
  · simp only [if_neg (show ¬ (old.isSome ∧ s.bus.fdo.numPDOs = 0) from hn)] at hgo
    cases ok
    · exact ⟨_, fun h => absurd h (by simp [hn]), fun _ _ => hgo _ _ rfl⟩
    · exact ⟨_, fun _ => hgo _ _ rfl, fun _ h => by cases h⟩

end Sections

end ListDriver

end VirtualDisk
