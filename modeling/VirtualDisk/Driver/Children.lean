import VirtualDisk.Driver.Lifetime

/-!
# Driver/Children — `ListOfPDOs` and `NumPDOs`

The list and its counter are updated by five handlers.  When each handler runs to its end before the
next begins, every PDO that is not destroyed is either on the list with its parent, or off it as an
orphan that was reported missing.  The counter follows the list except where the FDO's handlers turn
a child into an orphan: these leave it alone.
-/

namespace VirtualDisk

open Machinery

variable {t : Tid} {a : Action} {b b' : Bus} {pc pc' : Pc} {p q : PdoId}

/-- No handler is under way: the thread is outside the driver, or it waits in `Bus_FDO_Cleanup` for
the disks to go. -/
def Pc.rest : Pc → Bool
  | .idle | .ret _ | .cleanupWait => true
  | _ => false

theorem Pc.rest_of_destroying (h : pc.destroying = some p) : pc.rest = false := by
  cases pc <;> first | rfl | cases h

namespace Moves

/-- A destruction ends with the deletion of its PDO. -/
theorem destroying_or_deleted (m : Moves t b a pc b' pc') (hp : pc.destroying = some p) :
    pc'.destroying = some p ∨ (b'.pdos p).deleted = true := by
  cases m
  all_goals first
    | exact .inl hp
    | cases hp
  all_goals exact .inr (by simp)

/-- A PDO that leaves the list is orphaned, or about to be destroyed by the thread. -/
theorem leaves_listOfPDOs (m : Moves t b a pc b' pc') (hp : p ∈ b.fdo.listOfPDOs)
    (hp' : p ∉ b'.fdo.listOfPDOs) :
    pc'.destroying = some p ∨
    ((b'.pdos p).parentFdo = none ∧ (b'.pdos p).reportedMissing = true) := by
  have herase : ∀ {q}, p ∉ b.fdo.listOfPDOs.erase q → p = q := by
    intro q hq
    by_contra hne
    exact hq ((List.mem_erase_of_ne hne).mpr hp)
  cases m
  case pdoUnlink => exact .inl (by rw [herase hp']; rfl)
  case fdoLoop => exact .inl (by rw [herase hp']; rfl)
  case fdoLoopOrphan => exact .inr (by rw [herase hp']; simp)
  case fdoOrphan => exact .inr (by simp [hp])
  case addInsert => exact absurd (List.mem_append_left _ hp) hp'
  all_goals exact absurd hp hp'

/-- PDOs are created one at a time. -/
theorem pdoCount (m : Moves t b a pc b' pc') :
    b'.pdoCount = b.pdoCount ∨ (b'.pdoCount = b.pdoCount + 1 ∧ pc' = .addInsert b.pdoCount) := by
  cases m
  case addCreate => exact .inr ⟨rfl, rfl⟩
  all_goals exact .inl rfl

/-- A PDO's initialisation ends when it is put on the list. -/
theorem deviceInitializing (m : Moves t b a pc b' pc') (hlt : p < b.pdoCount) :
    (b'.pdos p).deviceInitializing = (b.pdos p).deviceInitializing ∨
    (pc = .addInsert p ∧ p ∈ b'.fdo.listOfPDOs) := by
  have hne : p ≠ b.pdoCount := Nat.ne_of_lt hlt
  cases m
  all_goals first
    | exact .inl rfl
    | exact .inl (frame_update PdoDeviceData.deviceInitializing rfl)
    | skip
  all_goals simp [Function.update_apply, hne]
  all_goals split <;> simp_all

/-- A PDO becomes known when it is put on the list. -/
theorem mem_of_known (m : Moves t b a pc b' pc') (hp' : b'.Known p) (hp : ¬ b.Known p) :
    p ∈ b'.fdo.listOfPDOs := by
  obtain ⟨hlt, hi⟩ := hp'
  rcases Nat.lt_or_ge p b.pdoCount with hold | hge
  · rcases m.deviceInitializing hold with heq | ⟨-, hmem⟩
    · exact absurd ⟨hold, heq.symm.trans hi⟩ hp
    · exact hmem
  · exfalso
    rcases m.pdoCount with heq | ⟨heq, hpc⟩
    · rw [heq] at hlt
      exact absurd hlt (Nat.not_lt.mpr hge)
    · rw [heq] at hlt
      obtain rfl : p = b.pdoCount := Nat.le_antisymm (Nat.lt_succ_iff.mp hlt) hge
      obtain ⟨-, -, dd, hdd⟩ := m.adding hpc
      rw [hdd] at hi
      cases hi

end Moves

namespace Driver

variable {s s' : Driver} {C : Driver → Action → Prop}

/-- A PDO that is known, not destroyed, and off the list is an orphan that was reported missing,
unless its destruction is under way; and a PDO that is not known is being put on the list. -/
structure Orphans (s : Driver) : Prop where
  orphan : ∀ p, s.bus.Known p → p ∉ s.bus.fdo.listOfPDOs → (s.bus.pdos p).deleted = false →
    (∀ t, (s.calls t).destroying ≠ some p) →
    (s.bus.pdos p).parentFdo = none ∧ (s.bus.pdos p).reportedMissing = true
  unknown : ∀ p, p < s.bus.pdoCount → (s.bus.pdos p).deviceInitializing = true →
    ∃ t, s.calls t = .addInsert p

/-- **A move keeps the account of the orphans.** -/
theorem Orphans.move (h : s.Orphans) (m : Moves t s.bus a (s.calls t) b' pc') :
    (s.put t (b', pc')).Orphans where
  orphan p hk' hl' hd' hdes' := by
    have hpc' : pc'.destroying ≠ some p := by simpa using hdes' t
    by_cases hk : s.bus.Known p
    · by_cases hl : p ∈ s.bus.fdo.listOfPDOs
      · exact (m.leaves_listOfPDOs hl hl').resolve_left hpc'
      · have hd : (s.bus.pdos p).deleted = false := by
          by_contra hd
          have := (m.ages hk.1).deleted (by simpa using hd)
          exact absurd (hd'.symm.trans this) (by simp)
        have hdes : ∀ t₂, (s.calls t₂).destroying ≠ some p := by
          intro t₂ hdes
          rcases eq_or_ne t₂ t with rfl | hne
          · rcases m.destroying_or_deleted hdes with hdes | hdel
            · exact hpc' hdes
            · exact absurd (hd'.symm.trans hdel) (by simp)
          · have := hdes' t₂
            rw [put_calls_of_ne s hne] at this
            exact this hdes
        obtain ⟨hf, hr⟩ := h.orphan p hk hl hd hdes
        exact ⟨(m.ages hk.1).parentFdo hf, (m.ages hk.1).reportedMissing hr⟩
    · exact absurd (m.mem_of_known hk' hk) hl'
  unknown p hlt hi := by
    rcases Nat.lt_or_ge p s.bus.pdoCount with hold | hge
    · have hinit : (s.bus.pdos p).deviceInitializing = true := by
        by_contra hk
        have hk' := (m.known ⟨hold, by simpa using hk⟩).2
        exact absurd (hk'.symm.trans hi) (by simp)
      obtain ⟨t₂, ht₂⟩ := h.unknown p hold hinit
      rcases eq_or_ne t₂ t with rfl | hne
      · have hd := (ht₂ ▸ m).pdos_addInsert.2
        have hi : (b'.pdos p).deviceInitializing = true := hi
        rw [hd] at hi
        cases hi
      · exact ⟨t₂, (put_calls_of_ne s hne _).trans ht₂⟩
    · have hlt : p < b'.pdoCount := hlt
      rcases m.pdoCount with heq | ⟨heq, hpc⟩
      · rw [heq] at hlt
        exact absurd hlt (Nat.not_lt.mpr hge)
      · rw [heq] at hlt
        have hp : p = s.bus.pdoCount := Nat.le_antisymm (Nat.lt_succ_iff.mp hlt) hge
        exact ⟨t, (put_calls_self s t _).trans (hp ▸ hpc)⟩

/-- **The orphans are accounted for in every state reached.** -/
theorem orphans (h : lts.Reach C s) : s.Orphans := by
  refine h.invariant (I := Orphans) ?_ fun s a s' hr hi hC hs => ?_
  · refine ⟨fun p hk => ?_, fun p hlt => ?_⟩
    · exact absurd hk.1 (Nat.not_lt_zero p)
    · exact absurd hlt (Nat.not_lt_zero p)
  · rcases step_moves hs with ⟨t, b', pc', m, rfl⟩ | ⟨m, f, -, rfl⟩ | ⟨e, -, -, rfl⟩
    · exact hi.move m
    · exact ⟨hi.1, hi.2⟩
    · exact ⟨hi.1, hi.2⟩

end Driver

/-! ## One handler at a time -/

/-- The action begins a handler. -/
def Action.begins : Action → Bool
  | .call _ _ | .cancelIrp _ _ | .cancelRequest _ _ => true
  | _ => false

namespace Moves

/-- A thread at rest that begins no handler changes nothing. -/
theorem bus_of_rest (m : Moves t b a pc b' pc') (hpc : pc.rest = true) (ha : a.begins = false) :
    b' = b ∧ pc'.rest = true := by
  cases m <;> first | exact ⟨rfl, rfl⟩ | (cases ha; done) | cases hpc

/-- A thread in the middle of a handler makes its next step. -/
theorem isStep (m : Moves t b a pc b' pc') (h : pc.rest = false) : ∃ ok, a = .step t ok := by
  cases m <;> first | exact ⟨_, rfl⟩ | cases h

/-- **The list and the counter** change together, but for the FDO's handlers when they orphan a
child. -/
theorem numPDOs (m : Moves t b a pc b' pc') :
    (b'.fdo.numPDOs = b.fdo.numPDOs ∧ b'.fdo.listOfPDOs = b.fdo.listOfPDOs) ∨
    (∃ p, pc = .addInsert p ∧ b'.fdo.numPDOs = b.fdo.numPDOs + 1 ∧
      b'.fdo.listOfPDOs = b.fdo.listOfPDOs ++ [p]) ∨
    (∃ p, (pc = .pdoUnlink p ∨ (pc = .fdoLoop ∧ p ∈ b.fdo.listOfPDOs)) ∧
      b'.fdo.numPDOs = b.fdo.numPDOs - 1 ∧
      b'.fdo.listOfPDOs = b.fdo.listOfPDOs.erase p) ∨
    (b'.fdo.numPDOs = b.fdo.numPDOs ∧ ((pc = .fdoOrphan ∧ b'.fdo.listOfPDOs = []) ∨
      ∃ p ∈ b.fdo.listOfPDOs.head?, pc = .fdoLoop ∧
        (b.pdos p).devicePnPState = .surpriseRemovePending)) := by
  cases m
  case pdoUnlink p _ => exact .inr (.inr (.inl ⟨p, .inl rfl, rfl, rfl⟩))
  case fdoLoop p l h _ => exact .inr (.inr (.inl ⟨p, .inr ⟨rfl, by simp [h]⟩, rfl, rfl⟩))
  case fdoLoopOrphan p l h hs =>
    exact .inr (.inr (.inr ⟨rfl, .inr ⟨p, by simp [h], rfl, hs⟩⟩))
  case fdoOrphan => exact .inr (.inr (.inr ⟨rfl, .inl ⟨rfl, rfl⟩⟩))
  case addInsert p _ => exact .inr (.inl ⟨p, rfl, rfl, rfl⟩)
  all_goals exact .inl ⟨rfl, rfl⟩

/-- A REMOVE_DEVICE is sent to a PDO that is not deleted. -/
theorem removes (m : Moves t b a pc b' pc') (hpc : pc' = .pdoRemove p) :
    a.begins = true ∧ (b'.pdos p).deleted = false := by
  cases m
  case callPdoRemove hp =>
    cases hpc
    exact ⟨rfl, by simpa using (Bool.and_eq_true_iff.mp hp).2⟩
  all_goals first
    | cases hpc
    | (rename NextCaller => k; cases k <;> cases hpc)
    | (rename DestroyCaller => k; cases k <;> cases hpc)

/-- The removal from the list is reached by the REMOVE_DEVICE of a PDO that has its parent. -/
theorem unlinks (m : Moves t b a pc b' pc') (hpc : pc' = .pdoUnlink p) :
    pc = .pdoRemove p ∧ (b.pdos p).parentFdo ≠ none ∧ b'.fdo = b.fdo := by
  cases m
  case pdoRemoveMissing hf =>
    cases hpc
    exact ⟨rfl, hf, rfl⟩
  all_goals first
    | cases hpc
    | (rename NextCaller => k; cases k <;> cases hpc)
    | (rename DestroyCaller => k; cases k <;> cases hpc)

end Moves

namespace Driver

variable {s s' : Driver} {C : Driver → Action → Prop}

/-- **Each handler runs to its end before the next begins.** -/
def Sequential (s : Driver) (a : Action) : Prop := a.begins = true → ∀ t, (s.calls t).rest = true

/-- At most one handler is under way. -/
def OneHandler (s : Driver) : Prop :=
  ∀ t t', (s.calls t).rest = false → (s.calls t').rest = false → t = t'

/-- While another thread's handler is under way, the thread that moves is at rest. -/
theorem OneHandler.others {t₂ : Tid} (h : s.OneHandler) (hseq : s.Sequential a)
    (m : Moves t s.bus a (s.calls t) b' pc') (hne : t₂ ≠ t) (ht₂ : (s.calls t₂).rest = false) :
    b' = s.bus ∧ pc'.rest = true := by
  refine m.bus_of_rest ?_ ?_
  · by_contra ht
    exact hne (h t₂ t ht₂ (by simpa using ht))
  · by_contra ha
    rw [hseq (by simpa using ha) t₂] at ht₂
    cases ht₂

/-- A move that begins no handler beside another leaves one at most. -/
theorem OneHandler.move (h : s.OneHandler) (hseq : s.Sequential a)
    (m : Moves t s.bus a (s.calls t) b' pc') : (s.put t (b', pc')).OneHandler := by
  refine forall_update (L := fun t₁ (pc : Pc) => ∀ t₂, pc.rest = false →
    ((s.put t (b', pc')).calls t₂).rest = false → t₁ = t₂) ?_ ?_
  · intro t₂ hpc' ht₂
    by_contra hne
    rw [put_calls_of_ne s (Ne.symm hne)] at ht₂
    rw [(h.others hseq m (Ne.symm hne) ht₂).2] at hpc'
    cases hpc'
  · intro t₁ hne₁ t₂ ht₁ ht₂
    rcases eq_or_ne t₂ t with rfl | hne₂
    · rw [put_calls_self, (h.others hseq m hne₁ ht₁).2] at ht₂
      cases ht₂
    · rw [put_calls_of_ne s hne₂] at ht₂
      exact h t₁ t₂ ht₁ ht₂

/-- **The FDO's handlers make no orphans**: when SURPRISE_REMOVAL empties the list it is empty, and
REMOVE_DEVICE finds no child in the state `SurpriseRemovePending`. -/
def NoOrphaning (s : Driver) : Action → Prop
  | .step t _ =>
    (s.calls t = .fdoOrphan → s.bus.fdo.listOfPDOs = []) ∧
    (s.calls t = .fdoLoop → ∀ p ∈ s.bus.fdo.listOfPDOs.head?,
      (s.bus.pdos p).devicePnPState ≠ .surpriseRemovePending)
  | _ => True

/-- The counter follows the list, and the one handler under way knows the state of its PDO. -/
structure Counted (s : Driver) : Prop where
  count : s.bus.fdo.numPDOs = s.bus.fdo.listOfPDOs.length
  alone : ∀ t t', (s.calls t).rest = false → (s.calls t').rest = false → t = t'
  removing : ∀ t p, s.calls t = .pdoRemove p → (s.bus.pdos p).deleted = false
  unlinking : ∀ t p, s.calls t = .pdoUnlink p → p ∈ s.bus.fdo.listOfPDOs

/-- **A move that meets the conditions keeps the count.** -/
theorem Counted.move (h : s.Counted) (hl : s.Linked) (ho : s.Orphans) (hseq : s.Sequential a)
    (hno : s.NoOrphaning a) (m : Moves t s.bus a (s.calls t) b' pc') :
    (s.put t (b', pc')).Counted := by
  have halone : s.OneHandler := h.alone
  have hothers : ∀ t₂, t₂ ≠ t → (s.calls t₂).rest = false → b' = s.bus ∧ pc'.rest = true :=
    fun t₂ hne ht₂ => halone.others hseq m hne ht₂
  refine ⟨?_, ?_, ?_, ?_⟩
  · show b'.fdo.numPDOs = b'.fdo.listOfPDOs.length
    rcases m.numPDOs with ⟨hn, hlist⟩ | ⟨p, -, hn, hlist⟩ | ⟨p, hp, hn, hlist⟩ | ⟨hn, hp⟩
    · rw [hn, hlist, h.count]
    · rw [hn, hlist, h.count, List.length_append, List.length_singleton]
    · have hmem : p ∈ s.bus.fdo.listOfPDOs := hp.elim (h.unlinking t p) And.right
      rw [hn, hlist, h.count, List.length_erase_of_mem hmem]
    · have hrest : (s.calls t).rest = false := by
        rcases hp with ⟨hpc, -⟩ | ⟨p, -, hpc, -⟩ <;> rw [hpc] <;> rfl
      obtain ⟨ok, rfl⟩ := m.isStep hrest
      rcases hp with ⟨hpc, hlist⟩ | ⟨p, hp, hpc, hs⟩
      · rw [hn, hlist, h.count, hno.1 hpc]
      · exact absurd hs (hno.2 hpc p hp)
  · exact halone.move hseq m
  · refine forall_update (L := fun _ (pc : Pc) => ∀ p, pc = .pdoRemove p →
      (b'.pdos p).deleted = false) (fun p hpc => (m.removes hpc).2) ?_
    intro t₂ hne p ht₂
    rw [(hothers t₂ hne (by rw [ht₂]; rfl)).1]
    exact h.removing t₂ p ht₂
  · refine forall_update (L := fun _ (pc : Pc) => ∀ p, pc = .pdoUnlink p →
      p ∈ b'.fdo.listOfPDOs) ?_ ?_
    · intro p hpc'
      obtain ⟨hpc, hf, hfdo⟩ := m.unlinks hpc'
      rw [hfdo]
      by_contra hmem
      -- a PDO off the list that has its parent is being destroyed, by this thread alone
      refine hf (ho.orphan p (hl.mentions t p (by simp [hpc, Pc.mentions])) hmem
        (h.removing t p hpc) fun t₂ ht₂ => ?_).1
      have htt : t₂ = t :=
        h.alone t₂ t (Pc.rest_of_destroying ht₂) (by rw [hpc]; rfl)
      rw [htt, hpc] at ht₂
      cases ht₂
    · intro t₂ hne p ht₂
      rw [(hothers t₂ hne (by rw [ht₂]; rfl)).1]
      exact h.unlinking t₂ p ht₂

/-- The count is kept by every run that meets the conditions. -/
theorem counted (h : lts.Reach (fun s a => s.Sequential a ∧ s.NoOrphaning a) s) : s.Counted := by
  refine h.invariant (I := Counted) ?_ fun s a s' hr hi hC hs => ?_
  · refine ⟨rfl, fun t t' ht => ?_, fun t p ht => ?_, fun t p ht => ?_⟩ <;> cases ht
  · rcases step_moves hs with ⟨t, b', pc', m, rfl⟩ | ⟨m, f, -, rfl⟩ | ⟨e, -, -, rfl⟩
    · exact hi.move (linked hr) (orphans hr) hC.1 hC.2 m
    · exact ⟨hi.1, hi.2, hi.3, hi.4⟩
    · exact ⟨hi.1, hi.2, hi.3, hi.4⟩

/-! ## The representation invariant -/

/-- **`ListOfPDOs` represents the FDO's children**: it holds each of them once, `NumPDOs` counts
them, and a PDO that is neither on it nor destroyed is an orphan. -/
structure Represents (s : Driver) : Prop where
  count : s.bus.fdo.numPDOs = s.bus.fdo.listOfPDOs.length
  nodup : s.bus.fdo.listOfPDOs.Nodup
  parent : ∀ p ∈ s.bus.fdo.listOfPDOs, (s.bus.pdos p).parentFdo = some .fdo
  orphan : ∀ p, p < s.bus.pdoCount → (s.bus.pdos p).deleted = false →
    p ∉ s.bus.fdo.listOfPDOs →
    (s.bus.pdos p).parentFdo = none ∧ (s.bus.pdos p).reportedMissing = true

/-- **The list represents the children** whenever no handler is under way, in every run that meets
the conditions. -/
theorem represents (h : lts.Reach (fun s a => s.Sequential a ∧ s.NoOrphaning a) s)
    (hrest : ∀ t, (s.calls t).rest = true) : s.Represents where
  count := (counted h).count
  nodup := (linked h).nodup
  parent p hp := ((linked h).intact p hp).parentFdo
  orphan p hlt hd hp := by
    have hinit : (s.bus.pdos p).deviceInitializing = false := by
      by_contra hi
      obtain ⟨t, ht⟩ := (orphans h).unknown p hlt (by simpa using hi)
      have hpc := hrest t
      rw [ht] at hpc
      cases hpc
    refine (orphans h).orphan p ⟨hlt, hinit⟩ hp hd fun t ht => ?_
    exact absurd ((hrest t).symm.trans (Pc.rest_of_destroying ht)) (by simp)

/-! ## Runs of one thread -/

/-- Only the thread `t₀` acts, and it begins a handler when it is in none. -/
def solo (t₀ : Tid) (s : Driver) (a : Action) : Bool :=
  a.onlyBy [t₀] && (!a.begins || (s.calls t₀).rest)

/-- **The other threads stay at rest.** -/
theorem rest_of_solo {t₀ t : Tid} (h : lts.Reach C s) (hC : ∀ s a, C s a → solo t₀ s a = true)
    (hrest : (s.calls t₀).rest = true) : (s.calls t).rest = true := by
  rcases eq_or_ne t t₀ with rfl | hne
  · exact hrest
  · rw [idle_of_onlyBy h (fun s a ha => (Bool.and_eq_true_iff.mp (hC s a ha)).1) t
      (by simpa using hne)]
    rfl

/-- **A run of one thread is sequential.** -/
theorem sequential_of_solo {t₀ : Tid} (h : lts.Reach C s)
    (hC : ∀ s a, C s a → solo t₀ s a = true) (ha : solo t₀ s a = true) : s.Sequential a := by
  intro hbegins t
  exact rest_of_solo h hC (by simpa [hbegins] using (Bool.and_eq_true_iff.mp ha).2)

/-- A disk added, ejected, reported missing and removed. -/
theorem represents_removed :
    ∃ s, lts.Reach (fun s a => s.Sequential a ∧ s.NoOrphaning a) s ∧
      (s.bus.pdoCount = 1 ∧ s.bus.fdo.listOfPDOs = []) ∧ s.Represents := by
  obtain ⟨s, hs, hlast, hlist⟩ := lts.exists_reach
    (C := fun s a => solo (.sys 0) s a = true ∧ s.NoOrphaning a)
    (c := fun s a => solo (.sys 0) s a && match s.calls (.sys 0) with
      | .fdoOrphan | .fdoLoop => false
      | _ => true)
    (by
      intro s a ha
      obtain ⟨hsolo, hpc⟩ := Bool.and_eq_true_iff.mp ha
      refine ⟨hsolo, ?_⟩
      cases a with
      | step t ok =>
        obtain rfl : t = .sys 0 := by
          simpa [solo, Action.onlyBy, Action.thread, Action.begins] using hsolo
        constructor
        · intro ht
          simp [ht] at hpc
        · intro ht
          simp [ht] at hpc
      | _ => trivial)
    (routine (.sys 0) (.addDisk (smallDisk 1 0)) 3 ++ routine (.sys 0) (.pdoPnp 0 .eject) 1 ++
      routine (.sys 0) (.queryRelations none) 2 ++ routine (.sys 0) (.pdoRemove 0) 9)
    (fun s => (s.calls (.sys 0)).rest = true ∧ s.bus.pdoCount = 1 ∧ s.bus.fdo.listOfPDOs = [])
    (by decide +kernel)
  have hseq : lts.Reach (fun s a => s.Sequential a ∧ s.NoOrphaning a) s :=
    hs.mono fun s a hr _ ha => ⟨sequential_of_solo hr (fun _ _ h => h.1) ha.1, ha.2⟩
  exact ⟨s, hseq, hlist, represents hseq fun t => rest_of_solo hs (fun _ _ h => h.1) hlast⟩

/-- **SURPRISE_REMOVAL of the FDO leaves `NumPDOs` behind**: it takes the children off the list and
does not count them off. -/
theorem not_represents : ¬ ∀ s, lts.Reach Sequential s → (∀ t, (s.calls t).rest = true) →
    s.Represents := by
  intro h
  obtain ⟨s, hs, hlast, hn, hlist⟩ := lts.exists_reach
    (C := fun s a => solo (.sys 0) s a = true) (c := solo (.sys 0)) (fun _ _ ha => ha)
    (routine (.sys 0) (.addDisk (smallDisk 1 0)) 3 ++ routine (.sys 0) .fdoSurpriseRemoval 2)
    (fun s => (s.calls (.sys 0)).rest = true ∧ s.bus.fdo.numPDOs = 1 ∧ s.bus.fdo.listOfPDOs = [])
    (by decide +kernel)
  have hseq : lts.Reach Sequential s :=
    hs.mono fun s a hr _ ha => sequential_of_solo hr (fun _ _ h => h) ha
  have hcount := (h s hseq fun t => rest_of_solo hs (fun _ _ h => h) hlast).count
  rw [hn, hlist] at hcount
  cases hcount

end Driver

end VirtualDisk
