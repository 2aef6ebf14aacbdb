import Mathlib.Data.Finset.Card
import VirtualDisk.Driver.Children

/-!
# Driver/Deletion — `Deleted` states, and the counter under any interleaving

A PDO whose removal has begun is `Deleted` for good, so each PDO is counted off once at most.  Until
the FDO itself is deleted, `NumPDOs` counts at least the PDOs on the list and those about to be
counted off.
-/

namespace VirtualDisk

open Machinery

variable {t : Tid} {a : Action} {b b' : Bus} {pc pc' : Pc} {p q : PdoId}

namespace Pc

/-- The PDO that a thread's REMOVE_DEVICE is about to take off the list. -/
def unlinks : Pc → Option PdoId
  | .pdoUnlink p => some p
  | _ => none

/-- The FDO's REMOVE_DEVICE is past its `SET_NEW_PNP_STATE`. -/
def inFdoRemove : Pc → Bool
  | .fdoLock | .fdoLoop => true
  | .destroyTake _ k | .destroyComplete _ _ k | .destroyDrain _ k | .destroyDrained _ _ k => k = .fdo
  | .destroyUnmap _ k | .destroySignal _ k | .destroyDelete _ k => k = .fdo
  | _ => false

@[simp] theorem unlinks_nextReturn (k : NextCaller) : (nextReturn k).unlinks = none := by
  cases k <;> rfl

@[simp] theorem unlinks_destroyReturn (k : DestroyCaller) : (destroyReturn k).unlinks = none := by
  cases k <;> rfl

@[simp] theorem inFdoRemove_nextReturn (k : NextCaller) :
    (nextReturn k).inFdoRemove = false := by
  cases k <;> rfl

theorem inFdoRemove_destroyReturn (k : DestroyCaller) :
    (destroyReturn k).inFdoRemove = decide (k = .fdo) := by
  cases k <;> rfl

theorem unlinks_eq_some (h : pc.unlinks = some p) : pc = .pdoUnlink p := by
  cases pc <;> cases h
  rfl

theorem mem_mentions_of_unlinks (h : pc.unlinks = some p) : p ∈ pc.mentions := by
  rw [unlinks_eq_some h]
  exact List.mem_singleton_self p

end Pc

namespace Moves

/-- The FDO stays deleted. -/
theorem fdo_deleted (m : Moves t b a pc b' pc') (h : b.fdo.devicePnPState = .deleted) :
    b'.fdo.devicePnPState = .deleted := by
  cases m
  case fdoSurprise hd => exact absurd h hd
  all_goals first
    | exact h
    | rfl

/-- The FDO's REMOVE_DEVICE runs on a deleted FDO. -/
theorem inFdoRemove (m : Moves t b a pc b' pc') (h : pc'.inFdoRemove = true) :
    pc.inFdoRemove = true ∨ b'.fdo.devicePnPState = .deleted := by
  cases m
  case fdoRemove => exact .inr rfl
  all_goals first
    | exact .inl h
    | exact .inl rfl
    | (rw [Pc.inFdoRemove_nextReturn] at h; cases h)
    | (rw [Pc.inFdoRemove_destroyReturn] at h; exact .inl h)

/-- A PDO is about to be taken off the list when its state was set. -/
theorem enters_unlink (m : Moves t b a pc b' pc') (h : pc'.unlinks = some p) :
    pc = .pdoRemove p ∧ (b.pdos p).devicePnPState ≠ .deleted ∧ (b.pdos p).parentFdo ≠ none ∧
    b'.fdo = b.fdo ∧ (b'.pdos p).devicePnPState = .deleted := by
  have hpc' := Pc.unlinks_eq_some h
  obtain ⟨hpc, hf, hfdo⟩ := m.unlinks hpc'
  rw [hpc, hpc'] at m
  cases m with
  | pdoRemoveMissing hd _ _ => exact ⟨hpc, hd, hf, hfdo, by simp⟩

/-- A destruction begins when the PDO's state is set, or in the FDO's REMOVE_DEVICE. -/
theorem removing (m : Moves t b a pc b' pc') (h : pc'.destroying = some p) :
    (pc.unlinks = some p ∨ pc.destroying = some p) ∨ (b'.pdos p).devicePnPState = .deleted ∨
    (pc = .fdoLoop ∧ p ∈ b.fdo.listOfPDOs) := by
  cases m
  case pdoRemoveOrphan q _ _ _ =>
    obtain rfl : q = p := Option.some.inj h
    exact .inr (.inl (by simp))
  case fdoLoop q l hl _ =>
    obtain rfl : q = p := Option.some.inj h
    exact .inr (.inr ⟨rfl, by simp [hl]⟩)
  case pdoUnlink => exact .inl (.inl h)
  all_goals first
    | exact .inl (.inr h)
    | (rw [Pc.destroying_nextReturn] at h; cases h)
    | (rw [Pc.destroying_destroyReturn] at h; cases h)

/-- `IoDeleteDevice` is called by the thread that destroys the PDO. -/
theorem deletes (m : Moves t b a pc b' pc') (hnew : b.pdos b.pdoCount = {})
    (h : (b'.pdos p).deleted = true) : (b.pdos p).deleted = true ∨ pc.destroying = some p :=
  (m.deleted hnew).imp (fun heq => heq.symm.trans h) Pc.destroying_of_unmapped

/-- **The counter keeps up with a set of PDOs** to which a move adds what it puts on the list at
most, and from which it takes what it counts off. -/
theorem card_le {F F' : Finset PdoId} (m : Moves t b a pc b' pc') (hcount : F.card ≤ b.fdo.numPDOs)
    (hsub : ∀ p ∈ F', p ∈ F ∨ pc = .addInsert p)
    (hmem : ∀ p, pc = .pdoUnlink p ∨ (pc = .fdoLoop ∧ p ∈ b.fdo.listOfPDOs) → p ∈ F)
    (hgone : ∀ p, pc = .pdoUnlink p ∨ (pc = .fdoLoop ∧ p ∈ b.fdo.listOfPDOs) →
      b'.fdo.numPDOs ≠ b.fdo.numPDOs → b'.fdo.listOfPDOs = b.fdo.listOfPDOs.erase p → p ∉ F') :
    F'.card ≤ b'.fdo.numPDOs := by
  have hnot : ∀ p, b'.fdo.numPDOs = b.fdo.numPDOs → pc ≠ .addInsert p := by
    rintro p hn rfl
    cases m with
    | addInsert => exact absurd hn (Nat.succ_ne_self _)
  have hkept : b'.fdo.numPDOs = b.fdo.numPDOs → F'.card ≤ b'.fdo.numPDOs := fun hn =>
    hn ▸ (Finset.card_le_card fun p hp => (hsub p hp).resolve_right (hnot p hn)).trans hcount
  rcases m.numPDOs with ⟨hn, -⟩ | ⟨p, rfl, hn, -⟩ | ⟨p, hpc, hn, hlist⟩ | ⟨hn, -⟩
  · exact hkept hn
  · rw [hn]
    refine (Finset.card_le_card (t := insert p F) fun q hq => ?_).trans
      ((Finset.card_insert_le _ _).trans (Nat.succ_le_succ hcount))
    rcases hsub q hq with hq | hqc
    · exact Finset.mem_insert_of_mem hq
    · exact Pc.addInsert.inj hqc ▸ Finset.mem_insert_self _ _
  · have hpos : 0 < F.card := Finset.card_pos.mpr ⟨p, hmem p hpc⟩
    have hadd : ∀ q, pc ≠ .addInsert q := by
      rintro q rfl
      rcases hpc with hpc | ⟨hpc, -⟩ <;> cases hpc
    have herase : F' ⊆ F.erase p := fun q hq => Finset.mem_erase.mpr
      ⟨fun heq => hgone p hpc (by omega) hlist (heq ▸ hq), (hsub q hq).resolve_right (hadd q)⟩
    rw [hn]
    refine (Finset.card_le_card herase).trans ?_
    rw [Finset.card_erase_of_mem (hmem p hpc)]
    exact Nat.sub_le_sub_right hcount 1
  · exact hkept hn

end Moves

namespace Driver

variable {s s' : Driver} {C : Driver → Action → Prop}

open Classical in
/-- The PDOs still to be counted off: those on the list, and those whose REMOVE_DEVICE is about to
take them off it. -/
noncomputable def due (s : Driver) : Finset PdoId :=
  (Finset.range s.bus.pdoCount).filter fun p =>
    p ∈ s.bus.fdo.listOfPDOs ∨ ∃ t, (s.calls t).unlinks = some p

/-- What holds of removals, some of it while the FDO is not deleted. -/
structure Removing (s : Driver) : Prop where
  fdo : ∀ t, (s.calls t).inFdoRemove = true → s.bus.fdo.devicePnPState = .deleted
  unlinking : ∀ t p, (s.calls t).unlinks = some p → (s.bus.pdos p).devicePnPState = .deleted
  alone : ∀ t t' p, (s.calls t).unlinks = some p → (s.calls t').unlinks = some p → t = t'
  destroying : s.bus.fdo.devicePnPState ≠ .deleted → ∀ t p,
    (s.calls t).destroying = some p → (s.bus.pdos p).devicePnPState = .deleted
  gone : s.bus.fdo.devicePnPState ≠ .deleted → ∀ p, p < s.bus.pdoCount →
    (s.bus.pdos p).deleted = true → (s.bus.pdos p).devicePnPState = .deleted
  count : s.bus.fdo.devicePnPState ≠ .deleted → s.due.card ≤ s.bus.fdo.numPDOs

theorem mem_due (hl : s.Linked) :
    p ∈ s.due ↔ p ∈ s.bus.fdo.listOfPDOs ∨ ∃ t, (s.calls t).unlinks = some p := by
  simp only [due, Finset.mem_filter, Finset.mem_range, and_iff_right_iff_imp]
  rintro (hp | ⟨t, ht⟩)
  · exact (hl.known hp).1
  · exact (hl.mentions t p (Pc.mem_mentions_of_unlinks ht)).1

/-- While the FDO is not deleted, a PDO that has its parent and whose removal has not begun is on
the list. -/
theorem Removing.mem_listOfPDOs (h : s.Removing) (ho : s.Orphans)
    (hd : s.bus.fdo.devicePnPState ≠ .deleted) (hk : s.bus.Known p)
    (hp : (s.bus.pdos p).devicePnPState ≠ .deleted) (hf : (s.bus.pdos p).parentFdo ≠ none) :
    p ∈ s.bus.fdo.listOfPDOs := by
  by_contra hmem
  refine hf (ho.orphan p hk hmem ?_ fun t ht => hp (h.destroying hd t p ht)).1
  by_contra hdel
  exact hp (h.gone hd p hk.1 (by simpa using hdel))

/-- The PDOs still to be counted off after a move were so before, or one was put on the list. -/
theorem Removing.due_subset (h : s.Removing) (hl : s.Linked) (ho : s.Orphans)
    (m : Moves t s.bus a (s.calls t) b' pc') (hd : s.bus.fdo.devicePnPState ≠ .deleted)
    (hp : p ∈ (s.put t (b', pc')).due) :
    p ∈ s.due ∨ s.calls t = .addInsert p := by
  rw [mem_due (hl.move m)] at hp
  rw [mem_due hl]
  rcases hp with hp | ⟨t₂, ht₂⟩
  · exact (m.mem_listOfPDOs hp).imp_left .inl
  · rcases eq_or_ne t₂ t with rfl | hne
    · rw [put_calls_self] at ht₂
      obtain ⟨hpc, hstate, hf, -, -⟩ := m.enters_unlink ht₂
      exact .inl (.inl (h.mem_listOfPDOs ho hd
        (hl.mentions t₂ p (by simp [hpc, Pc.mentions])) hstate hf))
    · rw [put_calls_of_ne s hne] at ht₂
      exact .inl (.inr ⟨t₂, ht₂⟩)

/-- **A move keeps the count.** -/
theorem Removing.count_move (h : s.Removing) (hl : s.Linked) (ho : s.Orphans)
    (m : Moves t s.bus a (s.calls t) b' pc') (hd : s.bus.fdo.devicePnPState ≠ .deleted) :
    (s.put t (b', pc')).due.card ≤ b'.fdo.numPDOs := by
  have hunlinks : ∀ p, s.calls t = .pdoUnlink p ∨ (s.calls t = .fdoLoop ∧
      p ∈ s.bus.fdo.listOfPDOs) → (s.calls t).unlinks = some p := by
    rintro p (hpc | ⟨hpc, -⟩)
    · rw [hpc]
      rfl
    · exact absurd (h.fdo t (by rw [hpc]; rfl)) hd
  refine m.card_le (h.count hd) (fun p hp => h.due_subset hl ho m hd hp)
    (fun p hpc => (mem_due hl).mpr (.inr ⟨t, hunlinks p hpc⟩)) ?_
  -- no other thread is about to count the PDO off again
  intro p hpc _ hlist hp
  rcases (mem_due (hl.move m)).mp hp with hmem | ⟨t₂, ht₂⟩
  · have hmem : p ∈ b'.fdo.listOfPDOs := hmem
    rw [hlist] at hmem
    exact hl.nodup.not_mem_erase hmem
  · rcases eq_or_ne t₂ t with rfl | hne
    · rw [put_calls_self] at ht₂
      have hent := Pc.unlinks_eq_some (hunlinks p hpc)
      rw [(m.enters_unlink ht₂).1] at hent
      cases hent
    · rw [put_calls_of_ne s hne] at ht₂
      exact hne (h.alone t₂ t p ht₂ (hunlinks p hpc))

/-- **A move keeps what is known of removals.** -/
theorem Removing.move (h : s.Removing) (hl : s.Linked) (ho : s.Orphans)
    (m : Moves t s.bus a (s.calls t) b' pc') : (s.put t (b', pc')).Removing := by
  have hfdo : b'.fdo.devicePnPState ≠ .deleted → s.bus.fdo.devicePnPState ≠ .deleted :=
    fun hd hd' => hd (m.fdo_deleted hd')
  have hunlink : ∀ {t₂ p}, (s.calls t₂).unlinks = some p → p < s.bus.pdoCount :=
    fun {t₂ p} ht₂ => (hl.mentions t₂ p (Pc.mem_mentions_of_unlinks ht₂)).1
  have hdestroy : ∀ {t₂ p}, (s.calls t₂).destroying = some p → p < s.bus.pdoCount :=
    fun {t₂ p} ht₂ => (hl.mentions t₂ p (Pc.mem_mentions_of_destroying ht₂)).1
  refine ⟨?_, ?_, ?_, ?_, ?_, fun hd => h.count_move hl ho m (hfdo hd)⟩
  · refine forall_update (L := fun _ (pc : Pc) => pc.inFdoRemove = true →
      b'.fdo.devicePnPState = .deleted) ?_ fun t₂ _ ht₂ => m.fdo_deleted (h.fdo t₂ ht₂)
    intro hpc
    rcases m.inFdoRemove hpc with hpc | hd
    · exact m.fdo_deleted (h.fdo t hpc)
    · exact hd
  · refine forall_update (L := fun _ (pc : Pc) => ∀ p, pc.unlinks = some p →
      (b'.pdos p).devicePnPState = .deleted) (fun p hp => (m.enters_unlink hp).2.2.2.2) ?_
    intro t₂ _ p ht₂
    exact (m.ages (hunlink ht₂)).state (h.unlinking t₂ p ht₂)
  · -- a PDO whose state is not yet `Deleted` is being taken off by no thread
    have hother : ∀ t₂ p, pc'.unlinks = some p → (s.calls t₂).unlinks ≠ some p :=
      fun t₂ p hp ht₂ => (m.enters_unlink hp).2.1 (h.unlinking t₂ p ht₂)
    refine forall_update (L := fun t₁ (pc : Pc) => ∀ t₂ p, pc.unlinks = some p →
      ((s.put t (b', pc')).calls t₂).unlinks = some p → t₁ = t₂) ?_ ?_
    · intro t₂ p hp ht₂
      by_contra hne
      rw [put_calls_of_ne s (Ne.symm hne)] at ht₂
      exact hother t₂ p hp ht₂
    · intro t₁ hne₁ t₂ p ht₁ ht₂
      rcases eq_or_ne t₂ t with rfl | hne₂
      · rw [put_calls_self] at ht₂
        exact absurd ht₁ (hother t₁ p ht₂)
      · rw [put_calls_of_ne s hne₂] at ht₂
        exact h.alone t₁ t₂ p ht₁ ht₂
  · intro hd
    refine forall_update (L := fun _ (pc : Pc) => ∀ p,
      pc.destroying = some p → (b'.pdos p).devicePnPState = .deleted) ?_ ?_
    · intro p hp
      rcases m.removing hp with (hpc | hpc) | hpc | hpc
      · exact (m.ages (hunlink hpc)).state (h.unlinking t p hpc)
      · exact (m.ages (hdestroy hpc)).state (h.destroying (hfdo hd) t p hpc)
      · exact hpc
      · exact absurd (h.fdo t (by rw [hpc.1]; rfl)) (hfdo hd)
    · intro t₂ _ p ht₂
      exact (m.ages (hdestroy ht₂)).state (h.destroying (hfdo hd) t₂ p ht₂)
  · intro hd p hlt hdel
    rcases Nat.lt_or_ge p s.bus.pdoCount with hold | hge
    · rcases m.deletes (hl.new _ le_rfl) hdel with hdel | hpc
      · exact (m.ages hold).state (h.gone (hfdo hd) p hold hdel)
      · exact (m.ages hold).state (h.destroying (hfdo hd) t p hpc)
    · obtain ⟨-, dd, -, -, -, hdd⟩ := m.creates hlt hge
      have hdel : (b'.pdos p).deleted = true := hdel
      rw [hdd] at hdel
      cases hdel

/-- **Removals, in every state reached.** -/
theorem removing (h : lts.Reach C s) : s.Removing := by
  refine h.invariant (I := Removing) ?_ fun s a s' hr hi hC hs => ?_
  · refine ⟨fun t ht => ?_, fun t p ht => ?_, fun t t' p ht => ?_, fun _ t p ht => ?_,
      fun _ p hp => ?_, fun _ => ?_⟩
    · cases ht
    · cases ht
    · cases ht
    · cases ht
    · exact absurd hp (Nat.not_lt_zero p)
    · refine (Finset.card_eq_zero.mpr (Finset.eq_empty_of_forall_notMem fun p hp => ?_)).le
      rcases (mem_due Linked.init).mp hp with hp | ⟨t, ht⟩
      · cases hp
      · cases ht
  · rcases step_moves hs with ⟨t, b', pc', m, rfl⟩ | ⟨m, f, -, rfl⟩ | ⟨e, -, -, rfl⟩
    · exact hi.move (linked hr) (orphans hr) m
    · exact ⟨hi.1, hi.2, hi.3, hi.4, hi.5, hi.6⟩
    · exact ⟨hi.1, hi.2, hi.3, hi.4, hi.5, hi.6⟩

/-- **Every PDO on the list is counted**, until the FDO is deleted. -/
theorem Removing.length_le (h : s.Removing) (hl : s.Linked)
    (hd : s.bus.fdo.devicePnPState ≠ .deleted) :
    s.bus.fdo.listOfPDOs.length ≤ s.bus.fdo.numPDOs := by
  rw [← List.toFinset_card_of_nodup hl.nodup]
  refine (Finset.card_le_card fun p hp => ?_).trans (h.count hd)
  exact (mem_due hl).mpr (.inl (List.mem_toFinset.mp hp))

/-- **Where the counter is exact**, a PDO about to be counted off is on the list. -/
theorem Removing.mem_of_unlinks (h : s.Removing) (hl : s.Linked)
    (hd : s.bus.fdo.devicePnPState ≠ .deleted)
    (hn : s.bus.fdo.numPDOs = s.bus.fdo.listOfPDOs.length) (ht : (s.calls t).unlinks = some p) :
    p ∈ s.bus.fdo.listOfPDOs := by
  have hsub : s.bus.fdo.listOfPDOs.toFinset ⊆ s.due := fun q hq =>
    (mem_due hl).mpr (.inl (List.mem_toFinset.mp hq))
  have hcard : s.due.card ≤ s.bus.fdo.listOfPDOs.toFinset.card := by
    rw [List.toFinset_card_of_nodup hl.nodup, ← hn]
    exact h.count hd
  have hp : p ∈ s.due := (mem_due hl).mpr (.inr ⟨t, ht⟩)
  rw [← Finset.eq_of_subset_of_card_le hsub hcard] at hp
  exact List.mem_toFinset.mp hp

end Driver

end VirtualDisk
