import VirtualDisk.Driver.Deletion
import VirtualDisk.Driver.Traversal

/-!
# Driver/Unlinking — a PDO is taken off the list once

Two routines take a PDO off the list and off the count: its own REMOVE_DEVICE, and the FDO's.  The
PDO's own one decides to before it has the mutex, so the FDO's can come first.  An entry that the
FDO's handlers orphaned links to itself, and to take it off once more is harmless; one that was
counted off and destroyed keeps the links it had.

In the runs in which that does not happen `NumPDOs` counts at least the PDOs on the list, whatever
becomes of the FDO.
-/

namespace VirtualDisk

open Machinery

variable {t : Tid} {a : Action} {b b' : Bus} {pc pc' : Pc} {p q : PdoId}

/-- No PDO on a list follows itself. -/
theorem Bus.next_ne_self {l : List PdoId} (hn : l.Nodup) : Bus.next l p ≠ .pdo p := by
  by_cases hp : p ∈ l
  · obtain ⟨l₁, l₂, rfl⟩ := List.append_of_mem hp
    obtain ⟨-, hn₂, hdisj⟩ := List.nodup_append.mp hn
    rw [next_append_cons fun h => hdisj p h p List.mem_cons_self rfl]
    intro hfirst
    cases l₂ with
    | nil => cases hfirst
    | cons y l =>
      obtain rfl := Entry.pdo.inj hfirst
      exact (List.nodup_cons.mp hn₂).1 List.mem_cons_self
  · intro hnext
    exact hp (mem_of_next hnext)

namespace Driver

variable {s s' : Driver} {C : Driver → Action → Prop}

/-- **No PDO is taken off the list twice**: when a PDO's REMOVE_DEVICE takes it off, it is on the
list, or was orphaned and links to itself. -/
def UnlinksOnce (s : Driver) : Action → Prop
  | .step t _ => ∀ p, s.calls t = .pdoUnlink p →
      p ∈ s.bus.fdo.listOfPDOs ∨ (s.bus.pdos p).flink = .pdo p
  | _ => True

open Classical in
/-- The PDOs that `NumPDOs` counts: those on the list, and the orphans whose REMOVE_DEVICE is about
to count them off. -/
noncomputable def owed (s : Driver) : Finset PdoId :=
  (Finset.range s.bus.pdoCount).filter fun p => p ∈ s.bus.fdo.listOfPDOs ∨
    ((∃ t, (s.calls t).unlinks = some p) ∧ (s.bus.pdos p).flink = .pdo p)

theorem mem_owed (hl : s.Linked) : p ∈ s.owed ↔ p ∈ s.bus.fdo.listOfPDOs ∨
    ((∃ t, (s.calls t).unlinks = some p) ∧ (s.bus.pdos p).flink = .pdo p) := by
  simp only [owed, Finset.mem_filter, Finset.mem_range, and_iff_right_iff_imp]
  rintro (hp | ⟨⟨t, ht⟩, -⟩)
  · exact (hl.known hp).1
  · exact (hl.mentions t p (Pc.mem_mentions_of_unlinks ht)).1

/-- The PDO's own link leads to itself because it was orphaned, and every PDO on the list is
counted. -/
structure Owing (s : Driver) : Prop where
  orphaned : ∀ p, (s.bus.pdos p).flink = .pdo p → (s.bus.pdos p).parentFdo = none
  count : s.owed.card ≤ s.bus.fdo.numPDOs

end Driver

namespace Moves

/-- A link comes to lead to its own PDO when that is orphaned. -/
theorem flink_self (m : Moves t b a pc b' pc') (hn : b.fdo.listOfPDOs.Nodup)
    (h : (b'.pdos p).flink = .pdo p) : (b.pdos p).flink = .pdo p ∨
      (p ∈ b.fdo.listOfPDOs ∧ (b'.pdos p).parentFdo = none) := by
  have hself : b.flink (.pdo p) = .pdo p → (b.pdos p).flink = .pdo p := by
    intro hf
    by_cases hp : p ∈ b.fdo.listOfPDOs
    · rw [Bus.flink_of_mem hp] at hf
      exact absurd hf (Bus.next_ne_self hn)
    · rwa [Bus.flink_of_not_mem hp] at hf
  cases m
  case fdoOrphan =>
    by_cases hp : p ∈ b.fdo.listOfPDOs
    · exact .inr ⟨hp, by simp [hp]⟩
    · exact .inl (by simpa [hp] using h)
  case fdoLoopOrphan q l hl hs =>
    by_cases hp : p = q
    · subst hp
      exact .inr ⟨by simp [hl], by simp⟩
    · exact .inl (by simpa [hp] using h)
  case pdoUnlink q hm =>
    by_cases hp : p = q
    · subst hp
      exact .inl (hself (by simpa using h))
    · exact .inl (by simpa [hp] using h)
  case fdoLoop q l hl hs =>
    by_cases hp : p = q
    · subst hp
      exact .inl (hself (by simpa using h))
    · exact .inl (by simpa [hp] using h)
  all_goals first
    | exact .inl h
    | exact .inl ((frame_update PdoDeviceData.flink (by rfl)).symm.trans h)
    | skip
  all_goals simp [Function.update_apply] at h
  all_goals split at h <;> simp_all [Bus.newPdo]

/-- A PDO that is counted off by the FDO's REMOVE_DEVICE keeps its link. -/
theorem flink_of_fdoLoop (m : Moves t b a .fdoLoop b' pc') (hn : b.fdo.listOfPDOs.Nodup)
    (hcount : b'.fdo.numPDOs ≠ b.fdo.numPDOs) (hlist : b'.fdo.listOfPDOs = b.fdo.listOfPDOs.erase p)
    (hp : p ∈ b.fdo.listOfPDOs) : (b'.pdos p).flink ≠ .pdo p := by
  cases m with
  | fdoLoopEnd h => simp [h] at hp
  | fdoLoopOrphan h hs => exact absurd rfl hcount
  | @fdoLoop _ q l h hs =>
    have hpq : p = q := by
      by_contra hne
      have hmem : q ∈ b.fdo.listOfPDOs.erase p :=
        (List.mem_erase_of_ne (Ne.symm hne)).mpr (by simp [h])
      have hlist : (b.fdo.listOfPDOs.erase q) = b.fdo.listOfPDOs.erase p := hlist
      rw [← hlist] at hmem
      exact hn.not_mem_erase hmem
    subst hpq
    have hf : ((b.unlinkCounted p).pdos p).flink = b.flink (.pdo p) := by simp
    rw [hf, Bus.flink_of_mem hp]
    exact Bus.next_ne_self hn

end Moves

namespace Driver

variable {s s' : Driver} {C : Driver → Action → Prop}

/-- What is owed after a move was so before, or was put on the list. -/
theorem Owing.subset (h : s.Owing) (hl : s.Linked)
    (m : Moves t s.bus a (s.calls t) b' pc') (hp : p ∈ (s.put t (b', pc')).owed) :
    p ∈ s.owed ∨ s.calls t = .addInsert p := by
  rw [mem_owed (hl.move m)] at hp
  rw [mem_owed hl]
  rcases hp with hp | ⟨⟨t₂, ht₂⟩, hf⟩
  · exact (m.mem_listOfPDOs hp).imp_left .inl
  rcases m.flink_self hl.nodup hf with hself | ⟨hp, -⟩
  · refine .inl (.inr ⟨?_, hself⟩)
    rcases eq_or_ne t₂ t with rfl | hne
    · -- a PDO that links to itself has no parent to be taken from
      rw [put_calls_self] at ht₂
      exact absurd (h.orphaned p hself) (m.enters_unlink ht₂).2.2.1
    · rw [put_calls_of_ne s hne] at ht₂
      exact ⟨t₂, ht₂⟩
  · exact .inl (.inl hp)

/-- A link that leads to its own PDO stays with an orphan. -/
theorem Owing.orphaned_move (h : s.Owing) (hl : s.Linked)
    (m : Moves t s.bus a (s.calls t) b' pc') (hf : (b'.pdos p).flink = .pdo p) :
    (b'.pdos p).parentFdo = none := by
  rcases m.flink_self hl.nodup hf with hf | ⟨-, hnull⟩
  · rcases Nat.lt_or_ge p s.bus.pdoCount with hlt | hge
    · exact (m.ages hlt).parentFdo (h.orphaned p hf)
    · rw [hl.new p hge] at hf
      cases hf
  · exact hnull

/-- **A move that takes no PDO off twice keeps the count.** -/
theorem Owing.move (h : s.Owing) (hl : s.Linked) (hr : s.Removing) (hu : s.UnlinksOnce a)
    (m : Moves t s.bus a (s.calls t) b' pc') : (s.put t (b', pc')).Owing := by
  refine ⟨fun p => h.orphaned_move hl m, m.card_le h.count (fun p hp => h.subset hl m hp) ?_ ?_⟩
  · intro p hpc
    rw [mem_owed hl]
    rcases hpc with hpc | ⟨-, hp⟩
    · obtain ⟨ok, rfl⟩ := m.isStep (by rw [hpc]; rfl)
      exact (hu p hpc).imp_right fun hf => ⟨⟨t, by rw [hpc]; rfl⟩, hf⟩
    · exact .inl hp
  · -- nobody is left who would count the PDO off again
    intro p hpc hn hlist
    rw [mem_owed (hl.move m), not_or, not_and]
    refine ⟨fun hmem => hl.nodup.not_mem_erase (hlist ▸ hmem), ?_⟩
    rintro ⟨t₂, ht₂⟩ hf
    rcases eq_or_ne t₂ t with rfl | hne
    · rw [put_calls_self] at ht₂
      have hent := (m.enters_unlink ht₂).1
      rcases hpc with hpc | ⟨hpc, -⟩ <;> rw [hpc] at hent <;> cases hent
    · rw [put_calls_of_ne s hne] at ht₂
      rcases hpc with hpc | ⟨hpc, hp⟩
      · exact hne (hr.alone t₂ t p ht₂ (by rw [hpc]; rfl))
      · rw [hpc] at m
        exact m.flink_of_fdoLoop hl.nodup hn hlist hp hf

/-- **Every PDO on the list is counted**, in every run in which none is taken off twice. -/
theorem owing (hC : ∀ s a, C s a → s.UnlinksOnce a) (h : lts.Reach C s) : s.Owing := by
  refine h.invariant (I := Owing) ?_ fun s a s' hr hi hc hs => ?_
  · refine ⟨fun p hf => (nomatch hf), ?_⟩
    refine (Finset.card_eq_zero.mpr (Finset.eq_empty_of_forall_notMem fun p hp => ?_)).le
    rcases (mem_owed Linked.init).mp hp with hp | ⟨⟨t, ht⟩, -⟩
    · cases hp
    · cases ht
  · rcases step_moves hs with ⟨t, b', pc', m, rfl⟩ | ⟨_, _, -, rfl⟩ | ⟨_, -, -, rfl⟩
    · exact hi.move (linked hr) (removing hr) (hC s a hc) m
    · exact ⟨hi.1, hi.2⟩
    · exact ⟨hi.1, hi.2⟩

theorem Owing.length_le (h : s.Owing) (hl : s.Linked) :
    s.bus.fdo.listOfPDOs.length ≤ s.bus.fdo.numPDOs := by
  rw [← List.toFinset_card_of_nodup hl.nodup]
  refine (Finset.card_le_card fun p hp => ?_).trans h.count
  exact (mem_owed hl).mpr (.inl (List.mem_toFinset.mp hp))

/-- A PDO is counted off where something is counted. -/
theorem Owing.numPDOs_pos (h : s.Owing) (hl : s.Linked) {ok : Bool}
    (hu : s.UnlinksOnce (.step t ok)) (hpc : s.calls t = .pdoUnlink p) :
    0 < s.bus.fdo.numPDOs := by
  refine Nat.lt_of_lt_of_le (Finset.card_pos.mpr ⟨p, (mem_owed hl).mpr ?_⟩) h.count
  exact (hu p hpc).imp_right fun hf => ⟨⟨t, by rw [hpc]; rfl⟩, hf⟩

end Driver

end VirtualDisk
