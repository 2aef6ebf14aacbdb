import VirtualDisk.Machinery.Path
import VirtualDisk.Driver.Ownership

/-!
# Driver/Traversal — the loop over the disks

The loop of IOCTL_BUSENUM_GET_REQUEST follows the links of `ListOfPDOs` without the mutex under
which they change.  A disk put on the list or taken off it elsewhere leaves the loop on its way to
the head, and so does the unlinking of the disk the loop stands at, whose own link is left as it
was.  What does not is a link made to point to itself, by the FDO's handlers, and a disk that is
deleted while the loop has still to read its link.
-/

namespace VirtualDisk

open Machinery

variable {t : Tid} {a : Action} {b b' : Bus} {pc pc' : Pc} {p q x : PdoId} {e : Entry}
  {l : List PdoId}

/-! ## The list as links -/

/-- The PDO of an entry. -/
def Entry.node : Entry → Option PdoId
  | .head => none
  | .pdo p => some p

/-- How many PDOs' links are to be read on the way from `e` through `l`. -/
def Entry.remaining (e : Entry) (l : List Entry) : ℕ := ((e :: l).filterMap Entry.node).length

@[simp] theorem Entry.remaining_pdo (p : PdoId) (e : Entry) (l : List Entry) :
    remaining (.pdo p) (e :: l) = e.remaining l + 1 := rfl

@[simp] theorem Entry.remaining_head (e : Entry) (l : List Entry) :
    remaining .head (e :: l) = e.remaining l := rfl

namespace Bus

/-- The link of the list's head. -/
def first : List PdoId → Entry
  | [] => .head
  | q :: _ => .pdo q

theorem flink_head (b : Bus) : b.flink .head = first b.fdo.listOfPDOs := by
  unfold flink
  cases b.fdo.listOfPDOs <;> rfl

theorem flink_of_mem (h : p ∈ b.fdo.listOfPDOs) : b.flink (.pdo p) = next b.fdo.listOfPDOs p :=
  if_pos h

theorem flink_of_not_mem (h : p ∉ b.fdo.listOfPDOs) : b.flink (.pdo p) = (b.pdos p).flink :=
  if_neg h

@[simp] theorem next_cons_self (p : PdoId) (l : List PdoId) : next (p :: l) p = first l := by
  cases l <;> simp [next, first]

@[simp] theorem next_cons_of_ne (h : x ≠ p) (l : List PdoId) : next (x :: l) p = next l p := by
  simp [next, h]

theorem first_erase (l : List PdoId) :
    first (l.erase p) = if first l = .pdo p then next l p else first l := by
  cases l with
  | nil => rfl
  | cons y l =>
    by_cases hy : y = p
    · subst hy
      simp [first]
    · simp [first, hy]

/-- **A PDO taken off** is followed by its successor where it was followed. -/
theorem next_erase (hn : l.Nodup) (hx : x ≠ p) :
    next (l.erase p) x = if next l x = .pdo p then next l p else next l x := by
  induction l with
  | nil => rfl
  | cons y l ih =>
    obtain ⟨hy, hn⟩ := List.nodup_cons.mp hn
    by_cases hyp : y = p
    · subst hyp
      rw [List.erase_cons_head, next_cons_of_ne hx.symm,
        if_neg fun h => hy (mem_of_next h)]
    · rw [List.erase_cons_tail (by simpa using hyp)]
      by_cases hyx : y = x
      · subst hyx
        simp only [next_cons_self, next_cons_of_ne hyp, first_erase]
      · simp only [next_cons_of_ne hyx, next_cons_of_ne hyp]
        exact ih hn

theorem first_append (l : List PdoId) :
    first (l ++ [p]) = if first l = .head then .pdo p else first l := by
  cases l <;> simp [first]

/-- **A PDO put at the end** follows what was last. -/
theorem next_append (hx : x ∈ l) :
    next (l ++ [p]) x = if next l x = .head then .pdo p else next l x := by
  induction l with
  | nil => cases hx
  | cons y l ih =>
    rw [List.cons_append]
    by_cases hyx : y = x
    · subst hyx
      simp only [next_cons_self, first_append]
    · simp only [next_cons_of_ne hyx]
      exact ih ((List.mem_cons.mp hx).resolve_left (Ne.symm hyx))

/-- What follows a PDO. -/
theorem next_append_cons {l' : List PdoId} (hp : p ∉ l) : next (l ++ p :: l') p = first l' := by
  induction l with
  | nil => exact next_cons_self p l'
  | cons y l ih =>
    obtain ⟨hy, hp⟩ := not_or.mp (List.mem_cons.not.mp hp)
    rw [List.cons_append, next_cons_of_ne (Ne.symm hy)]
    exact ih hp

/-- Links that nothing changes. -/
theorem flink_congr (hl : b'.fdo.listOfPDOs = b.fdo.listOfPDOs)
    (hf : ∀ p, (b'.pdos p).flink = (b.pdos p).flink) : b'.flink = b.flink := by
  funext e
  cases e with
  | head => rw [flink_head, flink_head, hl]
  | pdo p => simp only [flink, hl, hf]

/-- **A PDO put at the end of the list.** -/
theorem flink_append (hl : b'.fdo.listOfPDOs = b.fdo.listOfPDOs ++ [p])
    (hf : ∀ x, (b'.pdos x).flink = (b.pdos x).flink) (hp : p ∉ b.fdo.listOfPDOs)
    (hpf : (b.pdos p).flink = .head) :
    b'.flink (.pdo p) = .head ∧
      ∀ y, b'.flink y = b.flink y ∨ (b.flink y = .head ∧ b'.flink y = .pdo p) := by
  have hself : b'.flink (.pdo p) = .head := by
    rw [flink_of_mem (by simp [hl]), hl]
    exact next_append_cons hp
  refine ⟨hself, fun y => ?_⟩
  cases y with
  | head =>
    rw [flink_head, flink_head, hl, first_append]
    split <;> simp_all
  | pdo x =>
    by_cases hx : x ∈ b.fdo.listOfPDOs
    · rw [flink_of_mem hx, flink_of_mem (by simp [hl, hx]), hl, next_append hx]
      split <;> simp_all
    · by_cases hxp : x = p
      · subst hxp
        exact .inl (hself.trans ((flink_of_not_mem hx).trans hpf).symm)
      · rw [flink_of_not_mem hx, flink_of_not_mem (by simp [hl, hx, hxp]), hf]
        exact .inl rfl

/-- **A PDO taken off the list**, which keeps its own link. -/
theorem flink_erase (hn : b.fdo.listOfPDOs.Nodup)
    (hl : b'.fdo.listOfPDOs = b.fdo.listOfPDOs.erase p)
    (hf : ∀ x, x ≠ p → (b'.pdos x).flink = (b.pdos x).flink)
    (hp : (b'.pdos p).flink = b.flink (.pdo p)) :
    b'.flink (.pdo p) = b.flink (.pdo p) ∧
      ∀ y, b'.flink y = b.flink y ∨ (b.flink y = .pdo p ∧ b'.flink y = b.flink (.pdo p)) := by
  have hself : b'.flink (.pdo p) = b.flink (.pdo p) := by
    rw [flink_of_not_mem (by rw [hl]; exact hn.not_mem_erase), hp]
  refine ⟨hself, fun y => ?_⟩
  cases y with
  | head =>
    rw [flink_head, flink_head, hl, first_erase]
    split
    · next h =>
      have hmem : p ∈ b.fdo.listOfPDOs := by
        cases hls : b.fdo.listOfPDOs with
        | nil => simp [hls, first] at h
        | cons q l => simp_all [first]
      exact .inr ⟨h, (flink_of_mem hmem).symm⟩
    · exact .inl rfl
  | pdo x =>
    by_cases hxp : x = p
    · exact .inl (hxp ▸ hself)
    · by_cases hx : x ∈ b.fdo.listOfPDOs
      · have hx' : x ∈ b'.fdo.listOfPDOs := by rw [hl]; exact (List.mem_erase_of_ne hxp).mpr hx
        rw [flink_of_mem hx, flink_of_mem hx', hl, next_erase hn hxp]
        split
        · next h => exact .inr ⟨h, (flink_of_mem (mem_of_next h)).symm⟩
        · exact .inl rfl
      · have hx' : x ∉ b'.fdo.listOfPDOs := by
          rw [hl]
          exact fun h => hx (List.mem_of_mem_erase h)
        rw [flink_of_not_mem hx, flink_of_not_mem hx', hf x hxp]
        exact .inl rfl

/-- The links lead from a PDO on the list through what follows it. -/
theorem path_of_eq (hn : b.fdo.listOfPDOs.Nodup) {l' : List PdoId}
    (h : b.fdo.listOfPDOs = l ++ p :: l') : Path b.flink .head (.pdo p) (l'.map .pdo) := by
  have hp : p ∉ l := fun hp => (List.nodup_append.mp (h ▸ hn)).2.2 p hp p List.mem_cons_self rfl
  have hf : b.flink (.pdo p) = first l' := by
    rw [flink_of_mem (by simp [h]), h, next_append_cons hp]
  induction l' generalizing l p with
  | nil => exact .stop hf
  | cons q l' ih =>
    have hsplit : b.fdo.listOfPDOs = (l ++ [p]) ++ q :: l' := by simp [h]
    have hq : q ∉ l ++ [p] := fun hq =>
      (List.nodup_append.mp (hsplit ▸ hn)).2.2 q hq q List.mem_cons_self rfl
    have hrest := ih hsplit hq (by rw [flink_of_mem (by simp [h]), hsplit, next_append_cons hq])
    exact .cons hf Entry.noConfusion hrest

/-- **The links lead from the head through the list.** -/
theorem path_head (hn : b.fdo.listOfPDOs.Nodup) :
    Path b.flink .head .head (b.fdo.listOfPDOs.map .pdo) := by
  cases hl : b.fdo.listOfPDOs with
  | nil => exact .stop (by rw [flink_head, hl]; rfl)
  | cons p l =>
    have hf : b.flink .head = .pdo p := by rw [flink_head, hl]; rfl
    exact .cons hf Entry.noConfusion (path_of_eq hn (l := []) hl)

end Bus

/-! ## The loop -/

/-- Where the GET_REQUEST loop that called stands. -/
def NextCaller.cursor : NextCaller → Option Entry
  | .getRequest p => some (.pdo p)
  | .reply => none

namespace Pc

/-- **Where the loop stands**: the entry whose link it reads next. -/
def cursor : Pc → Option Entry
  | .getLoop e => some e
  | .nextPacket _ k | .nextRequest _ k | .nextIrp _ _ k | .nextSetup _ _ _ k => k.cursor
  | .nextPutBack _ _ k | .nextFail _ k | .nextComplete _ k => k.cursor
  | _ => none

/-- The PDO a thread's next step deletes. -/
def deletes : Pc → Option PdoId
  | .destroyDelete p _ => some p
  | _ => none

@[simp] theorem cursor_nextReturn (k : NextCaller) : (nextReturn k).cursor = k.cursor := by
  cases k <;> rfl

@[simp] theorem cursor_destroyReturn (k : DestroyCaller) : (destroyReturn k).cursor = none := by
  cases k <;> rfl

/-- The loop starts packets at the PDO it stands at. -/
def Placed : Pc → Prop
  | .nextPacket p (.getRequest q) => p = q
  | _ => True

end Pc

namespace Bus

/-- The PDOs whose links a thread's next step makes point to themselves. -/
def orphans (b : Bus) : Pc → PdoId → Prop
  | .fdoOrphan, p => p ∈ b.fdo.listOfPDOs
  | .fdoLoop, p => b.fdo.listOfPDOs.head? = some p ∧
      (b.pdos p).devicePnPState = .surpriseRemovePending
  | _, _ => False

/-- A PDO the loop can pass: there, with a parent. -/
structure Standing (b : Bus) (p : PdoId) : Prop where
  lt : p < b.pdoCount
  deleted : (b.pdos p).deleted = false
  parentFdo : (b.pdos p).parentFdo ≠ none

/-- **The PDO `q` is `p` or ahead of it**, before the head. -/
def Ahead (b : Bus) (p q : PdoId) : Prop :=
  ∃ n, b.flink^[n] (.pdo p) = .pdo q ∧ ∀ m ≤ n, b.flink^[m] (.pdo p) ≠ .head

/-- How many PDOs there are. -/
def existing (b : Bus) : ℕ := ((List.range b.pdoCount).filter fun p => !(b.pdos p).deleted).length

end Bus

/-- A thread in the loop orphans nothing… -/
theorem Bus.not_orphans_of_cursor (h : pc.cursor = some e) : ¬ b.orphans pc p := by
  cases pc <;> first | exact id | cases h

/-- …and deletes nothing. -/
theorem Pc.deletes_of_cursor (h : pc.cursor = some e) : pc.deletes ≠ some p := by
  cases pc <;> first | (cases h; done) | simp [Pc.deletes]

namespace Moves

/-- **What a move does to the links**: nothing; a PDO is put at the end, or taken off with its own
link left as it was; or a PDO is orphaned. -/
theorem links (m : Moves t b a pc b' pc') (hn : b.fdo.listOfPDOs.Nodup)
    (hnew : b.pdos b.pdoCount = {})
    (hadd : ∀ p, pc = .addInsert p → p ∉ b.fdo.listOfPDOs ∧ (b.pdos p).flink = .head) :
    b'.flink = b.flink ∨
    (∃ p, pc = .addInsert p ∧ b'.flink (.pdo p) = .head ∧
      ∀ y, b'.flink y = b.flink y ∨ (b.flink y = .head ∧ b'.flink y = .pdo p)) ∨
    (∃ p, b'.flink (.pdo p) = b.flink (.pdo p) ∧
      ∀ y, b'.flink y = b.flink y ∨ (b.flink y = .pdo p ∧ b'.flink y = b.flink (.pdo p))) ∨
    ∃ p, b.orphans pc p := by
  cases m
  case addInsert p _ =>
    obtain ⟨hp, hf⟩ := hadd p rfl
    exact .inr (.inl ⟨p, rfl, Bus.flink_append (by simp) (fun x => by
      simp [Function.update_apply]; split <;> simp_all) hp hf⟩)
  case pdoUnlink p _ =>
    exact .inr (.inr (.inl ⟨p, Bus.flink_erase hn (by simp) (fun x hx => by simp [hx]) (by simp)⟩))
  case fdoLoop p _ _ _ =>
    exact .inr (.inr (.inl ⟨p, Bus.flink_erase hn (by simp) (fun x hx => by simp [hx]) (by simp)⟩))
  case fdoLoopOrphan p l h hs => exact .inr (.inr (.inr ⟨p, by simp [h], hs⟩))
  case fdoOrphan =>
    cases hl : b.fdo.listOfPDOs with
    | nil => exact .inl (Bus.flink_congr (by simp [hl]) fun p => by simp [hl])
    | cons p l => exact .inr (.inr (.inr ⟨p, by simp [Bus.orphans, hl]⟩))
  all_goals
    refine .inl (Bus.flink_congr (by simp) fun p => ?_)
    simp [Function.update_apply]
  all_goals split <;> simp_all [Bus.newPdo]

/-- **An orphan's link leads to itself**; the other PDOs keep theirs. -/
theorem orphans (m : Moves t b a pc b' pc') (hn : b.fdo.listOfPDOs.Nodup) (hp : b.orphans pc p) :
    (∃ ok, a = .step t ok) ∧ ∀ x, (b.orphans pc x → b'.flink (.pdo x) = .pdo x) ∧
      (¬ b.orphans pc x → b'.flink (.pdo x) = b.flink (.pdo x)) := by
  cases m
  case fdoOrphan ok hm =>
    refine ⟨⟨ok, rfl⟩, fun x => ⟨fun hx => ?_, fun hx => ?_⟩⟩
    · have hx : x ∈ b.fdo.listOfPDOs := hx
      rw [Bus.flink_of_not_mem (by simp)]
      simp [hx]
    · have hx : x ∉ b.fdo.listOfPDOs := hx
      rw [Bus.flink_of_not_mem (by simp), Bus.flink_of_not_mem hx]
      simp [hx]
  case fdoLoopOrphan ok q l h hs =>
    have horphan : ∀ x, b.orphans .fdoLoop x ↔ x = q := fun x => by
      simp only [Bus.orphans, h, List.head?_cons, Option.some.injEq]
      exact ⟨fun hx => hx.1.symm, fun hx => ⟨hx.symm, hx ▸ hs⟩⟩
    obtain ⟨hq, -⟩ := List.nodup_cons.mp (h ▸ hn)
    refine ⟨⟨ok, rfl⟩, fun x => ?_⟩
    rw [horphan]
    refine ⟨?_, fun hx => ?_⟩
    · rintro rfl
      rw [Bus.flink_of_not_mem (by simp [h, hq])]
      simp
    · have hlist : (b.orphanOne q).fdo.listOfPDOs = l := by simp [h]
      by_cases hxl : x ∈ l
      · rw [Bus.flink_of_mem (hlist ▸ hxl), Bus.flink_of_mem (by simp [h, hxl]), hlist, h,
          Bus.next_cons_of_ne (Ne.symm hx)]
      · rw [Bus.flink_of_not_mem (hlist ▸ hxl), Bus.flink_of_not_mem (by simp [h, hx, hxl])]
        simp [hx]
  case fdoLoop q l h hs =>
    obtain ⟨hq, hst⟩ := hp
    rw [h] at hq
    cases hq
    exact absurd hst hs
  case fdoLoopEnd h =>
    rw [Bus.orphans, h] at hp
    cases hp.1
  all_goals cases hp

/-- **A standing PDO stays one**, unless it is orphaned or deleted. -/
theorem standing (m : Moves t b a pc b' pc') (h : b.Standing p) (ho : ¬ b.orphans pc p)
    (hd : pc.deletes ≠ some p) : b'.Standing p := by
  obtain ⟨hlt, hdel, hf⟩ := h
  have hne : p ≠ b.pdoCount := Nat.ne_of_lt hlt
  refine ⟨Nat.lt_of_lt_of_le hlt m.pdoCount_le, ?_, ?_⟩
  · cases m
    all_goals first
      | exact hdel
      | exact (frame_update PdoDeviceData.deleted (by rfl)).trans hdel
      | skip
    all_goals simp [Function.update_apply, hne, hdel]
    all_goals split <;> simp_all [Pc.deletes]
  · cases m
    case fdoLoopOrphan q l h hs =>
      have hpq : p ≠ q := by
        rintro rfl
        exact ho (by simp [Bus.orphans, h, hs])
      simpa [hpq] using hf
    all_goals first
      | exact hf
      | exact fun hn => hf ((frame_update PdoDeviceData.parentFdo (by rfl)).symm.trans hn)
      | skip
    all_goals simp [Function.update_apply, hne, hf]
    all_goals split <;> simp_all [Bus.orphans]

/-- A deleted PDO is one. -/
theorem deleted_of_deletes (m : Moves t b a pc b' pc') (hd : pc.deletes = some p) :
    (b'.pdos p).deleted = true ∧ b'.flink = b.flink := by
  cases m
  case destroyDelete q k =>
    cases hd
    exact ⟨by simp, Bus.flink_congr (by simp) fun x => by
      simp [Function.update_apply]; split <;> simp_all⟩
  all_goals cases hd

/-- **The loop stands where it stood**, unless it starts, ends, or follows a link. -/
theorem cursor (m : Moves t b a pc b' pc') :
    pc'.cursor = none ∨ pc'.cursor = some .head ∨ pc'.cursor = pc.cursor ∨
    (∃ e p, pc = .getLoop e ∧ b.flink e = .pdo p ∧ pc' = .nextPacket p (.getRequest p) ∧
      b' = b) := by
  cases m
  case getLoop h => exact .inr (.inr (.inr ⟨_, _, rfl, h, rfl, rfl⟩))
  all_goals first
    | exact .inl rfl
    | exact .inr (.inl rfl)
    | exact .inr (.inr (.inl rfl))
    | exact .inr (.inr (.inl (Pc.cursor_nextReturn _)))
    | exact .inl (Pc.cursor_destroyReturn _)

/-- A thread leaves the loop by reading a link, or by the parent pointer of the PDO. -/
theorem cursor_of_cursor (m : Moves t b a pc b' pc') (hc : pc.cursor = some e) :
    pc'.cursor = some e ∨ (∃ ok, pc = .getLoop e ∧ a = .step t ok) ∨
    ∃ p k, pc = .nextPacket p k ∧ (b.pdos p).parentFdo = none := by
  cases m
  case getLoop => exact .inr (.inl ⟨_, congrArg Pc.getLoop (Option.some.inj hc), rfl⟩)
  case getLoopEnd => exact .inr (.inl ⟨_, congrArg Pc.getLoop (Option.some.inj hc), rfl⟩)
  case nextPacketCrash hf => exact .inr (.inr ⟨_, _, rfl, hf⟩)
  all_goals first
    | cases hc
    | exact .inl hc
    | exact .inl ((Pc.cursor_nextReturn _).trans hc)

/-- The loop starts packets at the PDO it stands at. -/
theorem placed (m : Moves t b a pc b' pc') : pc'.Placed := by
  cases m
  all_goals first
    | exact trivial
    | rfl
    | (rename NextCaller => k; cases k <;> exact trivial)
    | (rename DestroyCaller => k; cases k <;> exact trivial)

end Moves

/-! ## Passing through the list -/

/-- From the entry the links lead to the head, through PDOs the loop can pass. -/
def Bus.Passes (b : Bus) (e : Entry) : Prop :=
  ∃ l, Path b.flink .head e l ∧ ∀ q, .pdo q ∈ e :: l → b.Standing q

namespace Bus.Passes

/-- The loop goes on. -/
theorem next (h : b.Passes e) (hf : b.flink e = .pdo p) : b.Passes (.pdo p) := by
  obtain ⟨l, hp, hs⟩ := h
  cases hp with
  | stop h => exact absurd (hf.symm.trans h) Entry.noConfusion
  | @next _ l hne hp =>
    rw [hf] at hp hs
    exact ⟨l, hp, fun q hq => hs q (List.mem_cons_of_mem _ hq)⟩

/-- What concerns neither the links nor the PDOs leaves it its way. -/
theorem of_eq (h : b.Passes e) (hf : b'.flink = b.flink) (hc : b'.pdoCount = b.pdoCount)
    (hp : b'.pdos = b.pdos) : b'.Passes e := by
  obtain ⟨l, hpath, hs⟩ := h
  refine ⟨l, hf ▸ hpath, fun q hq => ⟨?_, ?_, ?_⟩⟩
  · exact hc ▸ (hs q hq).lt
  · exact hp ▸ (hs q hq).deleted
  · exact hp ▸ (hs q hq).parentFdo

/-- A PDO on the way is ahead. -/
theorem ahead {l : List Entry} (h : Path b.flink .head (.pdo p) l) (hq : .pdo q ∈ .pdo p :: l) :
    b.Ahead p q := h.iterate_of_mem hq Entry.noConfusion

/-- …and the other way round. -/
theorem mem_of_ahead {l : List Entry} (h : Path b.flink .head (.pdo p) l) (hq : b.Ahead p q) :
    .pdo q ∈ .pdo p :: l := by
  obtain ⟨n, hn, hm⟩ := hq
  exact hn ▸ h.mem_of_iterate hm

/-- **There are no more links to read than PDOs.** -/
theorem length_le {l : List Entry} (h : Path b.flink .head e l)
    (hs : ∀ q, .pdo q ∈ e :: l → b.Standing q) :
    e.remaining l ≤ b.existing := by
  have hmem : ∀ q, q ∈ (e :: l).filterMap Entry.node ↔ .pdo q ∈ e :: l := by
    intro q
    rw [List.mem_filterMap]
    refine ⟨?_, fun hq => ⟨_, hq, rfl⟩⟩
    rintro ⟨_ | r, hr, hq⟩
    · cases hq
    · obtain rfl := Option.some.inj hq
      exact hr
  have hnodup : ((e :: l).filterMap Entry.node).Nodup := by
    refine h.nodup.filterMap ?_
    rintro (_ | x) (_ | y) r hx hy
    · rfl
    · cases hx
    · cases hy
    · rw [Option.mem_def] at hx hy
      rw [Option.some.inj hx, Option.some.inj hy]
  refine (List.subperm_of_subset hnodup fun q hq => ?_).length_le
  have hq := hs q ((hmem q).mp hq)
  simp [hq.lt, hq.deleted]

/-- **A move leaves the loop its way**, if it neither orphans nor deletes a PDO on it. -/
theorem move (h : b.Passes (.pdo p)) (m : Moves t b a pc b' pc') (hn : b.fdo.listOfPDOs.Nodup)
    (hnew : b.pdos b.pdoCount = {})
    (hadd : ∀ p, pc = .addInsert p → p < b.pdoCount ∧ p ∉ b.fdo.listOfPDOs ∧
      ∃ dd, b.pdos p = Bus.newPdo dd)
    (hspare : ∀ q, b.Ahead p q → ¬ b.orphans pc q ∧ pc.deletes ≠ some q) : b'.Passes (.pdo p) := by
  obtain ⟨l, hp, hs⟩ := h
  have hstand : ∀ q, .pdo q ∈ .pdo p :: l → b'.Standing q := fun q hq =>
    m.standing (hs q hq) (hspare q (ahead hp hq)).1 (hspare q (ahead hp hq)).2
  have hlink : ∀ q, pc = .addInsert q → q ∉ b.fdo.listOfPDOs ∧ (b.pdos q).flink = .head := by
    intro q hq
    obtain ⟨-, hnot, dd, hdd⟩ := hadd q hq
    exact ⟨hnot, by rw [hdd]; rfl⟩
  rcases m.links hn hnew hlink with hf | ⟨q, hpc, hq, hf⟩ | ⟨q, hq, hf⟩ | ⟨q, hq⟩
  · exact ⟨l, hf ▸ hp, hstand⟩
  · obtain ⟨l', hmem, hp'⟩ := hp.append Entry.noConfusion hq hf
    refine ⟨l', hp', fun x hx => ?_⟩
    have hx : .pdo x ∈ .pdo p :: l ∨ x = q := by
      rcases List.mem_cons.mp hx with hx | hx
      · exact .inl (hx ▸ List.mem_cons_self)
      · exact (hmem _ hx).imp (List.mem_cons_of_mem _) Entry.pdo.inj
    rcases hx with hx | rfl
    · exact hstand x hx
    · obtain ⟨hlt, -, dd, hdd⟩ := hadd x hpc
      have hnew : b.Standing x := ⟨hlt, by rw [hdd]; rfl, by rw [hdd]; exact Option.some_ne_none _⟩
      exact m.standing hnew (hpc ▸ not_false) (hpc ▸ nofun)
  · obtain ⟨l', hsub, hp'⟩ := hp.skip Entry.noConfusion hq hf
    exact ⟨l', hp', fun x hx => hstand x ((hsub.cons_cons _).subset hx)⟩
  · refine ⟨l, hp.of_eqOn fun y hy => ?_, hstand⟩
    have hy' : y ≠ .head := by
      rcases List.mem_cons.mp hy with rfl | hy
      · exact Entry.noConfusion
      · exact hp.ne_of_mem hy
    cases y with
    | head => exact absurd rfl hy'
    | pdo x => exact ((m.orphans hn hq).2 x).2 (hspare x (ahead hp hy)).1

end Bus.Passes

namespace Driver

variable {s s' : Driver}

/-- What the action takes from under a loop: the PDOs it orphans, and the one it deletes. -/
def removes (s : Driver) (a : Action) (p : PdoId) : Prop :=
  ∃ t, a.thread = some t ∧ (s.bus.orphans (s.calls t) p ∨ (s.calls t).deletes = some p)

/-- **No PDO at which a loop stands, or to which the links lead from there, is orphaned or
deleted.** -/
def SparesCursors (s : Driver) (a : Action) : Prop :=
  ∀ t p q, (s.calls t).cursor = some (.pdo p) → s.bus.Ahead p q → ¬ s.removes a q

/-- **The traversal is sound**: from where a loop stands the links lead to the head, through PDOs
that are not deleted, and there are no more of them than there are PDOs. -/
def TraversalSound (s : Driver) : Prop :=
  ∀ t e, (s.calls t).cursor = some e → ∃ l, Path s.bus.flink .head e l ∧
    (∀ p, .pdo p ∈ e :: l → (s.bus.pdos p).deleted = false) ∧
    e.remaining l ≤ s.bus.existing

/-- Every loop stands where it can pass. -/
structure Traversing (s : Driver) : Prop where
  passes : ∀ t p, (s.calls t).cursor = some (.pdo p) → s.bus.Passes (.pdo p)
  placed : ∀ t, (s.calls t).Placed

/-- From the head the loop passes. -/
theorem Linked.passes_head (hl : s.Linked) : s.bus.Passes .head := by
  refine ⟨_, Bus.path_head hl.nodup, fun q hq => ?_⟩
  obtain ⟨r, hr, hq⟩ := List.mem_map.mp ((List.mem_cons.mp hq).resolve_left Entry.noConfusion)
  obtain rfl := Entry.pdo.inj hq
  exact ⟨(hl.known hr).1, (hl.intact r hr).deleted,
    by rw [(hl.intact r hr).parentFdo]; exact Option.some_ne_none _⟩

/-- Wherever a loop stands, it passes. -/
theorem Traversing.passes_of_cursor (h : s.Traversing) (hl : s.Linked)
    (he : (s.calls t).cursor = some e) : s.bus.Passes e := by
  cases e with
  | head => exact hl.passes_head
  | pdo p => exact h.passes t p he

theorem Traversing.sound (h : s.Traversing) (hl : s.Linked) : s.TraversalSound := by
  intro t e he
  obtain ⟨l, hp, hs⟩ := h.passes_of_cursor hl he
  exact ⟨l, hp, fun p hp => (hs p hp).deleted, Bus.Passes.length_le hp hs⟩

/-- **A step that spares the cursors keeps every loop passing.** -/
theorem Traversing.step (h : s.Traversing) (hl : s.Linked) (hspare : s.SparesCursors a)
    (hs : s.step a = some s') : s'.Traversing := by
  rcases step_moves hs with ⟨t, b', pc', m, rfl⟩ | ⟨_, _, -, rfl⟩ | ⟨_, -, -, rfl⟩
  · have hadd : ∀ p, s.calls t = .addInsert p → p < s.bus.pdoCount ∧ p ∉ s.bus.fdo.listOfPDOs ∧
        ∃ dd, s.bus.pdos p = Bus.newPdo dd := fun p hp =>
      ⟨(hl.adding t p hp).1, fun hm => hl.not_known hp (hl.known hm), (hl.adding t p hp).2⟩
    have hmove : ∀ t₂ p, (s.calls t₂).cursor = some (.pdo p) → b'.Passes (.pdo p) := by
      intro t₂ p hc
      refine (h.passes t₂ p hc).move m hl.nodup (hl.new _ (Nat.le_refl _)) hadd fun q hq => ?_
      have hq := hspare t₂ p q hc hq
      exact ⟨fun ho => hq ⟨t, m.thread, .inl ho⟩, fun hd => hq ⟨t, m.thread, .inr hd⟩⟩
    refine ⟨?_, forall_update (L := fun _ (pc : Pc) => pc.Placed) m.placed fun t₂ _ => h.placed t₂⟩
    refine forall_update (L := fun _ (pc : Pc) => ∀ p, pc.cursor = some (.pdo p) →
      b'.Passes (.pdo p)) ?_ fun t₂ _ => hmove t₂
    intro p hc
    rcases m.cursor with hc' | hc' | hc' | ⟨e, q, hpc, hf, hc', rfl⟩
    · rw [hc] at hc'
      cases hc'
    · rw [hc] at hc'
      cases hc'
    · exact hmove t p (hc' ▸ hc)
    · obtain rfl : q = p := by
        rw [hc'] at hc
        exact Entry.pdo.inj (Option.some.inj hc)
      exact (h.passes_of_cursor hl (hpc ▸ rfl : (s.calls t).cursor = some e)).next hf
  · exact ⟨fun t p hc => (h.passes t p hc).of_eq (Bus.flink_congr rfl fun _ => rfl) rfl rfl,
      h.placed⟩
  · exact ⟨fun t p hc => (h.passes t p hc).of_eq (Bus.flink_congr rfl fun _ => rfl) rfl rfl,
      h.placed⟩

/-- No loop has begun. -/
theorem Traversing.init : lts.init.Traversing :=
  ⟨fun _ _ hc => (nomatch hc), fun _ => trivial⟩

/-- **Every loop passes** in every run that spares the cursors. -/
theorem traversing (h : lts.Reach SparesCursors s) : s.Traversing :=
  h.invariant Traversing.init fun _ _ _ hr hi hc hs => hi.step (linked hr) hc hs

/-- **A step that does not spare the cursors breaks the traversal.** -/
theorem TraversalSound.spares (h : s.TraversalSound) (hl : s.Linked) (hs : s.step a = some s')
    (h' : s'.TraversalSound) : s.SparesCursors a := by
  rintro t p q hc hq ⟨t', ht', hrem⟩
  rcases step_moves hs with ⟨t₁, b', pc', m, rfl⟩ | ⟨_, _, rfl, -⟩ | ⟨_, rfl, -⟩
  · obtain rfl : t₁ = t' := Option.some.inj (m.thread.symm.trans ht')
    have hne : t ≠ t₁ := by
      rintro rfl
      exact hrem.elim (Bus.not_orphans_of_cursor hc) (Pc.deletes_of_cursor hc)
    obtain ⟨l, hp, -, -⟩ := h t _ hc
    obtain ⟨l', hp', hdel, -⟩ := h' t (.pdo p) (by rw [put_calls_of_ne s hne]; exact hc)
    have hmem := Bus.Passes.mem_of_ahead hp hq
    rcases hrem with ho | hd
    · have horphans := (m.orphans hl.nodup ho).2
      refine hp.not_of_self Entry.noConfusion (fun y hy => ?_) hmem ((horphans q).1 ho) hp'
      rcases y with _ | x
      · rcases List.mem_cons.mp hy with hy | hy
        · cases hy
        · exact absurd rfl (hp.ne_of_mem hy)
      · by_cases hx : s.bus.orphans (s.calls t₁) x
        · exact .inr ((horphans x).1 hx)
        · exact .inl ((horphans x).2 hx)
    · obtain ⟨hdq, hf⟩ := m.deleted_of_deletes hd
      have hp' : Path b'.flink .head (.pdo p) l' := hp'
      obtain rfl := hp.unique (hf ▸ hp')
      exact absurd (hdel q hmem) (by simpa using hdq)
  · cases ht'
  · cases ht'

/-! ## A loop that is left alone -/

/-- **A run of the loop while nothing changes the links**, with the number of PDOs whose link it
reads. -/
inductive Loops (t : Tid) : Driver → ℕ → Driver → Prop
  | refl (s : Driver) : Loops t s 0 s
  | read {s s' s'' : Driver} {n : ℕ} {p : PdoId} {ok : Bool} (hpc : s.calls t = .getLoop (.pdo p))
      (hs : s.step (.step t ok) = some s') (h : Loops t s' n s'') : Loops t s (n + 1) s''
  | other {s s' s'' : Driver} {a : Action} {n : ℕ} (hc : (s.calls t).cursor ≠ none)
      (ha : ∀ p ok, s.calls t = .getLoop (.pdo p) → a ≠ .step t ok) (hspare : s.SparesCursors a)
      (hs : s.step a = some s') (hf : s'.bus.flink = s.bus.flink) (h : Loops t s' n s'') :
      Loops t s n s''

/-- The loop reads a link: it goes on to the next PDO, or ends at the head. -/
theorem step_getLoop {ok : Bool} (hpc : s.calls t = .getLoop e)
    (hs : s.step (.step t ok) = some s') : s'.bus = s.bus ∧
      (s.bus.flink e = .head ∧ s'.calls t = .ret statusPending ∨
        ∃ p, s.bus.flink e = .pdo p ∧ s'.calls t = .nextPacket p (.getRequest p)) := by
  simp only [step, hpc, Pc.step, Bus.getLoopStep, Option.map_some, Option.some.injEq] at hs
  subst hs
  cases hf : s.bus.flink e with
  | head => simp
  | pdo p => simp

/-- A thread in the loop takes nothing from under another. -/
theorem sparesCursors_of_cursor (ht : a.thread = some t) (hc : (s.calls t).cursor = some e) :
    s.SparesCursors a := by
  rintro _ _ q - - ⟨t', ht', hrem⟩
  obtain rfl : t = t' := Option.some.inj (ht.symm.trans ht')
  exact hrem.elim (Bus.not_orphans_of_cursor hc) (Pc.deletes_of_cursor hc)

/-- A thread that has left the loop is not in it. -/
theorem Loops.of_cursor {n : ℕ} (h : Loops t s n s') (hc : (s.calls t).cursor = none) :
    n = 0 ∧ s' = s := by
  cases h with
  | refl => exact ⟨rfl, rfl⟩
  | read hpc =>
    rw [hpc] at hc
    cases hc
  | other hne => exact absurd hc hne

/-- A loop starts a packet at a PDO that has a parent. -/
theorem Traversing.parent_of_nextPacket (h : s.Traversing) {k : NextCaller}
    (hpc : s.calls t = .nextPacket p k) (hk : k.cursor = some e) :
    (s.bus.pdos p).parentFdo ≠ none := by
  cases k with
  | reply => cases hk
  | getRequest q =>
    obtain rfl : p = q := by
      have hp := h.placed t
      rwa [hpc] at hp
    obtain ⟨l, -, hs⟩ := h.passes t p (by rw [hpc]; rfl)
    exact (hs p List.mem_cons_self).parentFdo

/-- **What is left of a loop's way** is shorter by each PDO whose link it reads, and where nothing
is left the loop has ended. -/
theorem Loops.left {n : ℕ} (h : Loops t s n s') (hl : s.Linked) (htr : s.Traversing)
    {l : List Entry} (he : (s.calls t).cursor = some e) (hp : Path s.bus.flink .head e l) :
    (∃ e' l', (s'.calls t).cursor = some e' ∧ Path s'.bus.flink .head e' l' ∧
      n + e'.remaining l' = e.remaining l) ∨
    (s'.calls t = .ret statusPending ∧ n = e.remaining l) := by
  induction h generalizing e l with
  | refl => exact .inl ⟨e, l, he, hp, Nat.zero_add _⟩
  | @read s s₁ s₂ n p ok hpc hs h ih =>
    obtain rfl : e = .pdo p := by
      rw [hpc] at he
      exact (Option.some.inj he).symm
    have hspare := sparesCursors_of_cursor (a := .step t ok) rfl he
    obtain ⟨hbus, ⟨hf, hret⟩ | ⟨q, hf, hnext⟩⟩ := step_getLoop hpc hs
    · obtain ⟨rfl, rfl⟩ := h.of_cursor (by rw [hret]; rfl)
      obtain rfl := hp.unique (.stop hf)
      exact .inr ⟨hret, rfl⟩
    · cases hp with
      | stop h => exact absurd (hf.symm.trans h) Entry.noConfusion
      | @next _ l hne hp =>
        rw [hf] at hp ⊢
        rcases ih (hl.step hs) (htr.step hl hspare hs) (e := .pdo q) (l := l)
          (by rw [hnext]; rfl) (hbus ▸ hp) with ⟨e', l', hc', hp', hn⟩ | ⟨hret, hn⟩
        · exact .inl ⟨e', l', hc', hp', by rw [Entry.remaining_pdo, ← hn, Nat.add_right_comm]⟩
        · exact .inr ⟨hret, by rw [hn]; rfl⟩
  | @other s s₁ s₂ a n hc ha hspare hs hf h ih =>
    have hl₁ := hl.step hs
    have htr₁ := htr.step hl hspare hs
    have hstay : (s₁.calls t).cursor = some e → _ := fun hc₁ => ih hl₁ htr₁ hc₁ (hf ▸ hp)
    rcases step_moves hs with ⟨t₁, b', pc', m, rfl⟩ | ⟨_, _, -, rfl⟩ | ⟨_, -, -, rfl⟩
    · by_cases ht : t₁ = t
      · subst ht
        rcases m.cursor_of_cursor he with hc₁ | ⟨ok, hpc, rfl⟩ | ⟨p, k, hpc, hnone⟩
        · exact hstay (by rw [put_calls_self]; exact hc₁)
        · cases e with
          | pdo p => exact absurd rfl (ha p ok hpc)
          | head =>
            obtain ⟨-, ⟨hfh, hret⟩ | ⟨q, hfq, hnext⟩⟩ := step_getLoop hpc hs
            · obtain ⟨rfl, rfl⟩ := h.of_cursor (by rw [hret]; rfl)
              obtain rfl := hp.unique (.stop hfh)
              exact .inr ⟨hret, rfl⟩
            · cases hp with
              | stop h => exact absurd (hfq.symm.trans h) Entry.noConfusion
              | @next _ l hne hp =>
                rw [hfq] at hp ⊢
                exact ih hl₁ htr₁ (e := .pdo q) (l := l) (by rw [hnext]; rfl) (hf ▸ hp)
        · exact absurd hnone (htr.parent_of_nextPacket hpc (by rw [hpc] at he; exact he))
      · exact hstay (by rw [put_calls_of_ne s (Ne.symm ht)]; exact he)
    · exact hstay he
    · exact hstay he

/-- **The traversal ends**: left alone, a loop reads no more links than there are PDOs, fewer while
it stands at a PDO, and it leaves at the head. -/
def TraversalEnds (s : Driver) : Prop :=
  ∀ t e n s', (s.calls t).cursor = some e → Loops t s n s' → n ≤ s.bus.existing ∧
    (∀ p, (s'.calls t).cursor = some (.pdo p) → n < s.bus.existing) ∧
    ((s'.calls t).cursor = none → s'.calls t = .ret statusPending)

theorem Traversing.ends (h : s.Traversing) (hl : s.Linked) : s.TraversalEnds := by
  intro t e n s' he hloop
  obtain ⟨l, hp, hs⟩ := h.passes_of_cursor hl he
  have hle := Bus.Passes.length_le hp hs
  rcases hloop.left hl h he hp with ⟨e', l', hc, -, hn⟩ | ⟨hret, hn⟩
  · refine ⟨by omega, fun p hp => ?_, fun hnone => ?_⟩
    · obtain rfl : e' = .pdo p := Option.some.inj (hc.symm.trans hp)
      have hpos : 0 < Entry.remaining (.pdo p) l' := Nat.succ_pos _
      omega
    · rw [hc] at hnone
      cases hnone
  · refine ⟨hn ▸ hle, fun p hp => ?_, fun _ => hret⟩
    rw [hret] at hp
    cases hp

end Driver

end VirtualDisk
