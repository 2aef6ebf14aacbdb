import VirtualDisk.Driver.Bus

/-!
# Driver/Completion — what a SCSI request is completed with

An SRB is completed by `Bus_ExecuteCommand` on the spot, or by the reply to the packet it started.
The IRP's status, the status code of the SRB, the sense data and the SCSI status should tell the
same (`StatusesAgree`).  They do on the paths that fill the SRB by the convention of
`Bus_ProcessReply`; a command the driver rejects has the flag for its sense data in the field of the
SCSI status.
-/

namespace VirtualDisk

open Machinery

/-! ## The paths -/

/-- `SRB_STATUS_QUEUE_FROZEN`. -/
def srbStatusQueueFrozen : UCHAR := 0x40

/-- `SRB_STATUS`: the status code, without the flags. -/
def srbStatusCode (srbStatus : UCHAR) : UCHAR :=
  srbStatus &&& ~~~(srbStatusAutosenseValid ||| srbStatusQueueFrozen)

/-- How a request is completed: by `Bus_ExecuteCommand`, at once or because the packet gets no
remove lock, or by a reply in `Bus_ProcessReply`, for an IRP that was cancelled or not. -/
inductive CompletionPath
  | atOnce
  | refused (removeLock : NTSTATUS)
  | reply (cancel : Bool) (rep : BusenumReply) (buffer : Bytes)

/-- **What the request is completed with** on a path, if it goes there: the status of the IRP, and
the SRB. -/
def complete (pdo : PdoDeviceData) (srb : ScsiRequestBlock) :
    CompletionPath → Option (NTSTATUS × ScsiRequestBlock)
  | .atOnce => match busExecuteCommand pdo srb with
    | .answered status _ srb' _ => some (status, srb')
    | .startPacket => none
  | .refused removeLock =>
    if srb.cdb.isReadWrite ∧ ntSuccess removeLock = false then some (removeLock, srb) else none
  | .reply cancel rep buffer =>
    if srb.cdb.isReadWrite then
      some (if cancel then (statusCancelled, srb)
        else (rep.status, (replySrb pdo srb rep buffer).2))
    else none

/-- A packet that gets no remove lock, in the driver. -/
theorem complete_refused {b : Bus} {p : PdoId} {i : IrpId}
    (h : (b.irps i).srb.cdb.isReadWrite = true) :
    complete (b.pdos p) (b.irps i).srb (.refused statusDeletePending) =
      some (((b.failIrp i statusDeletePending).irps i).status,
        ((b.failIrp i statusDeletePending).irps i).srb) := by
  simp [complete, h, show ntSuccess statusDeletePending = false from rfl]

/-- **A reply, in the driver.** -/
theorem complete_reply {b : Bus} {p : PdoId} {i : IrpId} (rep : Tagged BusenumReply)
    (h : (b.irps i).srb.cdb.isReadWrite = true) :
    complete { b.pdos p with currentIrp := none } (b.irps i).srb
      (.reply (b.irps i).cancel rep.val (b.memory (b.pdos p).buffer)) =
      some (((b.acceptReply p i rep).irps i).status, ((b.acceptReply p i rep).irps i).srb) := by
  rw [complete, if_pos h, Bus.acceptReply]
  cases hc : (b.irps i).cancel with
  | true => simp [hc]
  | false => simp [Bus.acceptAnswer]

/-! ## Agreement -/

/-- **Error sense data are written**: whatever the sense buffer held, it holds the same error in the
end. -/
def WritesErrorSense (pdo : PdoDeviceData) (srb : ScsiRequestBlock) (path : CompletionPath) :
    Prop :=
  ∃ e : SenseData, e.senseKey ≠ scsiSenseNoSense ∧ ∀ d, ∃ r,
    complete pdo { srb with senseInfoBuffer := some d } path = some r ∧
      r.2.senseInfoBuffer = some e

/-- **The statuses agree**: the IRP succeeds exactly when the SRB's status code does, and where
error sense data are written, the SRB says so and the SCSI status is a check condition. -/
structure StatusesAgree (pdo : PdoDeviceData) (srb : ScsiRequestBlock) (path : CompletionPath) :
    Prop where
  status : ∀ r, complete pdo srb path = some r →
    (ntSuccess r.1 = true ↔ srbStatusCode r.2.srbStatus = srbStatusSuccess)
  sense : ∀ r, complete pdo srb path = some r → WritesErrorSense pdo srb path →
    r.2.srbStatus &&& srbStatusAutosenseValid ≠ 0 ∧ r.2.scsiStatus = scsistatCheckCondition

/-- The commands `Bus_ExecuteCommand` answers with success. -/
def Cdb.isAnswered (c : Cdb) : Bool :=
  c.operationCode = scsiopTestUnitReady || c.operationCode = scsiopVerify ||
    c.operationCode = scsiopReadCapacity

/-- **What the path must find**: a command the driver has an answer or a packet for; an SRB whose
status code is not success already, where none is written; a reply whose status is `STATUS_SUCCESS`
if it is any success. -/
def Conforms (srb : ScsiRequestBlock) : CompletionPath → Prop
  | .atOnce => srb.cdb.isAnswered = true ∨ srb.cdb.isReadWrite = true
  | .refused removeLock => srb.cdb.isReadWrite = true → ntSuccess removeLock = false →
      srbStatusCode srb.srbStatus ≠ srbStatusSuccess
  | .reply cancel rep _ => srb.cdb.isReadWrite = true →
      if cancel then srbStatusCode srb.srbStatus ≠ srbStatusSuccess
      else rep.status = statusSuccess ∨ ntSuccess rep.status = false

variable {pdo : PdoDeviceData} {srb : ScsiRequestBlock} {path : CompletionPath}

/-- What `SetSenseInfo` writes is an error or not. -/
theorem writesErrorSense_iff (e : SenseData) (h : ∀ d, ∃ r,
    complete pdo { srb with senseInfoBuffer := some d } path = some r ∧
      r.2.senseInfoBuffer = some e) :
    WritesErrorSense pdo srb path ↔ e.senseKey ≠ scsiSenseNoSense := by
  constructor
  · rintro ⟨e', he, hw⟩
    obtain ⟨r, hr, hs⟩ := h default
    obtain ⟨r', hr', hs'⟩ := hw default
    obtain rfl := Option.some.inj (hr.symm.trans hr')
    obtain rfl := Option.some.inj (hs.symm.trans hs')
    exact he
  · exact fun hk => ⟨e, hk, h⟩

/-- A path that leaves the sense buffer alone writes nothing. -/
theorem not_writesErrorSense (h : ∀ d r, complete pdo { srb with senseInfoBuffer := some d } path =
    some r → r.2.senseInfoBuffer = some d) : ¬ WritesErrorSense pdo srb path := by
  rintro ⟨e, -, hw⟩
  -- no error is what both of two buffers held
  obtain ⟨r, hr, hs⟩ := hw { e with valid := true }
  obtain ⟨r', hr', hs'⟩ := hw { e with valid := false }
  have htrue := (h _ r hr).symm.trans hs
  have hfalse := (h _ r' hr').symm.trans hs'
  exact absurd (congrArg SenseData.valid (Option.some.inj (htrue.trans hfalse.symm))) (by simp)

/-! ### At once -/

theorem complete_answered (pdo : PdoDeviceData) (srb : ScsiRequestBlock)
    (h : srb.cdb.isAnswered = true) : ∃ r, complete pdo srb .atOnce = some r ∧ r.1 = statusSuccess ∧
    r.2.srbStatus = srbStatusSuccess ∧ r.2.senseInfoBuffer = srb.senseInfoBuffer.map fun _ =>
      senseInfo scsiSenseNoSense scsiAdsenseNoSense 0 := by
  simp only [Cdb.isAnswered, Bool.or_eq_true, decide_eq_true_eq, or_assoc] at h
  by_cases h₁ : srb.cdb.operationCode = scsiopTestUnitReady ∨ srb.cdb.operationCode = scsiopVerify
  · exact ⟨_, by rw [complete, busExecuteCommand, if_pos h₁], rfl, rfl, rfl⟩
  · have h₂ : srb.cdb.operationCode = scsiopReadCapacity := by tauto
    exact ⟨_, by rw [complete, busExecuteCommand, if_neg h₁, if_pos h₂], rfl, rfl, rfl⟩

theorem complete_packet (pdo : PdoDeviceData) (h : srb.cdb.isReadWrite = true) :
    complete pdo srb .atOnce = none := by
  rw [complete, (busExecuteCommand_eq_startPacket_iff pdo srb).mpr h]

theorem complete_rejected (pdo : PdoDeviceData) (srb : ScsiRequestBlock)
    (ha : srb.cdb.isAnswered = false) (hrw : srb.cdb.isReadWrite = false) :
    ∃ r, complete pdo srb .atOnce = some r ∧ r.1 = statusIoDeviceError ∧
      r.2.srbStatus = srbStatusError ∧
      r.2.senseInfoBuffer = srb.senseInfoBuffer.map fun _ =>
        senseInfo scsiSenseIllegalRequest scsiAdsenseInvalidCdb 0 := by
  simp only [Cdb.isAnswered, Bool.or_eq_false_iff, decide_eq_false_iff_not] at ha
  have h₁ : ¬ (srb.cdb.operationCode = scsiopTestUnitReady ∨
      srb.cdb.operationCode = scsiopVerify) := by tauto
  exact ⟨_, by rw [complete, busExecuteCommand, if_neg h₁, if_neg ha.2, if_neg (by simp [hrw])],
    rfl, rfl, rfl⟩

theorem statusesAgree_atOnce_iff : StatusesAgree pdo srb .atOnce ↔ Conforms srb .atOnce := by
  cases ha : srb.cdb.isAnswered with
  | true =>
    obtain ⟨r, hr, hst, hsrb, -⟩ := complete_answered pdo srb ha
    refine iff_of_true ⟨fun r' hr' => ?_, fun r' _ hw => ?_⟩ (.inl ha)
    · obtain rfl := Option.some.inj (hr.symm.trans hr')
      rw [hst, hsrb]
      decide
    · refine absurd rfl ((writesErrorSense_iff (senseInfo scsiSenseNoSense scsiAdsenseNoSense 0)
        fun d => ?_).mp hw)
      obtain ⟨r, hr, -, -, hs⟩ := complete_answered pdo
        { srb with senseInfoBuffer := some d } ha
      exact ⟨r, hr, hs⟩
  | false =>
    cases hrw : srb.cdb.isReadWrite with
    | true =>
      have hnone := complete_packet pdo hrw
      exact iff_of_true ⟨fun r hr => by simp [hnone] at hr, fun r hr => by simp [hnone] at hr⟩
        (.inr hrw)
    | false =>
      obtain ⟨r, hr, -, hsrb, -⟩ := complete_rejected pdo srb ha hrw
      refine iff_of_false (fun h => ?_) (by simp [Conforms, ha, hrw])
      have hw : WritesErrorSense pdo srb .atOnce := by
        refine (writesErrorSense_iff (senseInfo scsiSenseIllegalRequest scsiAdsenseInvalidCdb 0)
          fun d => ?_).mpr (by decide)
        obtain ⟨r, hr, -, -, hs⟩ := complete_rejected pdo
          { srb with senseInfoBuffer := some d } ha hrw
        exact ⟨r, hr, hs⟩
      refine (h.sense r hr hw).1 ?_
      rw [hsrb]
      decide

/-! ### An SRB that is left alone -/

/-- A path that does not touch the SRB, and whose status is no success. -/
theorem statusesAgree_untouched_iff (status : NTSTATUS) (hst : ntSuccess status = false)
    (h : ∀ srb', srb'.cdb = srb.cdb → complete pdo srb' path = some (status, srb')) :
    StatusesAgree pdo srb path ↔ srbStatusCode srb.srbStatus ≠ srbStatusSuccess := by
  have hr := h srb rfl
  have hw : ¬ WritesErrorSense pdo srb path := not_writesErrorSense fun d r hr => by
    have hd := h { srb with senseInfoBuffer := some d } rfl
    obtain rfl := Option.some.inj (hd.symm.trans hr)
    rfl
  constructor
  · intro ha hcode
    have := (ha.status _ hr).mpr hcode
    simp [hst] at this
  · intro hcode
    refine ⟨fun r hr' => ?_, fun _ _ hw' => absurd hw' hw⟩
    obtain rfl := Option.some.inj (hr.symm.trans hr')
    exact iff_of_false (by simp [hst]) hcode

/-- A path that is not taken. -/
theorem statusesAgree_of_none (h : complete pdo srb path = none) : StatusesAgree pdo srb path :=
  ⟨fun r hr => by simp [h] at hr, fun r hr => by simp [h] at hr⟩

theorem statusesAgree_refused_iff {removeLock : NTSTATUS} :
    StatusesAgree pdo srb (.refused removeLock) ↔ Conforms srb (.refused removeLock) := by
  by_cases h : srb.cdb.isReadWrite = true ∧ ntSuccess removeLock = false
  · rw [statusesAgree_untouched_iff removeLock h.2
      fun srb' hcdb => by rw [complete, hcdb, if_pos h]]
    exact ⟨fun hc _ _ => hc, fun hc => hc h.1 h.2⟩
  · exact iff_of_true (statusesAgree_of_none (if_neg h)) fun h₁ h₂ => absurd ⟨h₁, h₂⟩ h

/-! ### A reply -/

theorem complete_replySrb (pdo : PdoDeviceData) (rep : BusenumReply) (buffer : Bytes)
    (hrw : srb.cdb.isReadWrite = true) :
    complete pdo srb (.reply false rep buffer) =
      some (rep.status, (replySrb pdo srb rep buffer).2) :=
  if_pos hrw

/-- The three fields as `Bus_ProcessReply` writes them. -/
theorem replySrb_fields (pdo : PdoDeviceData) (srb : ScsiRequestBlock) (rep : BusenumReply)
    (buffer : Bytes) :
    (replySrb pdo srb rep buffer).2.srbStatus =
      (if rep.status = statusSuccess then srbStatusSuccess
        else srbStatusError ||| srbStatusAutosenseValid) ∧
    (rep.status ≠ statusSuccess →
      (replySrb pdo srb rep buffer).2.scsiStatus = scsistatCheckCondition) ∧
    (replySrb pdo srb rep buffer).2.senseInfoBuffer = srb.senseInfoBuffer.map fun _ =>
      if rep.status = statusSuccess then senseInfo scsiSenseNoSense scsiAdsenseNoSense 0
      else senseInfo scsiSenseHardwareError scsiAdsenseLunNotReady 0 := by
  have hb : (replyData srb rep buffer).senseInfoBuffer = srb.senseInfoBuffer := by
    unfold replyData
    split <;> rfl
  by_cases h : rep.status = statusSuccess
  · simp [replySrb, h, setSenseInfo, hb]
  · simp [replySrb, h, setSenseInfo, hb]

theorem statusesAgree_reply_iff {rep : BusenumReply} {buffer : Bytes}
    (hrw : srb.cdb.isReadWrite = true) :
    StatusesAgree pdo srb (.reply false rep buffer) ↔
      rep.status = statusSuccess ∨ ntSuccess rep.status = false := by
  have hr := complete_replySrb pdo rep buffer hrw
  obtain ⟨hsrb, hscsi, -⟩ := replySrb_fields pdo srb rep buffer
  by_cases hst : rep.status = statusSuccess
  · rw [if_pos hst] at hsrb
    refine iff_of_true ⟨fun r hr' => ?_, fun r _ hw => ?_⟩ (.inl hst)
    · obtain rfl := Option.some.inj (hr.symm.trans hr')
      rw [hsrb]
      exact iff_of_true (by rw [hst]; rfl) (by decide)
    · refine absurd rfl ((writesErrorSense_iff (senseInfo scsiSenseNoSense scsiAdsenseNoSense 0)
        fun d => ?_).mp hw)
      refine ⟨_, complete_replySrb pdo rep buffer hrw, (replySrb_fields _ _ _ _).2.2.trans ?_⟩
      simp [hst]
  · rw [if_neg hst] at hsrb
    constructor
    · intro h
      right
      have hiff := h.status _ hr
      rw [hsrb] at hiff
      exact Bool.eq_false_iff.mpr fun ht => absurd (hiff.mp ht) (by decide)
    · intro h
      refine ⟨fun r hr' => ?_, fun r hr' _ => ?_⟩
      · obtain rfl := Option.some.inj (hr.symm.trans hr')
        rw [hsrb]
        exact iff_of_false (by simp [h.resolve_left hst]) (by decide)
      · obtain rfl := Option.some.inj (hr.symm.trans hr')
        rw [hsrb]
        exact ⟨by decide, hscsi hst⟩

/-- **The statuses agree exactly when** the path finds what it must. -/
theorem statusesAgree_iff (pdo : PdoDeviceData) (srb : ScsiRequestBlock) (path : CompletionPath) :
    StatusesAgree pdo srb path ↔ Conforms srb path := by
  cases path with
  | atOnce => exact statusesAgree_atOnce_iff
  | refused removeLock => exact statusesAgree_refused_iff
  | reply cancel rep buffer =>
    by_cases hrw : srb.cdb.isReadWrite = true
    · cases cancel with
      | true =>
        rw [statusesAgree_untouched_iff statusCancelled rfl
          fun srb' hcdb => by rw [complete, hcdb, if_pos hrw]; rfl]
        exact ⟨fun hc _ => hc, fun hc => hc hrw⟩
      | false =>
        rw [statusesAgree_reply_iff hrw]
        exact ⟨fun h _ => h, fun h => h hrw⟩
    · exact iff_of_true (statusesAgree_of_none (if_neg hrw)) fun h => absurd h hrw

/-- A MODE_SENSE. -/
def modeSenseSrb : ScsiRequestBlock where
  cdb := { operationCode := scsiopModeSense }
  senseInfoBuffer := some default

/-- **A command that is rejected has its sense data announced in the wrong field.** -/
theorem not_statusesAgree : ¬ ∀ (pdo : PdoDeviceData) (srb : ScsiRequestBlock)
    (path : CompletionPath), srb.senseInfoBuffer ≠ none → StatusesAgree pdo srb path := by
  intro h
  have hc := h {} modeSenseSrb .atOnce (by simp [modeSenseSrb])
  rcases statusesAgree_atOnce_iff.mp hc with hc | hc
  · exact absurd hc (by decide)
  · exact absurd hc (by decide)

end VirtualDisk
