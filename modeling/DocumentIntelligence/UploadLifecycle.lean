import DocumentIntelligence.UploadScopes

/-!
# The lifecycle of uploads

A transaction leaves the uploads alone, reserves a fresh one or changes a single
row in one of six ways, each with its events. The shape of the row, the number
of its attempts and its events follow from the way in which it changed.
-/

set_option autoImplicit false

namespace DocumentIntelligence.UploadLifecycle
open Identifiers hiding Error
open WorkScopes Schema Uploads UploadScopes Transition

/-- The constraint `ocr_uploads_inspection_lease_shape`. -/
def leaseShape (u : UploadRow) : Bool :=
  match u.status with
  | .inspecting => decide (0 < u.inspectionAttempts) && u.inspectionLeaseOwner.isSome &&
      u.inspectionLeaseExpiresAt.isSome
  | .accepted | .rejected => decide (0 < u.inspectionAttempts) && u.inspectionLeaseOwner.isNone &&
      u.inspectionLeaseExpiresAt.isNone
  | .reserved | .uploaded | .expired => u.inspectionAttempts == 0 && u.inspectionLeaseOwner.isNone &&
      u.inspectionLeaseExpiresAt.isNone

def wasUploaded : UploadState → Bool
  | .reserved | .expired => false
  | _ => true

def terminal : UploadState → Bool
  | .accepted | .rejected => true
  | _ => false

/-- The lease of the row is this owner's, and it has not expired. -/
def HoldsLease (now : ℤ) (owner : String) (u : UploadRow) : Prop :=
  u.inspectionLeaseOwner = some owner ∧
    ∃ expiresAt, u.inspectionLeaseExpiresAt = some expiresAt ∧ now < expiresAt

def announced (e : UploadOutboxRow) : Scope × UploadId × UploadEventType :=
  (e.scope,e.uploadId,e.eventType)

/-- The events of a type which an upload has in the outbox. -/
def eventCount (s : Store) (scope : Scope) (uploadId : UploadId) (eventType : UploadEventType) : ℕ :=
  (s.uploadOutbox.map announced).count (scope,uploadId,eventType)

/-- Whether the action is a claim of the upload which returns it as claimed. -/
def returnsClaimed (s : Store) (scope : Scope) (uploadId : UploadId) : Action → Bool
  | .claim now scope' uploadId' owner => scope' == scope && uploadId' == uploadId &&
    match claimUploadInspection s now scope uploadId owner with
    | .ok (.claimed, _) => true
    | _ => false
  | _ => false

/-- The claims of a run which returned the upload as claimed. -/
def claims (scope : Scope) (uploadId : UploadId) : Store → List Action → ℕ
  | _, [] => 0
  | s, a::as => (if returnsClaimed s scope uploadId a then 1 else 0)+
      claims scope uploadId (step s a) as

/-- What the decision of a claim says about the row. -/
theorem claimOutcome_spec (now : ℤ) (owner : String) (u : UploadRow) :
    (claimOutcome now owner u = .claimed → (u.status = .uploaded ∨ u.status = .inspecting) ∧
      u.inspectionAttempts < 10) ∧
    (claimOutcome now owner u = .existing → u.status = .inspecting ∧
      u.inspectionLeaseOwner = some owner) ∧
    (claimOutcome now owner u = .attemptsExhausted → u.status = .inspecting ∧
      leaseActive now u = false ∧ 10 ≤ u.inspectionAttempts) := by
  cases hstatus : u.status with
  | uploaded =>
    simp only [claimOutcome, hstatus]
    by_cases hattempts : u.inspectionAttempts < 10 <;> simp [hattempts]
  | inspecting =>
    simp only [claimOutcome, hstatus]
    by_cases hattempts : u.inspectionAttempts < 10
    · cases leaseActive now u <;> by_cases howner : u.inspectionLeaseOwner = some owner <;>
        simp [hattempts, howner]
    · have hspent : 10 ≤ u.inspectionAttempts := by omega
      cases leaseActive now u <;> by_cases howner : u.inspectionLeaseOwner = some owner <;>
        simp [hattempts, howner, hspent]
  | _ => simp [claimOutcome, hstatus]

/-! ## What a transaction does to a row -/

inductive UploadChange (u : UploadRow) : Action → UploadRow → List UploadEventType → Prop
  | recorded (now nowUtc : ℤ) (record : RecordUpload) : recordable now record u = true →
      UploadChange u (.record now nowUtc u.scope u.uploadId record) (markUploaded now record u)
        [.received]
  | claimed (now : ℤ) (owner : String) : claimOutcome now owner u = .claimed →
      UploadChange u (.claim now u.scope u.uploadId owner) (claimInspection now owner u) []
  | renewed (now : ℤ) (owner : String) : claimOutcome now owner u = .existing →
      UploadChange u (.claim now u.scope u.uploadId owner) (renewInspection now u) []
  | exhausted (now : ℤ) (owner : String) : claimOutcome now owner u = .attemptsExhausted →
      UploadChange u (.claim now u.scope u.uploadId owner)
        (markRejected .inspectionAttemptsExhausted u) [.rejected]
  | accepted (now : ℤ) (accept : AcceptUpload) : acceptable now accept u = true →
      UploadChange u (.accept now u.scope u.uploadId accept) (markAccepted now accept u) [.accepted]
  | rejected (now : ℤ) (owner : String) (reason : UploadRejectionReason) :
      rejectable now owner u = true →
      UploadChange u (.reject now u.scope u.uploadId owner reason) (markRejected reason u) [.rejected]

inductive UploadEffect (s : Store) (a : Action) (s' : Store) : Prop
  | kept : s'.uploads = s.uploads → s'.uploadOutbox = s.uploadOutbox → UploadEffect s a s'
  | created (now : ℤ) (request : CreateUpload) : (∀ u ∈ s.uploads, u.uploadId ≠ request.uploadId) →
      s'.uploads = s.uploads++[request.row now] → s'.uploadOutbox = s.uploadOutbox →
      UploadEffect s a s'
  | changed (u : UploadRow) (p : UploadRow → Bool) (f : UploadRow → UploadRow)
      (types : List UploadEventType) : u ∈ s.uploads → (∀ x ∈ s.uploads, p x = true ↔ x = u) →
      UploadChange u a (f u) types → (∀ x, (f x).uploadId = x.uploadId ∧ (f x).scope = x.scope) →
      s'.uploads = Table.update p f s.uploads →
      s'.uploadOutbox.map announced =
        s.uploadOutbox.map announced++types.map ((u.scope,u.uploadId,·)) →
      UploadEffect s a s'

section Effect
variable {s : Store} (hkeys : (s.uploads.map (·.uploadId)).Nodup)
include hkeys

/-- The statement of a transaction selects the row which it found. -/
theorem selected {scope : Scope} {uploadId : UploadId} {u : UploadRow}
    (hfind : s.uploads.find? (isUpload scope uploadId) = some u) :
    u ∈ s.uploads ∧ u.scope = scope ∧ u.uploadId = uploadId ∧
      ∀ x ∈ s.uploads, isUpload scope uploadId x = true ↔ x = u := by
  obtain ⟨hu,hkey⟩ := Table.mem_of_find? hfind
  obtain ⟨hscope,hid⟩ := (isUpload_iff _ _ _).mp hkey
  refine ⟨hu,hscope,hid,?_⟩
  intro x hx
  constructor
  · intro hxkey
    exact Table.eq_of_key hkeys hx hu (((isUpload_iff _ _ _).mp hxkey).2.trans hid.symm)
  · rintro rfl
    exact hkey

theorem record_effect (now nowUtc : ℤ) (scope : Scope) (uploadId : UploadId)
    (record : RecordUpload) :
    UploadEffect s (.record now nowUtc scope uploadId record)
      (step s (.record now nowUtc scope uploadId record)) := by
  have hkept : UploadEffect s (.record now nowUtc scope uploadId record) s := .kept rfl rfl
  simp only [step, recordUploaded]
  split
  · exact hkept
  · split
    · exact hkept
    · rename_i u hfind
      split
      · rename_i hrecordable
        cases storedUpload (markUploaded now record u) with
        | error e => exact hkept
        | ok upload =>
          obtain ⟨hu,rfl,rfl,hselected⟩ := selected hkeys hfind
          refine .changed u _ _ _ hu hselected (.recorded now nowUtc record hrecordable)
            (fun _ => ⟨rfl,rfl⟩) rfl ?_
          show (recordRow s now u.scope u.uploadId record).uploadOutbox.map announced = _
          simp [recordRow, insertUploadEvent, announced]
      · split
        · split
          · cases storedUpload u <;> exact hkept
          · exact hkept
        · exact hkept
        · exact hkept

theorem claim_effect (now : ℤ) (scope : Scope) (uploadId : UploadId) (owner : String) :
    UploadEffect s (.claim now scope uploadId owner)
      (step s (.claim now scope uploadId owner)) := by
  have hkept : UploadEffect s (.claim now scope uploadId owner) s := .kept rfl rfl
  simp only [step, claimUploadInspection]
  split
  · exact hkept
  · split
    · exact hkept
    · rename_i u hfind
      obtain ⟨hu,rfl,rfl,hselected⟩ := selected hkeys hfind
      split
      · rename_i hclaimed
        exact .changed u _ _ [] hu hselected (.claimed now owner hclaimed) (fun _ => ⟨rfl,rfl⟩) rfl
          (by simp)
      · rename_i hexisting
        have howner := ((claimOutcome_spec now owner u).2.1 hexisting).2
        refine .changed u _ _ [] hu ?_ (.renewed now owner hexisting) (fun _ => ⟨rfl,rfl⟩) rfl
          (by simp)
        intro x hx
        rw [Bool.and_eq_true, hselected x hx, beq_iff_eq]
        constructor
        · exact fun h => h.1
        · rintro rfl
          exact ⟨rfl,howner⟩
      · rename_i hexhausted
        refine .changed u _ _ _ hu hselected (.exhausted now owner hexhausted) (fun _ => ⟨rfl,rfl⟩)
          rfl ?_
        simp [rejectRow, insertUploadEvent, announced]
      · exact hkept

theorem accept_effect (now : ℤ) (scope : Scope) (uploadId : UploadId) (accept : AcceptUpload) :
    UploadEffect s (.accept now scope uploadId accept)
      (step s (.accept now scope uploadId accept)) := by
  have hkept : UploadEffect s (.accept now scope uploadId accept) s := .kept rfl rfl
  simp only [step, acceptUpload]
  split
  · exact hkept
  · split
    · exact hkept
    · rename_i u hfind
      split
      · rename_i hacceptable
        obtain ⟨hu,rfl,rfl,hselected⟩ := selected hkeys hfind
        refine .changed u _ _ _ hu hselected (.accepted now accept hacceptable) (fun _ => ⟨rfl,rfl⟩)
          rfl ?_
        simp [acceptRow, insertUploadEvent, announced]
      · split <;> exact hkept

theorem reject_effect (now : ℤ) (scope : Scope) (uploadId : UploadId) (owner : String)
    (reason : UploadRejectionReason) :
    UploadEffect s (.reject now scope uploadId owner reason)
      (step s (.reject now scope uploadId owner reason)) := by
  have hkept : UploadEffect s (.reject now scope uploadId owner reason) s := .kept rfl rfl
  simp only [step, rejectUpload]
  split
  · exact hkept
  · split
    · exact hkept
    · rename_i u hfind
      split
      · rename_i hrejectable
        obtain ⟨hu,rfl,rfl,hselected⟩ := selected hkeys hfind
        refine .changed u _ _ _ hu hselected (.rejected now owner reason hrejectable)
          (fun _ => ⟨rfl,rfl⟩) rfl ?_
        simp [rejectRow, insertUploadEvent, announced]
      · split <;> exact hkept

theorem step_effect (a : Action) : UploadEffect s a (step s a) := by
  cases a with
  | create now request =>
    rcases create_step s now request with h | ⟨hfresh,h⟩ <;> rw [h]
    · exact .kept rfl rfl
    · exact .created now request hfresh rfl rfl
  | record now nowUtc scope uploadId record =>
    exact record_effect hkeys now nowUtc scope uploadId record
  | claim now scope uploadId owner => exact claim_effect hkeys now scope uploadId owner
  | accept now scope uploadId accept => exact accept_effect hkeys now scope uploadId accept
  | reject now scope uploadId owner reason => exact reject_effect hkeys now scope uploadId owner reason

end Effect

/-! ## What the row says -/

/-- A row and the number of its events of each type. -/
structure RowOk (events : UploadEventType → ℕ) (u : UploadRow) : Prop where
  shape : leaseShape u = true
  attempts : u.inspectionAttempts ≤ 10
  uploaded : u.verified.isSome = wasUploaded u.status
  verified : ∀ v, u.verified = some v → v.verifiedDigest = u.expectedDigest ∧
    v.verifiedContentLength = u.expectedContentLength
  received : events .received = if wasUploaded u.status then 1 else 0
  accepted : events .accepted = if u.status = .accepted then 1 else 0
  rejected : events .rejected = if u.status = .rejected then 1 else 0

theorem created_row (now : ℤ) (request : CreateUpload) : RowOk (fun _ => 0) (request.row now) where
  shape := rfl
  attempts := Nat.zero_le 10
  uploaded := rfl
  verified := fun _ h => by cases h
  received := rfl
  accepted := rfl
  rejected := rfl

section Rows
variable {events : UploadEventType → ℕ} {u : UploadRow} (h : RowOk events u)
include h

/-- A row under inspection has used an attempt and holds a lease. -/
theorem inspecting_row (hstatus : u.status = .inspecting) : 0 < u.inspectionAttempts ∧
    u.verified.isSome = true ∧ events .received = 1 ∧ events .accepted = 0 ∧
    events .rejected = 0 := by
  have hshape := h.shape
  rw [leaseShape, hstatus] at hshape
  simp only [Bool.and_eq_true, decide_eq_true_eq] at hshape
  refine ⟨hshape.1.1,?_,?_,?_,?_⟩
  · rw [h.uploaded, hstatus]
    rfl
  · rw [h.received, hstatus]
    rfl
  · rw [h.accepted, hstatus]
    rfl
  · rw [h.rejected, hstatus]
    rfl

theorem recorded_row {now : ℤ} {record : RecordUpload} (hrecordable : recordable now record u = true) :
    RowOk (fun t => events t+[UploadEventType.received].count t) (markUploaded now record u) := by
  simp only [recordable, Bool.and_eq_true, beq_iff_eq, decide_eq_true_eq] at hrecordable
  obtain ⟨⟨⟨⟨hstatus,_⟩,_⟩,hlength⟩,hdigest⟩ := hrecordable
  have hshape := h.shape
  have hreceived := h.received
  have haccepted := h.accepted
  have hrejected := h.rejected
  rw [hstatus] at hreceived haccepted hrejected
  rw [leaseShape, hstatus] at hshape
  constructor
  · exact hshape
  · exact h.attempts
  · rfl
  · intro v hv
    cases hv
    exact ⟨hdigest.symm,hlength.symm⟩
  · show events .received+1 = 1
    rw [hreceived]
    rfl
  · exact haccepted
  · exact hrejected

theorem claimed_row {now : ℤ} {owner : String} (hclaimed : claimOutcome now owner u = .claimed) :
    RowOk events (claimInspection now owner u) := by
  obtain ⟨hwait,hbound⟩ := (claimOutcome_spec now owner u).1 hclaimed
  have hsame : wasUploaded u.status = true ∧ u.status ≠ .accepted ∧ u.status ≠ .rejected := by
    rcases hwait with hstatus | hstatus <;> rw [hstatus] <;> exact ⟨rfl,by decide,by decide⟩
  have hreceived := h.received
  have haccepted := h.accepted
  have hrejected := h.rejected
  rw [hsame.1] at hreceived
  rw [if_neg hsame.2.1] at haccepted
  rw [if_neg hsame.2.2] at hrejected
  constructor
  · show (decide (0 < u.inspectionAttempts+1) && true && true) = true
    simp
  · show u.inspectionAttempts+1 ≤ 10
    omega
  · rw [show (claimInspection now owner u).verified = u.verified from rfl, h.uploaded, hsame.1]
    rfl
  · exact h.verified
  · exact hreceived
  · exact haccepted
  · exact hrejected

theorem renewed_row {now : ℤ} {owner : String} (hexisting : claimOutcome now owner u = .existing) :
    u.status = .inspecting ∧ RowOk events (renewInspection now u) := by
  have hstatus := ((claimOutcome_spec now owner u).2.1 hexisting).1
  have hshape := h.shape
  rw [leaseShape, hstatus] at hshape
  refine ⟨hstatus,?_,h.attempts,h.uploaded,h.verified,h.received,h.accepted,h.rejected⟩
  simp only [leaseShape, renewInspection, hstatus]
  simp only [Bool.and_eq_true] at hshape
  rw [hshape.1.1, hshape.1.2]
  rfl

/-- The end of an inspection, with its event. -/
theorem closed_row (hstatus : u.status = .inspecting) {u' : UploadRow}
    (hkept : u'.inspectionAttempts = u.inspectionAttempts ∧ u'.verified = u.verified ∧
      u'.expectedDigest = u.expectedDigest ∧ u'.expectedContentLength = u.expectedContentLength)
    (hlease : u'.inspectionLeaseOwner = none ∧ u'.inspectionLeaseExpiresAt = none)
    {eventType : UploadEventType}
    (hclosed : u'.status = .accepted ∧ eventType = .accepted ∨
      u'.status = .rejected ∧ eventType = .rejected) :
    RowOk (fun t => events t+[eventType].count t) u' := by
  obtain ⟨hpos,hverified,hreceived,haccepted,hrejected⟩ := inspecting_row h hstatus
  obtain ⟨hattempts,hsame,hdigest,hlength⟩ := hkept
  have hshape : leaseShape u' = true := by
    rcases hclosed with ⟨hu',_⟩ | ⟨hu',_⟩ <;>
      simp only [leaseShape, hu', hlease.1, hlease.2, hattempts, hpos, decide_true,
        Option.isNone_none, Bool.and_self]
  have huploaded : wasUploaded u'.status = true := by
    rcases hclosed with ⟨hu',_⟩ | ⟨hu',_⟩ <;> rw [hu'] <;> rfl
  refine ⟨hshape,hattempts ▸ h.attempts,?_,?_,?_,?_,?_⟩
  · rw [hsame, hverified, huploaded]
  · rw [hsame, hdigest, hlength]
    exact h.verified
  · rw [huploaded, hreceived]
    rcases hclosed with ⟨_,rfl⟩ | ⟨_,rfl⟩ <;> rfl
  · rw [haccepted]
    rcases hclosed with ⟨hu',rfl⟩ | ⟨hu',rfl⟩ <;> rw [hu'] <;> rfl
  · rw [hrejected]
    rcases hclosed with ⟨hu',rfl⟩ | ⟨hu',rfl⟩ <;> rw [hu'] <;> rfl

end Rows

theorem change_status {u u' : UploadRow} {a : Action} {types : List UploadEventType}
    (h : UploadChange u a u' types) : terminal u.status = false ∧ u'.uploadId = u.uploadId ∧
      u'.scope = u.scope := by
  cases h with
  | recorded now nowUtc record hrecordable =>
    simp only [recordable, Bool.and_eq_true, beq_iff_eq] at hrecordable
    rw [hrecordable.1.1.1.1]
    exact ⟨rfl,rfl,rfl⟩
  | claimed now owner hclaimed =>
    rcases ((claimOutcome_spec now owner u).1 hclaimed).1 with hstatus | hstatus <;> rw [hstatus] <;>
      exact ⟨rfl,rfl,rfl⟩
  | renewed now owner hexisting =>
    rw [((claimOutcome_spec now owner u).2.1 hexisting).1]
    exact ⟨rfl,rfl,rfl⟩
  | exhausted now owner hexhausted =>
    rw [((claimOutcome_spec now owner u).2.2 hexhausted).1]
    exact ⟨rfl,rfl,rfl⟩
  | accepted now accept hacceptable =>
    simp only [acceptable, Bool.and_eq_true, beq_iff_eq] at hacceptable
    rw [hacceptable.1.1.1.1]
    exact ⟨rfl,rfl,rfl⟩
  | rejected now owner reason hrejectable =>
    simp only [rejectable, Bool.and_eq_true, beq_iff_eq] at hrejectable
    rw [hrejectable.1.1]
    exact ⟨rfl,rfl,rfl⟩

theorem change_row {events : UploadEventType → ℕ} {u u' : UploadRow} {a : Action}
    {types : List UploadEventType} (h : RowOk events u) (hchange : UploadChange u a u' types) :
    RowOk (fun t => events t+types.count t) u' := by
  cases hchange with
  | recorded now nowUtc record hrecordable => exact recorded_row h hrecordable
  | claimed now owner hclaimed => exact claimed_row h hclaimed
  | renewed now owner hexisting => exact (renewed_row h hexisting).2
  | exhausted now owner hexhausted =>
    have hstatus := ((claimOutcome_spec now owner u).2.2 hexhausted).1
    refine closed_row h hstatus ?_ ?_ ?_
    · exact ⟨rfl,rfl,rfl,rfl⟩
    · exact ⟨rfl,rfl⟩
    · exact Or.inr ⟨rfl,rfl⟩
  | accepted now accept hacceptable =>
    simp only [acceptable, Bool.and_eq_true, beq_iff_eq] at hacceptable
    refine closed_row h hacceptable.1.1.1.1 ?_ ?_ ?_
    · exact ⟨rfl,rfl,rfl,rfl⟩
    · exact ⟨rfl,rfl⟩
    · exact Or.inl ⟨rfl,rfl⟩
  | rejected now owner reason hrejectable =>
    simp only [rejectable, Bool.and_eq_true, beq_iff_eq] at hrejectable
    refine closed_row h hrejectable.1.1 ?_ ?_ ?_
    · exact ⟨rfl,rfl,rfl,rfl⟩
    · exact ⟨rfl,rfl⟩
    · exact Or.inr ⟨rfl,rfl⟩

/-! ## Every run -/

/-- The events which the outbox has of an upload. -/
def eventsOf (s : Store) (u : UploadRow) (eventType : UploadEventType) : ℕ :=
  eventCount s u.scope u.uploadId eventType

structure Sound (s : Store) : Prop where
  keys : (s.uploads.map (·.uploadId)).Nodup
  known : ∀ e ∈ s.uploadOutbox, ∃ u ∈ s.uploads, u.uploadId = e.uploadId
  rows : ∀ u ∈ s.uploads, RowOk (eventsOf s u) u

theorem sound_empty : Sound empty where
  keys := List.nodup_nil
  known := fun _ h => absurd h List.not_mem_nil
  rows := fun _ h => absurd h List.not_mem_nil

theorem count_own (scope : Scope) (uploadId : UploadId) (types : List UploadEventType)
    (eventType : UploadEventType) :
    (types.map ((scope,uploadId,·))).count (scope,uploadId,eventType) = types.count eventType := by
  have hinj : Function.Injective fun t : UploadEventType => (scope,uploadId,t) := by
    intro t t' heq
    simpa using heq
  exact List.count_map_of_injective types _ hinj eventType

theorem count_other {scope scope' : Scope} {uploadId uploadId' : UploadId} (hne : uploadId' ≠ uploadId)
    (types : List UploadEventType) (eventType : UploadEventType) :
    (types.map ((scope,uploadId,·))).count (scope',uploadId',eventType) = 0 := by
  rw [List.count_eq_zero]
  intro hmem
  obtain ⟨x,_,heq⟩ := List.mem_map.mp hmem
  simp only [Prod.mk.injEq] at heq
  exact hne heq.2.1.symm

/-- A fresh upload has no events. -/
theorem count_fresh {s : Store} (h : Sound s) {scope : Scope} {uploadId : UploadId}
    (hfresh : ∀ u ∈ s.uploads, u.uploadId ≠ uploadId) (eventType : UploadEventType) :
    eventCount s scope uploadId eventType = 0 := by
  rw [eventCount, List.count_eq_zero]
  intro hmem
  obtain ⟨e,he,heq⟩ := List.mem_map.mp hmem
  simp only [announced, Prod.mk.injEq] at heq
  obtain ⟨u,hu,hid⟩ := h.known e he
  exact hfresh u hu (hid.trans heq.2.1)

theorem effect_sound {s s' : Store} (h : Sound s) {a : Action} (heffect : UploadEffect s a s') :
    Sound s' := by
  cases heffect with
  | kept hrows houtbox =>
    have hcount : ∀ u, eventsOf s' u = eventsOf s u := by
      intro u
      funext t
      rw [eventsOf, eventsOf, eventCount, eventCount, houtbox]
    refine ⟨hrows ▸ h.keys,?_,?_⟩
    · rw [hrows, houtbox]
      exact h.known
    · rw [hrows]
      intro u hu
      rw [hcount]
      exact h.rows u hu
  | created now request hfresh hrows houtbox =>
    have hcount : ∀ u, eventsOf s' u = eventsOf s u := by
      intro u
      funext t
      rw [eventsOf, eventsOf, eventCount, eventCount, houtbox]
    refine ⟨?_,?_,?_⟩
    · rw [hrows]
      exact Table.nodup_append_key h.keys hfresh
    · rw [hrows, houtbox]
      intro e he
      obtain ⟨u,hu,hid⟩ := h.known e he
      exact ⟨u,List.mem_append_left _ hu,hid⟩
    · rw [hrows]
      intro u hu
      rw [hcount]
      rcases List.mem_append.mp hu with hm | hm
      · exact h.rows u hm
      · rw [List.mem_singleton.mp hm]
        have hnone : eventsOf s (request.row now) = fun _ => 0 := by
          funext t
          exact count_fresh h hfresh t
        rw [hnone]
        exact created_row now request
  | changed u p f types hu hp hchange hkey hrows houtbox =>
    have hkeys : s'.uploads.map (·.uploadId) = s.uploads.map (·.uploadId) := by
      rw [hrows]
      apply Table.map_update UploadRow.uploadId
      exact fun x => (hkey x).1
    refine ⟨hkeys ▸ h.keys,?_,?_⟩
    · intro e he
      have hknown : ∃ x ∈ s.uploads, x.uploadId = e.uploadId := by
        have hmem : announced e ∈ s'.uploadOutbox.map announced := List.mem_map_of_mem he
        rw [houtbox] at hmem
        rcases List.mem_append.mp hmem with hm | hm
        · obtain ⟨e',he',heq⟩ := List.mem_map.mp hm
          obtain ⟨x,hx,hid⟩ := h.known e' he'
          simp only [announced, Prod.mk.injEq] at heq
          exact ⟨x,hx,hid.trans heq.2.1⟩
        · obtain ⟨t,_,heq⟩ := List.mem_map.mp hm
          simp only [announced, Prod.mk.injEq] at heq
          exact ⟨u,hu,heq.2.1⟩
      obtain ⟨x,hx,hid⟩ := hknown
      rw [hrows]
      refine ⟨_,Table.mem_update_of_mem hx,?_⟩
      split
      · exact (hkey x).1.trans hid
      · exact hid
    · intro y hy
      rw [hrows] at hy
      rcases Table.mem_update_cases hy with ⟨hm,hpy⟩ | ⟨x,hx,hpx,rfl⟩
      · have hne : y.uploadId ≠ u.uploadId := by
          intro heq
          rw [(hp y hm).mpr (Table.eq_of_key h.keys hm hu heq)] at hpy
          cases hpy
        have hcount : eventsOf s' y = eventsOf s y := by
          funext t
          rw [eventsOf, eventCount, houtbox, List.count_append, count_other hne, Nat.add_zero]
          rfl
        rw [hcount]
        exact h.rows y hm
      · rw [(hp x hx).mp hpx]
        have hcount : eventsOf s' (f u) = fun t => eventsOf s u t+types.count t := by
          funext t
          rw [eventsOf, (hkey u).1, (hkey u).2, eventCount, houtbox, List.count_append, count_own]
          rfl
        rw [hcount]
        exact change_row (h.rows u hu) hchange

theorem step_sound (s : Store) (a : Action) (h : Sound s) : Sound (step s a) :=
  effect_sound h (step_effect h.keys a)

theorem run_sound {s : Store} (h : Sound s) (as : List Action) : Sound (run step s as) :=
  run_invariant step_sound h as

/-! ## The attempts are the claims -/

/-- The attempts of an upload, none if it was not reserved yet. -/
def attemptsOf (s : Store) (scope : Scope) (uploadId : UploadId) : ℕ :=
  (s.uploads.find? (isUpload scope uploadId)).elim 0 (·.inspectionAttempts)

section Attempts
variable {s s' : Store} {scope : Scope} {uploadId : UploadId}

theorem attemptsOf_update {p : UploadRow → Bool} {f : UploadRow → UploadRow}
    (hrows : s'.uploads = Table.update p f s.uploads)
    (hf : ∀ u, (f u).scope = u.scope ∧ (f u).uploadId = u.uploadId) :
    attemptsOf s' scope uploadId = (s.uploads.find? (isUpload scope uploadId)).elim 0
      fun u => (if p u then f u else u).inspectionAttempts := by
  have hkey : ∀ u, isUpload scope uploadId (f u) = isUpload scope uploadId u := by
    intro u
    rw [isUpload, (hf u).1, (hf u).2]
    rfl
  rw [attemptsOf, hrows, Table.find?_update_key hkey]
  cases s.uploads.find? (isUpload scope uploadId) <;> rfl

theorem attemptsOf_kept {p : UploadRow → Bool} {f : UploadRow → UploadRow}
    (hrows : s'.uploads = Table.update p f s.uploads)
    (hf : ∀ u, (f u).scope = u.scope ∧ (f u).uploadId = u.uploadId ∧
      (f u).inspectionAttempts = u.inspectionAttempts) :
    attemptsOf s' scope uploadId = attemptsOf s scope uploadId := by
  rw [attemptsOf_update hrows fun u => ⟨(hf u).1,(hf u).2.1⟩, attemptsOf]
  congr 1
  funext u
  split
  · exact (hf u).2.2
  · rfl

theorem claim_attempts (now : ℤ) (scope' : Scope) (uploadId' : UploadId) (owner : String) :
    attemptsOf (step s (.claim now scope' uploadId' owner)) scope uploadId =
      attemptsOf s scope uploadId+
        if returnsClaimed s scope uploadId (.claim now scope' uploadId' owner) then 1 else 0 := by
  by_cases hsame : scope' = scope ∧ uploadId' = uploadId
  · obtain ⟨rfl,rfl⟩ := hsame
    have hself : (scope' == scope' && uploadId' == uploadId') = true := by simp
    simp only [step, returnsClaimed, hself, Bool.true_and]
    cases hvalid : isValidLeaseOwner owner with
    | false => simp [claimUploadInspection, hvalid]
    | true =>
      cases hfind : s.uploads.find? (isUpload scope' uploadId') with
      | none => simp [claimUploadInspection, hvalid, hfind]
      | some u =>
        have hkey := (Table.mem_of_find? hfind).2
        cases houtcome : claimOutcome now owner u with
        | claimed =>
          simp only [claimUploadInspection, hvalid, hfind, houtcome, Bool.not_true,
            Bool.false_eq_true, if_false, if_true, commit_ok]
          rw [attemptsOf_update (s := s) (f := claimInspection now owner) rfl fun _ => ⟨rfl,rfl⟩,
            attemptsOf, hfind, Option.elim_some, if_pos hkey]
          rfl
        | existing =>
          simp only [claimUploadInspection, hvalid, hfind, houtcome, Bool.not_true,
            Bool.false_eq_true, if_false, commit_ok]
          exact attemptsOf_kept rfl fun _ => ⟨rfl,rfl,rfl⟩
        | attemptsExhausted =>
          simp only [claimUploadInspection, hvalid, hfind, houtcome, Bool.not_true,
            Bool.false_eq_true, if_false, commit_ok]
          exact attemptsOf_kept rfl fun _ => ⟨rfl,rfl,rfl⟩
        | _ => simp [claimUploadInspection, hvalid, hfind, houtcome]
  · have hnot : returnsClaimed s scope uploadId (.claim now scope' uploadId' owner) = false := by
      simp only [returnsClaimed, Bool.and_eq_false_iff, beq_eq_false_iff_ne]
      left
      by_contra hcontra
      rw [not_or, not_not, not_not] at hcontra
      exact hsame hcontra
    have hother : ∀ u, isUpload scope uploadId u = true → isUpload scope' uploadId' u = false := by
      intro u hkey
      by_contra hcontra
      rw [Bool.not_eq_false, isUpload_iff] at hcontra
      rw [isUpload_iff] at hkey
      exact hsame ⟨hcontra.1.symm.trans hkey.1,hcontra.2.symm.trans hkey.2⟩
    rw [hnot, if_neg Bool.false_ne_true, Nat.add_zero]
    simp only [step, claimUploadInspection]
    split
    · rfl
    · split
      · rfl
      · split
        · rw [commit_ok, attemptsOf_update (s := s) (f := claimInspection now owner) rfl
            fun _ => ⟨rfl,rfl⟩, attemptsOf]
          cases hfind : s.uploads.find? (isUpload scope uploadId) with
          | none => rfl
          | some u =>
            rw [Option.elim_some, hother u (Table.mem_of_find? hfind).2]
            rfl
        · exact attemptsOf_kept rfl fun _ => ⟨rfl,rfl,rfl⟩
        · exact attemptsOf_kept rfl fun _ => ⟨rfl,rfl,rfl⟩
        · rfl

theorem step_attempts (a : Action) : attemptsOf (step s a) scope uploadId =
    attemptsOf s scope uploadId+if returnsClaimed s scope uploadId a then 1 else 0 := by
  cases a with
  | create now request =>
    rcases create_step s now request with h | ⟨hfresh,h⟩ <;> rw [h]
    · rfl
    · rw [attemptsOf, List.find?_append]
      cases hfind : s.uploads.find? (isUpload scope uploadId) with
      | some u => simp [attemptsOf, hfind, returnsClaimed]
      | none =>
        rw [Option.none_or, List.find?_singleton]
        simp only [attemptsOf, hfind, returnsClaimed]
        split <;> rfl
  | record now nowUtc scope' uploadId' record =>
    rcases record_step s now nowUtc scope' uploadId' record with h | h <;> rw [h]
    · rfl
    · exact attemptsOf_kept rfl fun _ => ⟨rfl,rfl,rfl⟩
  | claim now scope' uploadId' owner => exact claim_attempts now scope' uploadId' owner
  | accept now scope' uploadId' accept =>
    rw [accept_step]
    split
    · exact attemptsOf_kept rfl fun _ => ⟨rfl,rfl,rfl⟩
    · rfl
  | reject now scope' uploadId' owner reason =>
    rw [reject_step]
    split
    · exact attemptsOf_kept rfl fun _ => ⟨rfl,rfl,rfl⟩
    · rfl

end Attempts

theorem run_attempts (scope : Scope) (uploadId : UploadId) (as : List Action) (s : Store) :
    attemptsOf (run step s as) scope uploadId =
      attemptsOf s scope uploadId+claims scope uploadId s as := by
  induction as generalizing s with
  | nil => rfl
  | cons a as ih =>
    rw [run_cons, ih, step_attempts, claims, Nat.add_assoc]

theorem attemptsOf_mem {s : Store} (h : Sound s) {u : UploadRow} (hu : u ∈ s.uploads) :
    attemptsOf s u.scope u.uploadId = u.inspectionAttempts := by
  have hkey : isUpload u.scope u.uploadId u = true := (isUpload_iff _ _ _).mpr ⟨rfl,rfl⟩
  have hfind : s.uploads.find? (isUpload u.scope u.uploadId) = some u := by
    apply Table.find?_eq_of_unique hu hkey
    intro x hx hxkey
    exact Table.eq_of_key h.keys hx hu ((isUpload_iff _ _ _).mp hxkey).2
  rw [attemptsOf, hfind, Option.elim_some]

/-! ## What ends an inspection -/

/-- An accepted or rejected row is not written again. -/
theorem effect_terminal {s s' : Store} {a : Action} (heffect : UploadEffect s a s') {u : UploadRow}
    (hu : u ∈ s.uploads) (hterminal : terminal u.status = true) : u ∈ s'.uploads := by
  cases heffect with
  | kept hrows houtbox => exact hrows ▸ hu
  | created now request hfresh hrows houtbox =>
    rw [hrows]
    exact List.mem_append_left _ hu
  | changed x p f types hx hp hchange hkey hrows houtbox =>
    rw [hrows]
    apply Table.mem_update_kept hu
    by_contra hcontra
    rw [Bool.not_eq_false, hp u hu] at hcontra
    have hopen := (change_status hchange).1
    rw [← hcontra, hterminal] at hopen
    cases hopen

theorem run_terminal {s : Store} (h : Sound s) {u : UploadRow} (hu : u ∈ s.uploads)
    (hterminal : terminal u.status = true) (as : List Action) : u ∈ (run step s as).uploads := by
  induction as generalizing s with
  | nil => exact hu
  | cons a as ih => exact ih (step_sound s a h) (effect_terminal (step_effect h.keys a) hu hterminal)

theorem leaseActive_iff {now : ℤ} {u : UploadRow} : leaseActive now u = true ↔
    ∃ expiresAt, u.inspectionLeaseExpiresAt = some expiresAt ∧ now < expiresAt := by
  cases h : u.inspectionLeaseExpiresAt <;> simp [leaseActive, h]

/-- The actions which end the inspection of a row in this status. -/
def EndedBy (a : Action) (u u' : UploadRow) : Prop :=
  (u'.status = .accepted → ∃ now accept, a = .accept now u.scope u.uploadId accept ∧
    HoldsLease now accept.inspectionLeaseOwner u) ∧
  (u'.status = .rejected → (∃ now owner reason, a = .reject now u.scope u.uploadId owner reason ∧
      HoldsLease now owner u) ∨
    ∃ now owner, a = .claim now u.scope u.uploadId owner ∧ leaseActive now u = false ∧
      u.inspectionAttempts = 10 ∧ u'.rejectionReason = some .inspectionAttemptsExhausted)

theorem change_endedBy {events : UploadEventType → ℕ} {u u' : UploadRow} {a : Action}
    {types : List UploadEventType} (h : RowOk events u) (hchange : UploadChange u a u' types) :
    EndedBy a u u' := by
  cases hchange with
  | recorded now nowUtc record hrecordable =>
    constructor <;> intro hstatus <;> cases hstatus
  | claimed now owner hclaimed =>
    constructor <;> intro hstatus <;> cases hstatus
  | renewed now owner hexisting =>
    have hinspecting := ((claimOutcome_spec now owner u).2.1 hexisting).1
    constructor
    · intro hstatus
      rw [show (renewInspection now u).status = u.status from rfl, hinspecting] at hstatus
      cases hstatus
    · intro hstatus
      rw [show (renewInspection now u).status = u.status from rfl, hinspecting] at hstatus
      cases hstatus
  | exhausted now owner hexhausted =>
    obtain ⟨_,hexpired,hspent⟩ := (claimOutcome_spec now owner u).2.2 hexhausted
    constructor
    · intro hstatus
      cases hstatus
    · intro _
      exact Or.inr ⟨now,owner,rfl,hexpired,Nat.le_antisymm h.attempts hspent,rfl⟩
  | accepted now accept hacceptable =>
    simp only [acceptable, Bool.and_eq_true, beq_iff_eq] at hacceptable
    constructor
    · intro _
      exact ⟨now,accept,rfl,hacceptable.1.2,leaseActive_iff.mp hacceptable.2⟩
    · intro hstatus
      cases hstatus
  | rejected now owner reason hrejectable =>
    simp only [rejectable, Bool.and_eq_true, beq_iff_eq] at hrejectable
    constructor
    · intro hstatus
      cases hstatus
    · intro _
      exact Or.inl ⟨now,owner,reason,rfl,hrejectable.1.2,leaseActive_iff.mp hrejectable.2⟩

/-- A row of the next state was there, is a fresh reservation, or is a changed row. -/
theorem step_row {s : Store} (h : Sound s) (a : Action) {u' : UploadRow}
    (hu' : u' ∈ (step s a).uploads) : u' ∈ s.uploads ∨
      (∃ now request, (∀ u ∈ s.uploads, u.uploadId ≠ request.uploadId) ∧
        u' = CreateUpload.row request now) ∨
      ∃ u ∈ s.uploads, ∃ types, UploadChange u a u' types := by
  have heffect := step_effect h.keys a
  cases heffect with
  | kept hrows houtbox => exact Or.inl (hrows ▸ hu')
  | created now request hfresh hrows houtbox =>
    rw [hrows] at hu'
    rcases List.mem_append.mp hu' with hm | hm
    · exact Or.inl hm
    · exact Or.inr (Or.inl ⟨now,request,hfresh,List.mem_singleton.mp hm⟩)
  | changed x p f types hx hp hchange hkey hrows houtbox =>
    rw [hrows] at hu'
    rcases Table.mem_update_cases hu' with ⟨hm,_⟩ | ⟨y,hy,hpy,rfl⟩
    · exact Or.inl hm
    · rw [(hp y hy).mp hpy]
      exact Or.inr (Or.inr ⟨x,hx,types,hchange⟩)

/-- Every row is in the next state, as it was or changed. -/
theorem step_keeps {s : Store} (h : Sound s) (a : Action) {u : UploadRow} (hu : u ∈ s.uploads) :
    ∃ u' ∈ (step s a).uploads, u' = u ∨ ∃ types, UploadChange u a u' types := by
  have heffect := step_effect h.keys a
  cases heffect with
  | kept hrows houtbox => exact ⟨u,hrows ▸ hu,Or.inl rfl⟩
  | created now request hfresh hrows houtbox =>
    exact ⟨u,hrows ▸ List.mem_append_left _ hu,Or.inl rfl⟩
  | changed x p f types hx hp hchange hkey hrows houtbox =>
    rw [hrows]
    by_cases hsame : u = x
    · rw [hsame]
      exact ⟨f x,Table.mem_update_changed hx ((hp x hx).mpr rfl),Or.inr ⟨types,hchange⟩⟩
    · have hkept : p u = false := by
        by_contra hcontra
        rw [Bool.not_eq_false, hp u hu] at hcontra
        exact hsame hcontra
      exact ⟨u,Table.mem_update_kept hu hkept,Or.inl rfl⟩

theorem step_endedBy {s : Store} (h : Sound s) (a : Action) {u u' : UploadRow} (hu : u ∈ s.uploads)
    (hu' : u' ∈ (step s a).uploads) (hid : u'.uploadId = u.uploadId) :
    u' = u ∨ EndedBy a u u' := by
  rcases step_row h a hu' with hm | ⟨now,request,hfresh,rfl⟩ | ⟨x,hx,types,hchange⟩
  · exact Or.inl (Table.eq_of_key h.keys hm hu hid)
  · exact absurd hid.symm (hfresh u hu)
  · have heq : x = u := Table.eq_of_key h.keys hx hu ((change_status hchange).2.1.symm.trans hid)
    rw [heq] at hchange
    exact Or.inr (change_endedBy (h.rows u hu) hchange)

/-- What a run from the empty store says about an upload. -/
structure Governed (as : List Action) (u : UploadRow) : Prop where
  bounded : u.inspectionAttempts ≤ 10
  claimed : u.inspectionAttempts = claims u.scope u.uploadId empty as
  lease : leaseShape u = true
  received : eventsOf (run step empty as) u .received = if wasUploaded u.status then 1 else 0
  accepted : eventsOf (run step empty as) u .accepted = if u.status = .accepted then 1 else 0
  rejected : eventsOf (run step empty as) u .rejected = if u.status = .rejected then 1 else 0
  uploaded : wasUploaded u.status = true ↔ ∃ v, u.verified = some v
  verified : ∀ v, u.verified = some v → v.verifiedDigest = u.expectedDigest ∧
    v.verifiedContentLength = u.expectedContentLength
  absorbing : terminal u.status = true → ∀ more, u ∈ (run step empty (as++more)).uploads ∧
    ∀ u' ∈ (run step empty (as++more)).uploads, u'.uploadId = u.uploadId → u' = u
  authorized : ∀ a, ∀ u' ∈ (step (run step empty as) a).uploads, u'.uploadId = u.uploadId →
    u' = u ∨ EndedBy a u u'

/-- The state machine of every upload, in every state which the store reaches. -/
theorem run_uploads (as : List Action) (u : UploadRow) (hu : u ∈ (run step empty as).uploads) :
    Governed as u := by
  have h : Sound (run step empty as) := run_sound sound_empty as
  have hrow := h.rows u hu
  have hattempts := run_attempts u.scope u.uploadId as empty
  have hempty : attemptsOf empty u.scope u.uploadId = 0 := rfl
  rw [attemptsOf_mem h hu, hempty, Nat.zero_add] at hattempts
  refine ⟨hrow.attempts,hattempts,hrow.shape,hrow.received,hrow.accepted,hrow.rejected,?_,
    hrow.verified,?_,?_⟩
  · rw [← hrow.uploaded, Option.isSome_iff_exists]
  · intro hterminal more
    have hkept := run_terminal h hu hterminal more
    have hkeys := (run_sound h more).keys
    rw [run_append]
    exact ⟨hkept,fun u' hu' hid => Table.eq_of_key hkeys hu' hkept hid⟩
  · intro a u' hu' hid
    exact step_endedBy h a hu hu' hid

/-- A worker takes the inspection over when the lease of another has expired, and
the first one comes too late. -/
def takenOverRun : List Action :=
  [.create 0 (reservation default default),.record 1 1 default default received,
    .claim 2 default default "worker-a",.claim 3 default default "worker",
    .claim (2+fiveMinutes) default default "worker",
    .reject (3+fiveMinutes) default default "worker-a" .malwareDetected,
    .accept (4+fiveMinutes) default default promoted]

def takenOverUpload : UploadRow :=
  { (reservation default default).row 0 with
    status := .accepted
    verified := some (received.verified 1)
    source := some promoted.source
    acceptedAt := some (4+fiveMinutes)
    inspectionAttempts := 2 }

theorem taken_over_upload : Governed takenOverRun takenOverUpload :=
  run_uploads takenOverRun takenOverUpload (by decide +kernel)

end DocumentIntelligence.UploadLifecycle
