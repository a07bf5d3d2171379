import DocumentIntelligence.Jobs

/-!
# The job outbox

Deliveries are leased to an owner for five minutes. A claim first dead-letters
the exhausted events of its scope whose lease has expired, then leases claimable
events in insertion order: a live lease of the same owner is renewed without an
attempt, any other claim counts one. Claims and publications which leave no
deliverable event recompute the scope's dispatch flag.
-/

set_option autoImplicit false

namespace DocumentIntelligence.Outbox
open Identifiers hiding Error
open WorkScopes Schema Uploads Jobs

def maximumDeliveryAttempts : ℕ := 20

/-- The two families of events, each delivered by its own relay. -/
inductive Channel where
  | job
  | webhook
  deriving DecidableEq, Repr

def channel : EventType → Channel
  | .accepted | .cancellationRequested => .job
  | .completed | .partialResult | .reviewRequired => .webhook

/-- Neither published nor dead-lettered. -/
def outstanding (row : OutboxRow) : Bool := row.publishedAt.isNone && row.deadLetteredAt.isNone

/-- The lease is held at this instant. -/
def leaseLive (now : ℤ) (row : OutboxRow) : Bool :=
  row.deliveryLeaseExpiresAt.elim false (decide <| now < ·)

/-- The lease has an expiry which has passed. -/
def leaseExpired (now : ℤ) (row : OutboxRow) : Bool :=
  row.deliveryLeaseExpiresAt.elim false (decide <| · ≤ now)

/-- The condition under which a recomputation keeps the dispatch flag. -/
def deliverable (row : OutboxRow) : Bool :=
  channel row.eventType == .job && outstanding row && decide (row.deliveryAttempts < maximumDeliveryAttempts)

def exhausted (now : ℤ) (row : OutboxRow) : Bool :=
  outstanding row && row.deliveryAttempts == maximumDeliveryAttempts && leaseExpired now row

def deadLetter (now : ℤ) (row : OutboxRow) : OutboxRow :=
  { row with
    deadLetteredAt := some now
    deliveryLeaseOwner := none
    deliveryLeaseExpiresAt := none }

def claimable (now : ℤ) (owner : String) (c : Channel) (row : OutboxRow) : Bool :=
  channel row.eventType == c && outstanding row &&
    decide (row.deliveryAttempts < maximumDeliveryAttempts) &&
    (row.deliveryLeaseOwner == some owner || row.deliveryLeaseExpiresAt.isNone ||
      leaseExpired now row)

/-- The claim of a live lease by its own owner. -/
def renews (now : ℤ) (owner : String) (row : OutboxRow) : Bool :=
  row.deliveryLeaseOwner == some owner && leaseLive now row

def lease (now : ℤ) (owner : String) (row : OutboxRow) : OutboxRow :=
  { row with
    deliveryAttempts := if renews now owner row then row.deliveryAttempts else row.deliveryAttempts+1
    deliveryLeaseOwner := some owner
    deliveryLeaseExpiresAt := some (now+fiveMinutes) }

def publishable (now : ℤ) (owner : String) (eventId : ℕ) (row : OutboxRow) : Bool :=
  row.eventId == eventId && outstanding row && row.deliveryLeaseOwner == some owner && leaseLive now row

def publish (now : ℤ) (row : OutboxRow) : OutboxRow :=
  { row with
    publishedAt := some now
    deliveryLeaseOwner := none
    deliveryLeaseExpiresAt := none }

structure ClaimJobOutbox where
  leaseOwner : String
  limit : ℕ
  deriving DecidableEq, Repr

inductive JobOutboxEventType where
  | accepted
  | cancellationRequested
  deriving DecidableEq, Repr

def jobOutboxEventType : EventType → Option JobOutboxEventType
  | .accepted => some .accepted
  | .cancellationRequested => some .cancellationRequested
  | _ => none

structure StoredJobOutboxEvent where
  eventId : ℕ
  jobId : JobId
  eventType : JobOutboxEventType
  pageCount : ℕ
  deriving DecidableEq, Repr

structure StoredWebhookOutboxEvent where
  eventId : ℕ
  jobId : JobId
  eventType : EventType
  webhookSubscriptionId : WebhookSubscriptionId
  documentVersion : DocumentVersion
  occurredAt : ℤ
  deriving DecidableEq, Repr

inductive PublishJobOutboxOutcome where
  | published
  | existing
  | leaseLost
  | notFound
  deriving DecidableEq, Repr

/-- The first statement of both claims. It covers the events of both channels. -/
def deadLetterExhausted (s : Store) (now : ℤ) (scope : Scope) : Store :=
  { s with
    outbox := Table.update (fun row => row.scope == scope && exhausted now row) (deadLetter now)
      s.outbox }

/-- The events which a claim leases, in insertion order. -/
def candidates (s : Store) (now : ℤ) (scope : Scope) (c : Channel) (claim : ClaimJobOutbox) :
    List OutboxRow :=
  (s.outbox.filter fun row => row.scope == scope && claimable now claim.leaseOwner c row).take
    claim.limit

def leaseCandidates (s : Store) (now : ℤ) (owner : String) (rows : List OutboxRow) : Store :=
  { s with
    outbox := Table.update (fun row => (rows.map (·.eventId)).contains row.eventId) (lease now owner)
      s.outbox }

/-- The two row updates of a claim. -/
def claimRows (s : Store) (now : ℤ) (scope : Scope) (c : Channel) (claim : ClaimJobOutbox) : Store :=
  let s := deadLetterExhausted s now scope
  leaseCandidates s now claim.leaseOwner (candidates s now scope c claim)

/-- `exists (select …)` over the deliverable events of the scope. -/
def dispatchPending (s : Store) (scope : Scope) : Bool :=
  s.outbox.any fun row => row.scope == scope && deliverable row

def recomputeDispatch (s : Store) (now : ℤ) (scope : Scope) : Store :=
  { s with
    workScopes := setWorkScopePending now scope .dispatch (dispatchPending s scope) s.workScopes }

/-- The upload columns which the join of a job event reads: its page count may
be null, which the decoding of the row refuses. -/
def joinPageCount (s : Store) (row : OutboxRow) : Option (Option ℤ) := do
  let job ← s.jobs.find? (isJob row.scope row.jobId)
  let upload ← s.uploads.find? (isUpload row.scope job.uploadId)
  return upload.source.map (·.parserInspection.pageCount)

def storedJobOutboxEvent (row : OutboxRow) (pageCount : Option ℤ) :
    Except Error StoredJobOutboxEvent :=
  match jobOutboxEventType row.eventType, pageCount with
  | none, _ => .error .invalidOutboxEvent
  | some _, none => .error .database
  | some eventType, some pageCount =>
    if 1 ≤ pageCount ∧ pageCount ≤ PageCheckpoint.maximumPageCount then
      .ok ⟨row.eventId,row.jobId,eventType,pageCount.toNat⟩
    else .error .invalidOutboxEvent

/-- The returned events stand in insertion order; the order which the database
returns them in is not specified and nothing may depend on it. -/
def claimJobOutbox (s : Store) (now : ℤ) (scope : Scope) (claim : ClaimJobOutbox) :
    Transaction (List StoredJobOutboxEvent) :=
  if !isValidLeaseOwner claim.leaseOwner then .error .invalidStoredUpload
  else if claim.limit < 1 ∨ 100 < claim.limit then .error .invalidOutboxEvent
  else
    let claimed := candidates (deadLetterExhausted s now scope) now scope .job claim
    let s := claimRows s now scope .job claim
    let rows := claimed.filterMap fun row => (joinPageCount s row).map (row,·)
    let s := if rows.isEmpty then recomputeDispatch s now scope else s
    (rows.mapM fun (row,pageCount) => storedJobOutboxEvent row pageCount).map fun events =>
      (events, s)

/-- Events of jobs without a subscription or a result drop out of the join. -/
def joinWebhook (s : Store) (row : OutboxRow) : Option StoredWebhookOutboxEvent := do
  let job ← s.jobs.find? (isJob row.scope row.jobId)
  let result ← s.results.find? (isResult row.scope row.jobId)
  let subscription ← job.webhookSubscriptionId
  return ⟨row.eventId,row.jobId,row.eventType,subscription,result.locator.documentVersion,
    row.createdAt⟩

def claimWebhookOutbox (s : Store) (now : ℤ) (scope : Scope) (claim : ClaimJobOutbox) :
    Transaction (List StoredWebhookOutboxEvent) :=
  if !isValidLeaseOwner claim.leaseOwner then .error .invalidStoredUpload
  else if claim.limit < 1 ∨ 100 < claim.limit then .error .invalidOutboxEvent
  else
    let claimed := candidates (deadLetterExhausted s now scope) now scope .webhook claim
    let s := claimRows s now scope .webhook claim
    .ok (claimed.filterMap (joinWebhook s), s)

/-- Publication of the one row which the statement matches. -/
def publishRow (s : Store) (now : ℤ) (scope : Scope) (eventId : ℕ) (owner : String) : Store :=
  recomputeDispatch { s with
    outbox := Table.update (fun row => row.scope == scope && publishable now owner eventId row)
      (publish now) s.outbox } now scope

def isEvent (scope : Scope) (eventId : ℕ) (row : OutboxRow) : Bool :=
  row.scope == scope && row.eventId == eventId

/-- Identities are positive, so zero stands for every argument below them. -/
def publishJobOutbox (s : Store) (now : ℤ) (scope : Scope) (eventId : ℕ) (leaseOwner : String) :
    Transaction PublishJobOutboxOutcome :=
  if !isValidLeaseOwner leaseOwner then .error .invalidStoredUpload
  else if eventId = 0 then .error .invalidOutboxEvent
  else if s.outbox.any fun row => row.scope == scope && publishable now leaseOwner eventId row then
    .ok (.published, publishRow s now scope eventId leaseOwner)
  else match s.outbox.find? (isEvent scope eventId) with
    | some row => .ok (if row.publishedAt.isSome then .existing else .leaseLost, s)
    | none => .ok (.notFound, s)

theorem deadLetterExhausted_ids (s : Store) (now : ℤ) (scope : Scope) :
    (deadLetterExhausted s now scope).outbox.map (·.eventId) = s.outbox.map (·.eventId) := by
  apply Table.map_update OutboxRow.eventId
  exact fun _ => rfl

theorem claimRows_ids (s : Store) (now : ℤ) (scope : Scope) (c : Channel) (claim : ClaimJobOutbox) :
    (claimRows s now scope c claim).outbox.map (·.eventId) = s.outbox.map (·.eventId) := by
  rw [← deadLetterExhausted_ids s now scope]
  apply Table.map_update OutboxRow.eventId
  exact fun _ => rfl

/-- A claim hands out rows of the store as they stood before it. -/
theorem candidates_mem {s : Store} {now : ℤ} {scope : Scope} {c : Channel} {claim : ClaimJobOutbox}
    {row : OutboxRow}
    (h : row ∈ candidates (deadLetterExhausted s now scope) now scope c claim) :
    row ∈ s.outbox ∧ row.scope = scope ∧ claimable now claim.leaseOwner c row = true := by
  obtain ⟨hm,hp⟩ := List.mem_filter.mp (List.mem_of_mem_take h)
  simp only [Bool.and_eq_true, beq_iff_eq] at hp
  rcases Table.mem_update_cases hm with ⟨hrow,_⟩ | ⟨x,_,_,rfl⟩
  · exact ⟨hrow,hp.1,hp.2⟩
  · simp [claimable, outstanding, deadLetter] at hp

theorem jobOutboxEventType_of_channel {eventType : EventType} (h : channel eventType = .job) :
    ∃ t, jobOutboxEventType eventType = some t := by
  cases eventType with
  | accepted => exact ⟨.accepted,rfl⟩
  | cancellationRequested => exact ⟨.cancellationRequested,rfl⟩
  | _ => cases h

/-- A job event decodes with any page count of the admitted range. -/
theorem storedJobOutboxEvent_ok {row : OutboxRow} {t : JobOutboxEventType}
    (ht : jobOutboxEventType row.eventType = some t) {pageCount : ℤ}
    (h : 1 ≤ pageCount ∧ pageCount ≤ PageCheckpoint.maximumPageCount) :
    storedJobOutboxEvent row (some pageCount) =
      .ok ⟨row.eventId,row.jobId,t,pageCount.toNat⟩ := by
  simp only [storedJobOutboxEvent, ht, if_pos h]

theorem claimable_not_exhausted {now : ℤ} {owner : String} {c : Channel} {row : OutboxRow}
    (h : claimable now owner c row = true) : exhausted now row = false := by
  simp only [claimable, Bool.and_eq_true, decide_eq_true_eq] at h
  simp only [exhausted, Bool.and_eq_false_imp, Bool.and_eq_true, beq_iff_eq]
  omega

/-- What a claim does to a row: it is kept, dead-lettered or leased, and the
leased rows are the rows handed out. -/
theorem claimRows_cases {s : Store} (hkeys : (s.outbox.map (·.eventId)).Nodup) {now : ℤ}
    {scope : Scope} {c : Channel} {claim : ClaimJobOutbox} {row' : OutboxRow}
    (h : row' ∈ (claimRows s now scope c claim).outbox) :
    ∃ row ∈ s.outbox,
      (row' = lease now claim.leaseOwner row ∧
        row ∈ candidates (deadLetterExhausted s now scope) now scope c claim) ∨
      (row.eventId ∉ (candidates (deadLetterExhausted s now scope) now scope c claim).map
          (·.eventId) ∧
        (row' = row ∨ row' = deadLetter now row ∧ row.scope = scope ∧ exhausted now row = true)) := by
  rcases Table.mem_update_cases h with ⟨hm,hp⟩ | ⟨x,hx,hp,rfl⟩
  · rcases Table.mem_update_cases hm with ⟨hrow,_⟩ | ⟨y,hy,hexhausted,rfl⟩
    · exact ⟨row',hrow,Or.inr ⟨by simpa using hp,Or.inl rfl⟩⟩
    · simp only [Bool.and_eq_true, beq_iff_eq] at hexhausted
      exact ⟨y,hy,Or.inr ⟨by simpa [deadLetter] using hp,Or.inr ⟨rfl,hexhausted⟩⟩⟩
  · obtain ⟨y,hy,hid⟩ := List.mem_map.mp (List.contains_iff_mem.mp hp)
    have hyx : y = x := by
      have hkeys' : ((deadLetterExhausted s now scope).outbox.map (·.eventId)).Nodup := by
        rw [deadLetterExhausted_ids]
        exact hkeys
      exact Table.eq_of_key hkeys' (List.mem_of_mem_filter (List.mem_of_mem_take hy)) hx hid
    rw [hyx] at hy
    exact ⟨x,(candidates_mem hy).1,Or.inl ⟨rfl,hy⟩⟩

theorem candidates_ids_nodup {s : Store} (hkeys : (s.outbox.map (·.eventId)).Nodup) (now : ℤ)
    (scope : Scope) (c : Channel) (claim : ClaimJobOutbox) :
    ((candidates (deadLetterExhausted s now scope) now scope c claim).map (·.eventId)).Nodup := by
  have hsub : (candidates (deadLetterExhausted s now scope) now scope c claim).Sublist
      (deadLetterExhausted s now scope).outbox :=
    (List.take_sublist _ _).trans List.filter_sublist
  apply (hsub.map (·.eventId)).nodup
  rw [deadLetterExhausted_ids]
  exact hkeys

end DocumentIntelligence.Outbox
