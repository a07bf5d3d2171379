import DocumentIntelligence.CanonicalJson
import DocumentIntelligence.JobLifecycle

/-!
# Webhook events

A webhook relay hands the event of a finished job to the publisher until it is acknowledged,
so an event may be handed over many times and by several relays. Each time it is the same
event, of the result which was committed, and a job has one at most.
-/

set_option autoImplicit false

namespace DocumentIntelligence.WebhookEvents
open Identifiers hiding Error
open Schema Jobs Outbox PageWorkflowStore JobLifecycle
open OutboxExhaustion (Inv claim_cases claimWebhook_cases publish_cases)
open Commands (isJob_iff)

inductive WebhookSignError where
  | invalidEvent
  | invalidSecret
  deriving DecidableEq, Repr

structure TerminalWebhookEvent where
  eventId : String
  eventType : String
  occurredAt : ℤ
  productId : ProductId
  tenantId : TenantId
  jobId : JobId
  documentVersion : DocumentVersion
  status : JobState
  contentTrust : String
  deriving DecidableEq

/-- The types of the events of finished jobs. -/
def terminalEventType : JobState → Option String
  | .completed => some "ocr.job.completed.v1"
  | .partialResult => some "ocr.job.partial.v1"
  | .reviewRequired => some "ocr.job.review_required.v1"
  | _ => none

def TerminalWebhookEvent.new (eventId : ℕ) (occurredAt : ℤ) (productId : ProductId)
    (tenantId : TenantId) (jobId : JobId) (documentVersion : DocumentVersion)
    (status : JobState) : Except WebhookSignError TerminalWebhookEvent :=
  if eventId = 0 then .error .invalidEvent
  else match terminalEventType status with
  | none => .error .invalidEvent
  | some eventType => .ok {
      eventId := "evt_"++toString eventId
      eventType := eventType
      occurredAt := occurredAt
      productId := productId
      tenantId := tenantId
      jobId := jobId
      documentVersion := documentVersion
      status := status
      contentTrust := "untrusted" }

/-- The status which the relay reads off the type of an event; the claim decodes no other
type. -/
def statusOfEvent : EventType → Option JobState
  | .completed => some .completed
  | .partialResult => some .partialResult
  | .reviewRequired => some .reviewRequired
  | .accepted | .cancellationRequested => none

def terminalWebhookEvent (scope : Scope) (stored : StoredWebhookOutboxEvent) :
    Except WebhookSignError TerminalWebhookEvent :=
  match statusOfEvent stored.eventType with
  | none => .error .invalidEvent
  | some status => TerminalWebhookEvent.new stored.eventId stored.occurredAt scope.productId
    scope.tenantId stored.jobId stored.documentVersion status

/-! ### The relays -/

/-- A call of `relay_scope` with the events which are left to it, and the one which the
publisher has acknowledged. -/
structure Relay where
  scope : Scope
  owner : String
  events : List StoredWebhookOutboxEvent
  acknowledged : Option ℕ

/-- The store, the calls under way, and what has been handed to the publisher. -/
structure World where
  store : Store
  relays : ℕ → Option Relay
  handed : List (WebhookSubscriptionId × TerminalWebhookEvent)

inductive Action where
  | other (a : OutboxExhaustion.Action)
  | claim (i : ℕ) (now : ℤ) (scope : Scope) (claim : ClaimJobOutbox)
  | hand (i eventId : ℕ) (acknowledges : Bool)
  | publish (i : ℕ) (now : ℤ)
  | crash (i : ℕ)

def World.setRelay (w : World) (i : ℕ) (relay : Option Relay) : World :=
  { w with relays := Function.update w.relays i relay }

def claim (w : World) (i : ℕ) (now : ℤ) (scope : Scope) (request : ClaimJobOutbox) : World :=
  if (w.relays i).isSome then w
  else match claimWebhookOutbox w.store now scope request with
  | .error _ => w
  | .ok (events,s) =>
    let w := { w with store := s }
    if events.isEmpty then w else w.setRelay i (some ⟨scope,request.leaseOwner,events,none⟩)

/-- The publisher is given the event, whether it acknowledges it or not. The order of the
events of a batch is that of the database. -/
def hand (w : World) (i eventId : ℕ) (acknowledges : Bool) : World :=
  match w.relays i with
  | none => w
  | some relay => match relay.acknowledged with
    | some _ => w
    | none => match relay.events.find? (·.eventId == eventId) with
      | none => w
      | some stored => match terminalWebhookEvent relay.scope stored with
        | .error _ => w.setRelay i none
        | .ok event =>
          let w := { w with handed := (stored.webhookSubscriptionId,event)::w.handed }
          w.setRelay i
            (if acknowledges then some { relay with acknowledged := some eventId } else none)

def publish (w : World) (i : ℕ) (now : ℤ) : World :=
  match w.relays i with
  | none => w
  | some relay => match relay.acknowledged with
    | none => w
    | some eventId => match publishJobOutbox w.store now relay.scope eventId relay.owner with
      | .error _ => w.setRelay i none
      | .ok (.published,s) | .ok (.existing,s) =>
        { w with store := s }.setRelay i (some { relay with
          events := relay.events.filter (·.eventId != eventId)
          acknowledged := none })
      | .ok (.leaseLost,s) | .ok (.notFound,s) => { w with store := s }.setRelay i none

def step (w : World) : Action → World
  | .other a => { w with store := OutboxExhaustion.step w.store a }
  | .claim i now scope request => claim w i now scope request
  | .hand i eventId acknowledges => hand w i eventId acknowledges
  | .publish i now => publish w i now
  | .crash i => w.setRelay i none

def initial : World := ⟨empty,fun _ => none,[]⟩

/-! ### What an event says about the store -/

/-- The columns of an event which its deliveries leave alone. -/
def columns (row : OutboxRow) : ℕ × Scope × JobId × EventType × ℤ :=
  (row.eventId,row.scope,row.jobId,row.eventType,row.createdAt)

/-- The event is in the outbox, and its job is finished with that result. -/
structure Announced (s : Store) (scope : Scope) (e : StoredWebhookOutboxEvent) : Prop where
  row : (e.eventId,scope,e.jobId,e.eventType,e.occurredAt) ∈ s.outbox.map columns
  job : ∃ job ∈ s.jobs, job.jobId = e.jobId ∧ job.scope = scope ∧
    terminalEvent job.status = some e.eventType ∧
    job.webhookSubscriptionId = some e.webhookSubscriptionId
  result : ∃ r ∈ s.results, r.jobId = e.jobId ∧ r.scope = scope ∧
    r.locator.documentVersion = e.documentVersion

/-- Events are numbered from one, and those of finished jobs name the status. -/
structure Matching (s : Store) : Prop where
  next : 0 < s.nextEventId
  numbered : ∀ row ∈ s.outbox, 0 < row.eventId
  finished : ∀ row ∈ s.outbox, stage row.eventType = .finished →
    ∃ job ∈ s.jobs, isJob row.scope row.jobId job = true ∧
      terminalEvent job.status = some row.eventType

structure StoreInv (s : Store) : Prop where
  inv : Inv s
  lifecycle : Lifecycle s
  matching : Matching s

/-- A job which has ended keeps its row. -/
theorem effect_settled {s s' : Store} {now : ℤ} (h : Lifecycle s) (he : JobEffect s now s')
    {job : JobRow} (hjob : job ∈ s.jobs) (hsettled : settled job.status = true) :
    job ∈ s'.jobs := by
  have hother : ∀ active ∈ s.jobs, settled active.status = false →
      isJob active.scope active.jobId job = false := by
    intro active hactive hopen
    by_contra hsame
    have hkey := (isJob_iff _ _ _).mp (Bool.eq_true_of_not_eq_false hsame)
    rw [Table.eq_of_key h.jobKeys hjob hactive hkey.2,hopen] at hsettled
    cases hsettled
  cases he with
  | kept hjobs _ _ => exact hjobs ▸ hjob
  | created new _ _ hjobs _ _ =>
    rw [hjobs]
    exact List.mem_append_left _ hjob
  | started scope jobId hjobs _ _ =>
    rw [hjobs]
    refine Table.mem_update_kept hjob ?_
    have hstartable : startable job.status = false := by
      by_contra hs
      have hopen := startable_unsettled (Bool.eq_true_of_not_eq_false hs)
      simp_all
    rw [hstartable,Bool.and_false]
  | cancelled active hactive hcancellable hjobs _ _ =>
    rw [hjobs]
    refine Table.mem_update_kept hjob (hother active hactive ?_)
    have hopen := cancellable_unsettled hcancellable
    simp_all
  | cancellationCompleted active hactive hcancelling hjobs _ _ =>
    rw [hjobs]
    refine Table.mem_update_kept hjob (hother active hactive ?_)
    rw [hcancelling]
    rfl
  | committed active command eventType hactive hstatus _ _ _ hjobs _ _ =>
    rw [hjobs]
    refine Table.mem_update_kept hjob (hother active hactive ?_)
    rcases hstatus with hstatus | hstatus <;> rw [hstatus] <;> rfl

theorem columns_inj {row row' : OutboxRow} (h : columns row = columns row') :
    row.eventId = row'.eventId ∧ row.scope = row'.scope ∧ row.jobId = row'.jobId ∧
      row.eventType = row'.eventType ∧ row.createdAt = row'.createdAt := by
  simpa [columns] using h

theorem update_columns {p : OutboxRow → Bool} {f : OutboxRow → OutboxRow}
    (hf : ∀ row, columns (f row) = columns row) (rows : List OutboxRow) :
    (Table.update p f rows).map columns = rows.map columns :=
  Table.map_update columns hf rows

theorem claimRows_columns (s : Store) (now : ℤ) (scope : Scope) (c : Channel)
    (request : ClaimJobOutbox) :
    (claimRows s now scope c request).outbox.map columns = s.outbox.map columns := by
  have hdead : (deadLetterExhausted s now scope).outbox.map columns = s.outbox.map columns :=
    update_columns (f := deadLetter now) (fun _ => rfl) s.outbox
  rw [← hdead]
  exact update_columns (f := lease now request.leaseOwner) (fun _ => rfl) _

/-- Deliveries leave the jobs alone, and keep the columns of the events. -/
theorem delivery_frame {s : Store} (hi : Inv s) {a : OutboxExhaustion.Action}
    (hdelivery : ∀ now c, a ≠ .command now c) :
    (OutboxExhaustion.step s a).outbox.map columns = s.outbox.map columns ∧
      (OutboxExhaustion.step s a).nextEventId = s.nextEventId ∧
      (OutboxExhaustion.step s a).jobs = s.jobs := by
  cases a with
  | command now c => exact absurd rfl (hdelivery now c)
  | claim now scope request =>
    rcases claim_cases hi.sourced now scope request with ⟨_,heq | heq⟩ | ⟨_,_,heq⟩ <;> rw [heq]
    · exact ⟨rfl,rfl,rfl⟩
    · exact ⟨claimRows_columns s now scope .job request,rfl,rfl⟩
    · exact ⟨claimRows_columns s now scope .job request,rfl,rfl⟩
  | claimWebhook now scope request =>
    rcases claimWebhook_cases s now scope request with heq | heq <;> rw [heq]
    · exact ⟨rfl,rfl,rfl⟩
    · exact ⟨claimRows_columns s now scope .webhook request,rfl,rfl⟩
  | publish now scope eventId owner =>
    rcases publish_cases s now scope eventId owner with ⟨_,heq⟩ | ⟨_,heq⟩ <;> rw [heq]
    · exact ⟨rfl,rfl,rfl⟩
    · exact ⟨update_columns (f := Outbox.publish now) (fun _ => rfl) s.outbox,rfl,rfl⟩

/-- A transaction keeps the columns of the events, and may add one event. -/
theorem step_events {s : Store} (hi : Inv s) (a : OutboxExhaustion.Action) :
    ((OutboxExhaustion.step s a).outbox.map columns = s.outbox.map columns ∧
        (OutboxExhaustion.step s a).nextEventId = s.nextEventId) ∨
      ∃ now scope jobId eventType, (OutboxExhaustion.step s a).outbox =
          s.outbox++[newEvent s.nextEventId now scope jobId eventType] ∧
        (OutboxExhaustion.step s a).nextEventId = s.nextEventId+1 := by
  by_cases hcommand : ∃ now c, a = .command now c
  · obtain ⟨now,c,rfl⟩ := hcommand
    rcases Commands.execute_outbox s now c with
      ⟨houtbox,hnext,_⟩ | ⟨scope,jobId,eventType,houtbox,hnext,_⟩
    · exact Or.inl ⟨congrArg (List.map columns) houtbox,hnext⟩
    · exact Or.inr ⟨now,scope,jobId,eventType,houtbox,hnext⟩
  · obtain ⟨houtbox,hnext,_⟩ := delivery_frame hi fun now c heq => hcommand ⟨now,c,heq⟩
    exact Or.inl ⟨houtbox,hnext⟩

theorem step_columns {s : Store} (hi : Inv s) (a : OutboxExhaustion.Action)
    {cs : ℕ × Scope × JobId × EventType × ℤ} (h : cs ∈ s.outbox.map columns) :
    cs ∈ (OutboxExhaustion.step s a).outbox.map columns := by
  rcases step_events hi a with ⟨hsame,_⟩ | ⟨now,scope,jobId,eventType,hadded,_⟩
  · rwa [hsame]
  · rw [hadded,List.map_append]
    exact List.mem_append_left _ h

theorem step_settled {s : Store} (h : StoreInv s) (a : OutboxExhaustion.Action) {job : JobRow}
    (hjob : job ∈ s.jobs) (hsettled : settled job.status = true) :
    job ∈ (OutboxExhaustion.step s a).jobs := by
  rcases step_effect h.inv a with ⟨now,he⟩ | ⟨hjobs,_⟩
  · exact effect_settled h.lifecycle he hjob hsettled
  · rwa [hjobs]

theorem settled_of_terminal {status : JobState} {eventType : EventType}
    (h : terminalEvent status = some eventType) : settled status = true := by
  rw [settled,JobLifecycle.finished,h]
  rfl

/-- What an event says about the store stays true. -/
theorem step_announced {s : Store} (h : StoreInv s) (a : OutboxExhaustion.Action) {scope : Scope}
    {e : StoredWebhookOutboxEvent} (he : Announced s scope e) :
    Announced (OutboxExhaustion.step s a) scope e where
  row := step_columns h.inv a he.row
  job := by
    obtain ⟨job,hjob,hid,hscope,hstatus,hsubscription⟩ := he.job
    exact ⟨job,step_settled h a hjob (settled_of_terminal hstatus),hid,hscope,hstatus,
      hsubscription⟩
  result := by
    obtain ⟨r,hr,hrest⟩ := he.result
    exact ⟨r,step_results h.inv a hr,hrest⟩

theorem matching_empty : Matching empty where
  next := Nat.one_pos
  numbered _ hrow := absurd hrow List.not_mem_nil
  finished _ hrow := absurd hrow List.not_mem_nil

/-- The event of a finished job which a command adds names the status of the job. -/
theorem effect_finished {s s' : Store} {now : ℤ} (h : Lifecycle s) (he : JobEffect s now s')
    (hold : ∀ row ∈ s.outbox, stage row.eventType = .finished →
      ∃ job ∈ s.jobs, isJob row.scope row.jobId job = true ∧
        terminalEvent job.status = some row.eventType) :
    ∀ row ∈ s'.outbox, stage row.eventType = .finished →
      ∃ job ∈ s'.jobs, isJob row.scope row.jobId job = true ∧
        terminalEvent job.status = some row.eventType := by
  have hkept : ∀ row ∈ s.outbox, stage row.eventType = .finished →
      ∃ job ∈ s'.jobs, isJob row.scope row.jobId job = true ∧
        terminalEvent job.status = some row.eventType := by
    intro row hrow hstage
    obtain ⟨job,hjob,hkey,hstatus⟩ := hold row hrow hstage
    exact ⟨job,effect_settled h he hjob (settled_of_terminal hstatus),hkey,hstatus⟩
  intro row hrow hstage
  cases he with
  | kept _ _ houtbox => exact hkept row (houtbox ▸ hrow) hstage
  | created job _ _ _ _ houtbox =>
    rw [houtbox] at hrow
    rcases List.mem_append.mp hrow with hrow | hrow
    · exact hkept row hrow hstage
    · rw [List.mem_singleton.mp hrow] at hstage
      cases hstage
  | started _ _ _ _ houtbox => exact hkept row (houtbox ▸ hrow) hstage
  | cancelled job _ _ _ _ houtbox =>
    rw [houtbox] at hrow
    rcases List.mem_append.mp hrow with hrow | hrow
    · exact hkept row hrow hstage
    · rw [List.mem_singleton.mp hrow] at hstage
      cases hstage
  | cancellationCompleted _ _ _ _ _ houtbox => exact hkept row (houtbox ▸ hrow) hstage
  | committed job command eventType hjob _ hevent _ _ hjobs _ houtbox =>
    rcases houtbox with houtbox | houtbox <;> rw [houtbox] at hrow
    · exact hkept row hrow hstage
    · rcases List.mem_append.mp hrow with hrow | hrow
      · exact hkept row hrow hstage
      · rw [List.mem_singleton.mp hrow]
        refine ⟨setStatus command.terminalState job,?_,?_,hevent⟩
        · rw [hjobs]
          exact Table.mem_update_changed hjob ((isJob_iff _ _ _).mpr ⟨rfl,rfl⟩)
        · exact (isJob_iff _ _ _).mpr ⟨rfl,rfl⟩

theorem step_matching {s : Store} (h : StoreInv s) (a : OutboxExhaustion.Action) :
    Matching (OutboxExhaustion.step s a) := by
  have hnumbers : 0 < (OutboxExhaustion.step s a).nextEventId ∧
      ∀ row ∈ (OutboxExhaustion.step s a).outbox, 0 < row.eventId := by
    rcases step_events h.inv a with ⟨hsame,hnext⟩ | ⟨now,scope,jobId,eventType,hadded,hnext⟩
    · rw [hnext]
      refine ⟨h.matching.next,fun row hrow => ?_⟩
      have hcolumns := List.mem_map_of_mem (f := columns) hrow
      rw [hsame] at hcolumns
      obtain ⟨old,hold,heq⟩ := List.mem_map.mp hcolumns
      rw [← (Prod.mk.inj heq).1]
      exact h.matching.numbered old hold
    · rw [hnext,hadded]
      refine ⟨Nat.succ_pos _,fun row hrow => ?_⟩
      rcases List.mem_append.mp hrow with hrow | hrow
      · exact h.matching.numbered row hrow
      · rw [List.mem_singleton.mp hrow]
        exact h.matching.next
  refine ⟨hnumbers.1,hnumbers.2,?_⟩
  by_cases hcommand : ∃ now c, a = .command now c
  · obtain ⟨now,c,rfl⟩ := hcommand
    exact effect_finished h.lifecycle (execute_effect s now c) h.matching.finished
  · obtain ⟨houtbox,_,hjobs⟩ := delivery_frame h.inv fun now c heq => hcommand ⟨now,c,heq⟩
    intro row hrow hstage
    have hcolumns := List.mem_map_of_mem (f := columns) hrow
    rw [houtbox] at hcolumns
    obtain ⟨old,hold,heq⟩ := List.mem_map.mp hcolumns
    obtain ⟨_,hscope,hid,htype,_⟩ := columns_inj heq
    rw [hjobs,← hscope,← hid,← htype]
    exact h.matching.finished old hold (by rw [htype]; exact hstage)

theorem step_storeInv {s : Store} (h : StoreInv s) (a : OutboxExhaustion.Action) :
    StoreInv (OutboxExhaustion.step s a) :=
  ⟨(step_kept ⟨h.inv,h.lifecycle⟩ a).1,(step_kept ⟨h.inv,h.lifecycle⟩ a).2,step_matching h a⟩

theorem storeInv_empty : StoreInv empty :=
  ⟨OutboxExhaustion.inv_empty,lifecycle_empty,matching_empty⟩

/-! ### What the relays hold -/

theorem stage_of_webhook {eventType : EventType} (h : channel eventType = .webhook) :
    stage eventType = .finished := by
  cases eventType <;> first | rfl | cases h

theorem stage_of_terminal {status : JobState} {eventType : EventType}
    (h : terminalEvent status = some eventType) : stage eventType = .finished := by
  cases status <;> cases h <;> rfl

/-- The events which a claim returns are announced. -/
theorem claimed_announced {s s' : Store} (h : StoreInv s) {now : ℤ} {scope : Scope}
    {request : ClaimJobOutbox} {events : List StoredWebhookOutboxEvent}
    (hclaim : claimWebhookOutbox s now scope request = .ok (events,s')) :
    StoreInv s' ∧ ∀ e ∈ events, Announced s' scope e := by
  have hs' : s' = OutboxExhaustion.step s (.claimWebhook now scope request) := by
    rw [OutboxExhaustion.step,hclaim]
    rfl
  have hinv : StoreInv s' := by
    rw [hs']
    exact step_storeInv h _
  refine ⟨hinv,?_⟩
  unfold claimWebhookOutbox at hclaim
  split at hclaim
  · cases hclaim
  split at hclaim
  · cases hclaim
  obtain ⟨rfl,hstore⟩ := Prod.mk.inj (Except.ok.inj hclaim)
  intro e he
  obtain ⟨row,hrow,hjoin⟩ := List.mem_filterMap.mp he
  obtain ⟨hold,hscope,hclaimable⟩ := candidates_mem hrow
  rw [hstore] at hjoin
  have hcolumns : columns row ∈ s'.outbox.map columns := by
    rw [hs']
    exact step_columns h.inv _ (List.mem_map_of_mem hold)
  simp only [joinWebhook,Option.bind_eq_bind,Option.bind_eq_some_iff] at hjoin
  obtain ⟨job,hjob,r,hr,subscription,hsubscription,heq⟩ := hjoin
  obtain ⟨hjobMem,hjobKey⟩ := Table.mem_of_find? hjob
  obtain ⟨hrMem,hrKey⟩ := Table.mem_of_find? hr
  obtain ⟨hjobScope,hjobId⟩ := (isJob_iff _ _ _).mp hjobKey
  obtain rfl := Option.some.inj heq
  simp only [isResult,Bool.and_eq_true,beq_iff_eq] at hrKey
  rw [hscope] at hjobScope hrKey
  refine ⟨by rw [← hscope]; exact hcolumns,
    ⟨job,hjobMem,hjobId,hjobScope,?_,hsubscription⟩,⟨r,hrMem,hrKey.2,hrKey.1,rfl⟩⟩
  -- the event names the status of its job
  obtain ⟨current,hcurrent,hsame⟩ := List.mem_map.mp hcolumns
  obtain ⟨_,_,hid,htype,_⟩ := columns_inj hsame
  obtain ⟨finished,hfinished,hkey,hstatus⟩ := hinv.matching.finished current hcurrent (by
    rw [htype]
    simp only [claimable,Bool.and_eq_true,beq_iff_eq] at hclaimable
    exact stage_of_webhook hclaimable.1.1.1)
  have hjobSame := Table.eq_of_key hinv.lifecycle.jobKeys hjobMem hfinished
    (hjobId.trans (hid.symm.trans ((isJob_iff _ _ _).mp hkey).2.symm))
  rw [hjobSame,hstatus,htype]

/-- Announced events of one job are the same event. -/
theorem announced_unique {s : Store} (h : StoreInv s) {scope scope' : Scope}
    {e e' : StoredWebhookOutboxEvent} (he : Announced s scope e) (he' : Announced s scope' e') :
    (e.jobId = e'.jobId ↔ e.eventId = e'.eventId) ∧
      (e.jobId = e'.jobId → scope = scope' ∧ e = e') := by
  obtain ⟨row,hrow,hcolumns⟩ := List.mem_map.mp he.row
  obtain ⟨row',hrow',hcolumns'⟩ := List.mem_map.mp he'.row
  simp only [columns,Prod.mk.injEq] at hcolumns hcolumns'
  obtain ⟨job,hjob,hid,hscope,hstatus,hsubscription⟩ := he.job
  obtain ⟨job',hjob',hid',hscope',hstatus',hsubscription'⟩ := he'.job
  obtain ⟨r,hr,hrid,_,hversion⟩ := he.result
  obtain ⟨r',hr',hrid',_,hversion'⟩ := he'.result
  have hsame : e.jobId = e'.jobId → row = row' := by
    intro hjobs
    have hkeys : announcement row = announcement row' → row = row' :=
      Table.eq_of_key h.lifecycle.announced hrow hrow'
    apply hkeys
    rw [announcement,announcement,hcolumns.2.2.1,hcolumns'.2.2.1,hjobs,hcolumns.2.2.2.1,
      hcolumns'.2.2.2.1,stage_of_terminal hstatus,stage_of_terminal hstatus']
  refine ⟨⟨fun hjobs => ?_,fun hevents => ?_⟩,fun hjobs => ?_⟩
  · rw [← hcolumns.1,← hcolumns'.1,hsame hjobs]
  · have hrows := Table.eq_of_key h.inv.keys hrow hrow'
      (hcolumns.1.trans (hevents.trans hcolumns'.1.symm))
    rw [← hcolumns.2.2.1,← hcolumns'.2.2.1,hrows]
  · obtain rfl := hsame hjobs
    obtain rfl := Table.eq_of_key h.lifecycle.jobKeys hjob hjob'
      (hid.trans (hjobs.trans hid'.symm))
    obtain rfl := Table.eq_of_key h.lifecycle.resultKeys hr hr'
      (hrid.trans (hjobs.trans hrid'.symm))
    refine ⟨hscope.symm.trans hscope',?_⟩
    rcases e with ⟨eventId,jobId,eventType,subscription,version,occurredAt⟩
    rcases e' with ⟨eventId',jobId',eventType',subscription',version',occurredAt'⟩
    simp only [StoredWebhookOutboxEvent.mk.injEq]
    exact ⟨hcolumns.1.symm.trans hcolumns'.1,hjobs,hcolumns.2.2.2.1.symm.trans hcolumns'.2.2.2.1,
      Option.some.inj (hsubscription.symm.trans hsubscription'),hversion.symm.trans hversion',
      hcolumns.2.2.2.2.symm.trans hcolumns'.2.2.2.2⟩

theorem terminal_status {status : JobState} {eventType : EventType}
    (h : terminalEvent status = some eventType) :
    statusOfEvent eventType = some status ∧ ∃ text, terminalEventType status = some text := by
  cases status <;> cases h <;> exact ⟨rfl,_,rfl⟩

/-- An announced event is accepted by the constructor, with the status of its job. -/
theorem announced_terminal {s : Store} (h : StoreInv s) {scope : Scope}
    {e : StoredWebhookOutboxEvent} (he : Announced s scope e) :
    ∃ job ∈ s.jobs, isJob scope e.jobId job = true ∧
      job.webhookSubscriptionId = some e.webhookSubscriptionId ∧
      ∃ text, terminalEventType job.status = some text ∧ terminalWebhookEvent scope e = .ok {
        eventId := "evt_"++toString e.eventId
        eventType := text
        occurredAt := e.occurredAt
        productId := scope.productId
        tenantId := scope.tenantId
        jobId := e.jobId
        documentVersion := e.documentVersion
        status := job.status
        contentTrust := "untrusted" } := by
  obtain ⟨row,hrow,hcolumns⟩ := List.mem_map.mp he.row
  obtain ⟨job,hjob,hid,hscope,hstatus,hsubscription⟩ := he.job
  have hpositive : e.eventId ≠ 0 := by
    have hrowPositive := h.matching.numbered row hrow
    rw [(Prod.mk.inj hcolumns).1] at hrowPositive
    omega
  obtain ⟨hmapped,text,htext⟩ := terminal_status hstatus
  refine ⟨job,hjob,(isJob_iff _ _ _).mpr ⟨hscope,hid⟩,hsubscription,text,htext,?_⟩
  rw [terminalWebhookEvent,hmapped]
  dsimp only
  rw [TerminalWebhookEvent.new,if_neg hpositive,htext]

structure WorldInv (w : World) : Prop where
  store : StoreInv w.store
  relays : ∀ i relay, w.relays i = some relay → ∀ e ∈ relay.events,
    Announced w.store relay.scope e
  handed : ∀ d ∈ w.handed, ∃ scope e, Announced w.store scope e ∧
    d.1 = e.webhookSubscriptionId ∧ terminalWebhookEvent scope e = .ok d.2

theorem initial_inv : WorldInv initial where
  store := storeInv_empty
  relays _ _ hrelay := absurd hrelay (by simp [initial])
  handed _ hd := absurd hd List.not_mem_nil

/-- A transaction of the store keeps what the relays hold. -/
theorem store_inv {w : World} (h : WorldInv w) (a : OutboxExhaustion.Action) :
    WorldInv { w with store := OutboxExhaustion.step w.store a } where
  store := step_storeInv h.store a
  relays i relay hrelay e he := step_announced h.store a (h.relays i relay hrelay e he)
  handed d hd := by
    obtain ⟨scope,e,he,hrest⟩ := h.handed d hd
    exact ⟨scope,e,step_announced h.store a he,hrest⟩

theorem setRelay_inv {w : World} (h : WorldInv w) (i : ℕ) {relay : Option Relay}
    (hrelay : ∀ r, relay = some r → ∀ e ∈ r.events, Announced w.store r.scope e) :
    WorldInv (w.setRelay i relay) where
  store := h.store
  relays k r hr := by
    simp only [World.setRelay,Function.update_apply] at hr
    split at hr
    · exact hrelay r hr
    · exact h.relays k r hr
  handed := h.handed

theorem claim_inv {w : World} (h : WorldInv w) (i : ℕ) (now : ℤ) (scope : Scope)
    (request : ClaimJobOutbox) : WorldInv (claim w i now scope request) := by
  unfold claim
  split
  · exact h
  cases hclaim : claimWebhookOutbox w.store now scope request with
  | error e => exact h
  | ok claimed =>
    obtain ⟨events,s⟩ := claimed
    have hs : s = OutboxExhaustion.step w.store (.claimWebhook now scope request) := by
      rw [OutboxExhaustion.step,hclaim]
      rfl
    have hannounced := (claimed_announced h.store hclaim).2
    have hinv := store_inv h (.claimWebhook now scope request)
    rw [← hs] at hinv
    dsimp only
    split
    · exact hinv
    · exact setRelay_inv hinv i fun r hr => by
        obtain rfl := Option.some.inj hr
        exact hannounced

theorem hand_inv {w : World} (h : WorldInv w) (i eventId : ℕ) (acknowledges : Bool) :
    WorldInv (hand w i eventId acknowledges) := by
  unfold hand
  cases hrelay : w.relays i with
  | none => exact h
  | some relay =>
    dsimp only
    cases relay.acknowledged with
    | some _ => exact h
    | none =>
      dsimp only
      cases hfind : relay.events.find? (·.eventId == eventId) with
      | none => exact h
      | some stored =>
        have he := h.relays i relay hrelay stored (List.mem_of_find?_eq_some hfind)
        dsimp only
        cases hevent : terminalWebhookEvent relay.scope stored with
        | error e => exact setRelay_inv h i nofun
        | ok event =>
          have hhanded : WorldInv
              { w with handed := (stored.webhookSubscriptionId,event)::w.handed } := by
            refine ⟨h.store,h.relays,fun d hd => ?_⟩
            rcases List.mem_cons.mp hd with rfl | hd
            · exact ⟨relay.scope,stored,he,rfl,hevent⟩
            · exact h.handed d hd
          refine setRelay_inv hhanded i fun r hr => ?_
          split at hr
          · obtain rfl := Option.some.inj hr
            exact h.relays i relay hrelay
          · cases hr

theorem publish_inv {w : World} (h : WorldInv w) (i : ℕ) (now : ℤ) :
    WorldInv (publish w i now) := by
  unfold publish
  cases hrelay : w.relays i with
  | none => exact h
  | some relay =>
    dsimp only
    cases relay.acknowledged with
    | none => exact h
    | some eventId =>
      dsimp only
      cases hpublish : publishJobOutbox w.store now relay.scope eventId relay.owner with
      | error e => exact setRelay_inv h i nofun
      | ok published =>
        obtain ⟨outcome,s⟩ := published
        have hs : s = OutboxExhaustion.step w.store
            (.publish now relay.scope eventId relay.owner) := by
          rw [OutboxExhaustion.step,hpublish]
          rfl
        have hinv := store_inv h (.publish now relay.scope eventId relay.owner)
        rw [← hs] at hinv
        have hleft : ∀ r, some { relay with
              events := relay.events.filter (·.eventId != eventId)
              acknowledged := none } = some r →
            ∀ e ∈ r.events, Announced s r.scope e := by
          intro r hr e he
          obtain rfl := Option.some.inj hr
          exact hinv.relays i relay hrelay e (List.mem_filter.mp he).1
        cases outcome with
        | published | existing => exact setRelay_inv hinv i hleft
        | leaseLost | notFound => exact setRelay_inv hinv i nofun

theorem step_inv {w : World} (h : WorldInv w) (a : Action) : WorldInv (step w a) := by
  cases a with
  | other a => exact store_inv h a
  | claim i now scope request => exact claim_inv h i now scope request
  | hand i eventId acknowledges => exact hand_inv h i eventId acknowledges
  | publish i now => exact publish_inv h i now
  | crash i => exact setRelay_inv h i nofun

/-- Over the runs of any number of relays with anything else which happens to the store,
what is handed to the publisher for a job is always the same event for the same
subscription. It names the status which the job has and the version of the result which is
found for it, and no relay ends with an event which it cannot build. -/
theorem handed_agree (as : List Action) :
    let w := Transition.run step initial as
    (∀ d ∈ w.handed,
      (∃ job ∈ w.store.jobs, ∃ locator,
        isJob ⟨d.2.productId,d.2.tenantId⟩ d.2.jobId job = true ∧ job.status = d.2.status ∧
        job.webhookSubscriptionId = some d.1 ∧
        findResult w.store ⟨d.2.productId,d.2.tenantId⟩ d.2.jobId = .ok (.ready locator) ∧
        locator.documentVersion = d.2.documentVersion) ∧
      ∀ d' ∈ w.handed, (d.2.jobId = d'.2.jobId ↔ d.2.eventId = d'.2.eventId) ∧
        (d.2.jobId = d'.2.jobId → d = d')) ∧
    ∀ i relay, w.relays i = some relay → ∀ e ∈ relay.events,
      ∃ event, terminalWebhookEvent relay.scope e = .ok event := by
  intro w
  have hinv : WorldInv w :=
    Transition.run_invariant (I := WorldInv) (fun _ a h => step_inv h a) initial_inv as
  have hlifecycle := hinv.store.lifecycle
  refine ⟨fun d hd => ⟨?_,fun d' hd' => ?_⟩,fun i relay hrelay e he => ?_⟩
  · obtain ⟨scope,e,he,hsubscription,hevent⟩ := hinv.handed d hd
    obtain ⟨job,hjob,hkey,hjobSubscription,text,_,hterminal⟩ := announced_terminal hinv.store he
    obtain ⟨r,hr,hid,hscope,hversion⟩ := he.result
    have heq := Except.ok.inj (hevent.symm.trans hterminal)
    rw [heq,hsubscription]
    refine ⟨job,hjob,r.locator,hkey,rfl,hjobSubscription,?_,hversion⟩
    rw [← hid,← hscope]
    exact findResult_ready hlifecycle hr
  · obtain ⟨scope,e,he,hsubscription,hevent⟩ := hinv.handed d hd
    obtain ⟨scope',e',he',hsubscription',hevent'⟩ := hinv.handed d' hd'
    obtain ⟨hids,hsame⟩ := announced_unique hinv.store he he'
    obtain ⟨_,_,_,_,_,_,hterminal⟩ := announced_terminal hinv.store he
    obtain ⟨_,_,_,_,_,_,hterminal'⟩ := announced_terminal hinv.store he'
    have hd2 := Except.ok.inj (hevent.symm.trans hterminal)
    have hd2' := Except.ok.inj (hevent'.symm.trans hterminal')
    constructor
    · rw [hd2,hd2']
      dsimp only
      rw [hids,String.append_right_inj]
      exact Nat.repr_inj.symm
    · intro hjobs
      have hjobIds : e.jobId = e'.jobId := by
        rw [hd2,hd2'] at hjobs
        exact hjobs
      obtain ⟨rfl,rfl⟩ := hsame hjobIds
      exact Prod.ext (hsubscription.trans hsubscription'.symm)
        (Except.ok.inj (hevent.symm.trans hevent'))
  · obtain ⟨_,_,_,_,_,_,hterminal⟩ :=
      announced_terminal hinv.store (hinv.relays i relay hrelay e he)
    exact ⟨_,hterminal⟩

/-! ### Signatures -/

section Signatures
open CanonicalJson AccessGrants
open RequestSigning (asBytes)

/-- The serialized name of a state. -/
def statusName : JobState → String
  | .accepted => "accepted"
  | .inspecting => "inspecting"
  | .processing => "processing"
  | .validating => "validating"
  | .cancelling => "cancelling"
  | .cancelled => "cancelled"
  | .rejected => "rejected"
  | .partialResult => "partial"
  | .reviewRequired => "review_required"
  | .completed => "completed"

structure SignedWebhook where
  eventId : String
  timestamp : String
  signature : String
  body : List UInt8
  deriving DecidableEq

variable (rfc3339 : ℤ → String) (sha256 : List UInt8 → Vector UInt8 32)

def eventMembers (event : TerminalWebhookEvent) : List (String × String) :=
  [("event_id",event.eventId),("event_type",event.eventType),
    ("occurred_at",rfc3339 event.occurredAt),("product_id",event.productId.asStr),
    ("tenant_id",event.tenantId.asStr),("job_id",event.jobId.asStr),
    ("document_version",event.documentVersion.asStr),("status",statusName event.status),
    ("content_trust",event.contentTrust)]

def eventText (event : TerminalWebhookEvent) : String :=
  Json.object ((eventMembers rfc3339 event).map fun m => Json.member m.1 (Json.string m.2))

/-- `OffsetDateTime::unix_timestamp` of an instant in microseconds. -/
def unixTimestamp (instant : ℤ) : ℤ := instant/10^6

def signingInput (event : TerminalWebhookEvent) : String :=
  toString (unixTimestamp event.occurredAt)++"."++event.eventId++"."++
    hexEncode (sha256 (asBytes (eventText rfc3339 event))).toList

def sign (hmacSha256 : List UInt8 → List UInt8 → List UInt8) (secret : List UInt8)
    (event : TerminalWebhookEvent) : SignedWebhook where
  eventId := event.eventId
  timestamp := toString (unixTimestamp event.occurredAt)
  signature := "v1="++hexEncode (hmacSha256 secret (asBytes (signingInput rfc3339 sha256 event)))
  body := asBytes (eventText rfc3339 event)

/-- A document without numbers. -/
def noNumbers : NumberText Empty := ⟨nofun,nofun,nofun,nofun⟩

def eventValue (event : TerminalWebhookEvent) : Value Empty :=
  .object ((eventMembers rfc3339 event).map fun m => (m.1,.string m.2))

theorem eventText_chars (event : TerminalWebhookEvent) :
    (eventText rfc3339 event).toList = chars noNumbers (eventValue rfc3339 event) := by
  apply object_chars
  simp only [List.map_map]
  apply List.map_congr_left
  intro m _
  simp [memberText,chars,Json.member]

variable {rfc3339 sha256}

theorem statusName_inj {status other : JobState} (h : statusName status = statusName other) :
    status = other := by
  revert h
  cases status <;> cases other <;> decide

theorem eventText_inj {event other : TerminalWebhookEvent}
    (hinstants : rfc3339 event.occurredAt = rfc3339 other.occurredAt →
      event.occurredAt = other.occurredAt)
    (h : eventText rfc3339 event = eventText rfc3339 other) : event = other := by
  have hchars := congrArg String.toList h
  rw [eventText_chars,eventText_chars] at hchars
  have hvalues := chars_injective noNumbers hchars
  simp only [eventValue,eventMembers,List.map_cons,List.map_nil,Value.object.injEq,
    List.cons.injEq,Prod.mk.injEq,Value.string.injEq,true_and,and_true] at hvalues
  obtain ⟨hid,htype,hinstant,hproduct,htenant,hjob,hversion,hstatus,htrust⟩ := hvalues
  rcases event with ⟨eventId,eventType,occurredAt,⟨productId,_⟩,⟨tenantId,_⟩,⟨jobId,_⟩,
    ⟨version,_⟩,status,contentTrust⟩
  rcases other with ⟨eventId',eventType',occurredAt',⟨productId',_⟩,⟨tenantId',_⟩,⟨jobId',_⟩,
    ⟨version',_⟩,status',contentTrust'⟩
  obtain rfl := statusName_inj hstatus
  obtain rfl := hinstants hinstant
  dsimp only at *
  subst hid htype hproduct htenant hjob hversion htrust
  rfl

theorem hexEncode_length (bytes : List UInt8) :
    (hexEncode bytes).toList.length = 2*bytes.length := by
  rw [hexEncode,String.toList_ofList]
  induction bytes with
  | nil => rfl
  | cons b bytes ih =>
    rw [List.flatMap_cons,List.length_append,ih,List.length_cons]
    simp only [List.length_cons,List.length_nil]
    omega

theorem asBytes_inj {text other : String} (h : asBytes text = asBytes other) : text = other := by
  rw [asBytes,asBytes,Array.toList_inj] at h
  exact String.toByteArray_inj.mp (ByteArray.ext h)

/-- A signature vouches for one event: two events which are signed over the same text are
the same, as far as digests and instants are told apart. -/
theorem signingInput_determines {event other : TerminalWebhookEvent}
    (hdigests : sha256 (asBytes (eventText rfc3339 event)) =
        sha256 (asBytes (eventText rfc3339 other)) →
      asBytes (eventText rfc3339 event) = asBytes (eventText rfc3339 other))
    (hinstants : rfc3339 event.occurredAt = rfc3339 other.occurredAt →
      event.occurredAt = other.occurredAt)
    (h : signingInput rfc3339 sha256 event = signingInput rfc3339 sha256 other) :
    event = other := by
  have hchars := congrArg String.toList h
  simp only [signingInput,String.toList_append] at hchars
  obtain ⟨_,hhex⟩ := List.append_inj' hchars (by
    rw [hexEncode_length,hexEncode_length,Vector.length_toList,Vector.length_toList])
  have hdigest := Vector.toList_inj.mp (hexEncode_inj (String.toList_inj.mp hhex))
  exact eventText_inj hinstants (asBytes_inj (hdigests hdigest))

theorem completedVersion_valid : isCanonicalSha256
    "sha256:0123456789abcdef0123456789abcdef0123456789abcdef0123456789abcdef" = true := by
  decide

def completedEvent : TerminalWebhookEvent where
  eventId := "evt_2"
  eventType := "ocr.job.completed.v1"
  occurredAt := 6
  productId := default
  tenantId := default
  jobId := default
  documentVersion :=
    ⟨"sha256:0123456789abcdef0123456789abcdef0123456789abcdef0123456789abcdef",
      completedVersion_valid⟩
  status := .completed
  contentTrust := "untrusted"

theorem completedEvent_built :
    TerminalWebhookEvent.new 2 6 default default default completedEvent.documentVersion
      .completed = .ok completedEvent := rfl

/-- The digest of the text of the event. -/
def completedDigest : Vector UInt8 32 :=
  Vector.mk #[53,103,110,161,237,15,139,99,172,141,192,164,168,20,23,17,
    9,138,21,198,89,139,18,68,45,31,54,209,237,110,234,187] rfl

/-- The event which the relay builds is the one to which its signature belongs. -/
theorem completedEvent_signed : ∃ event, TerminalWebhookEvent.new 2 6 default default default
    completedEvent.documentVersion .completed = .ok event ∧ event = completedEvent := by
  refine ⟨_,completedEvent_built,?_⟩
  exact @signingInput_determines (fun _ => "1970-01-01T00:00:00.000006Z")
    (fun _ => completedDigest) _ _ (fun _ => rfl) (fun _ => rfl) rfl

end Signatures

/-! ### Two relays hand over one event -/

theorem subscription_valid : validatedId "whs_a" "whs_" = true := by decide

def subscribed : CreateJob :=
  { Commands.jobRequest with webhookSubscriptionId := some ⟨"whs_a",subscription_valid⟩ }

theorem invoiceId_valid : validatedId "doc_invoice" "doc_" = true := by decide

def someLocator : StoredResultLocator where
  documentId := ⟨"doc_invoice",invoiceId_valid⟩
  documentVersion := completedEvent.documentVersion
  objectBucket := "results-eu"
  objectName := "products/docs/result.json"
  objectVersion := "7"
  objectDigest := completedEvent.documentVersion.asStr
  contentLength := 40

/-- The lease of the first relay expires before it has published the event. -/
def redelivered : List Action :=
  (Commands.acceptedJob.take 4).map (.other <| .command 3 ·)++
    [.other (.command 4 (.create subscribed))]++
    (match PageCheckpoint.PageWorkflow.new default 1 1 with
    | .ok workflow => [.other (.command 5 (.createPageWorkflow default default workflow))]
    | .error _ => [])++
    [.other (.command 6 (.commitResult default default ⟨someLocator,.completed⟩)),
      .claim 0 7 default ⟨"relay-a",5⟩,.hand 0 2 true,
      .claim 1 (8+WorkScopes.fiveMinutes) default ⟨"relay-b",5⟩,.hand 1 2 true,.publish 0 9,
      .publish 1 (9+WorkScopes.fiveMinutes)]

example : (Transition.run step initial redelivered).handed.length = 2 := by decide +kernel

end DocumentIntelligence.WebhookEvents
