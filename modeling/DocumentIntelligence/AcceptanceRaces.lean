import DocumentIntelligence.OutboxStatements
import DocumentIntelligence.Transition

/-!
# Concurrent acceptance of jobs and uploads

The transactions which create jobs and uploads, statement by statement, under idempotency
keys of any scopes. An insert does nothing if its key is there, waits for another insert
which shares a unique value, and fails if another unique value is there. Transactions of
other kinds change the status of committed rows; an accepted upload stays accepted.
-/

set_option autoImplicit false

namespace DocumentIntelligence.AcceptanceRaces
open Identifiers hiding Error
open WorkScopes Schema Uploads Jobs Transition
open ReadCommitted (Tx view Free setTx commitTx merge put)

inductive Row where
  | job (row : JobRow)
  | upload (row : UploadRow)
  | event (row : OutboxRow)
  | scope (row : WorkScopeRow)
  deriving DecidableEq

inductive Key where
  | jobKey (scope : Scope) (idempotencyKey : IdempotencyKey)
  | job (jobId : JobId)
  | uploadKey (scope : Scope) (idempotencyKey : IdempotencyKey)
  | upload (uploadId : UploadId)
  | object (bucket name : String)
  | event (eventId : ℕ)
  | scope (scope : Scope)
  deriving DecidableEq

def Row.key : Row → Key
  | .job row => .jobKey row.scope row.idempotencyKey
  | .upload row => .uploadKey row.scope row.idempotencyKey
  | .event row => .event row.eventId
  | .scope row => .scope row.scope

/-- The unique values of a row. The row of a scope is upserted. -/
def Row.unique : Row → List Key
  | .job row => [.jobKey row.scope row.idempotencyKey,.job row.jobId]
  | .upload row => [.uploadKey row.scope row.idempotencyKey,.upload row.uploadId,
      .object row.objectBucket row.objectName]
  | .event row => [.event row.eventId]
  | .scope _ => []

def Row.job? : Row → Option JobRow
  | .job row => some row
  | _ => none

def Row.upload? : Row → Option UploadRow
  | .upload row => some row
  | _ => none

def Row.event? : Row → Option OutboxRow
  | .event row => some row
  | _ => none

def Row.scope? : Row → Option WorkScopeRow
  | .scope row => some row
  | _ => none

def jobs (rows : List Row) : List JobRow := rows.filterMap Row.job?
def uploads (rows : List Row) : List UploadRow := rows.filterMap Row.upload?
def events (rows : List Row) : List OutboxRow := rows.filterMap Row.event?
def scopes (rows : List Row) : List WorkScopeRow := rows.filterMap Row.scope?

inductive Request where
  | job (request : CreateJob)
  | upload (request : CreateUpload)

def Request.key : Request → Key
  | .job request => .jobKey request.scope request.idempotencyKey
  | .upload request => .uploadKey request.scope request.idempotencyKey

/-- The column checks which no type enforces. -/
def Request.wellFormed : Request → Bool
  | .job request => extractionShape request.extraction
  | .upload request => insertChecks request

inductive Reply where
  | job (outcome : CreateOutcome)
  | upload (outcome : CreateUploadOutcome)

/-- The identifier in a reply. -/
def Reply.id : Reply → Key
  | .job (.created stored) | .job (.existing stored) => .job stored.jobId
  | .upload (.created stored) | .upload (.existing stored) => .upload stored.uploadId

inductive Statement where
  | insert
  | insertEvent
  | register
  | decodeInserted
  | selectExisting
  | finish (reply : Reply)

/-- `now` is the start of the transaction for all of its statements. -/
structure Program where
  now : ℤ
  request : Request
  statement : Statement

/-- The reply to a commit may be lost. -/
inductive Outcome where
  | returned (reply : Reply)
  | lost
  | failed (error : Schema.Error)

structure Report where
  request : Request
  outcome : Outcome

structure World (n : ℕ) where
  db : ReadCommitted.World Row Program (Fin n)
  nextEventId : ℕ
  reports : List Report

inductive Change where
  | job (jobId : JobId) (status : JobState)
  | upload (uploadId : UploadId) (status : UploadState)

def Row.change : Change → Row → Row
  | .job jobId status,.job row => .job (if row.jobId = jobId then setStatus status row else row)
  | .upload uploadId status,.upload row =>
    .upload (if row.uploadId = uploadId ∧ row.status ≠ .accepted then { row with status := status }
      else row)
  | _,row => row

inductive Action (n : ℕ) where
  | start (i : Fin n) (now : ℤ) (request : Request)
  | exec (i : Fin n)
  | disconnect (i : Fin n)
  | other (change : Change)

section Exec
variable {n : ℕ} (w : World n) (i : Fin n) (tx : Tx Row Program)

abbrev rows : List Row := view Row.key w.db tx

def goto (s : Statement) : World n :=
  { w with db := setTx w.db i (some ⟨tx.writes,⟨tx.program.now,tx.program.request,s⟩⟩) }

def write (r : Row) (s : Statement) : World n :=
  { w with
    db := setTx w.db i (some ⟨put Row.key r tx.writes,⟨tx.program.now,tx.program.request,s⟩⟩) }

def fail (e : Schema.Error) : World n :=
  { w with
    db := setTx w.db i none
    reports := w.reports++[⟨tx.program.request,.failed e⟩] }

def finish (outcome : Outcome) : World n :=
  { w with
    db := commitTx Row.key w.db i tx
    reports := w.reports++[⟨tx.program.request,outcome⟩] }

def shares (a b : Row) : Bool := a.unique.any fun k => b.unique.contains k

/-- Another session has inserted a row with one of the unique values. -/
def contends (row : Row) : Prop :=
  ∃ j, j ≠ i ∧ ((w.db.sessions j).any fun tx => tx.writes.any (shares row)) = true

instance (row : Row) : Decidable (contends w i row) := inferInstanceAs (Decidable (∃ _, _))

/-- `on conflict … do nothing`, whose arbiter is the idempotency key. -/
def insertRow (row : Row) (next : Statement) : World n :=
  if (rows w tx).any (·.key == row.key) then goto w i tx .selectExisting
  else if contends w i row then w
  else if (rows w tx).any (shares row) then fail w i tx .database
  else write w i tx row next

def insertJob (request : CreateJob) : World n :=
  if !(uploads (rows w tx)).any fun u =>
      isUpload request.scope request.uploadId u && u.status == .accepted then
    goto w i tx .selectExisting
  else if !extractionShape request.extraction then fail w i tx .database
  else insertRow w i tx (.job (request.row tx.program.now)) .insertEvent

def insertUpload (request : CreateUpload) : World n :=
  if !insertChecks request then fail w i tx .database
  else insertRow w i tx (.upload (request.row tx.program.now)) .decodeInserted

/-- The identity is drawn when the row is inserted and is never given back. -/
def insertEvent (request : CreateJob) : World n :=
  { write w i tx (.event (newEvent w.nextEventId tx.program.now request.scope request.jobId
      .accepted)) .register with nextEventId := w.nextEventId+1 }

def register (request : CreateJob) : World n :=
  if Free Row.key w.db i (.scope request.scope) then
    write w i tx (.scope (OutboxStatements.registered tx.program.now request.scope
      ((scopes (rows w tx)).find? (·.scope == request.scope))))
      (.finish (.job (.created (storedJob (request.row tx.program.now)))))
  else w

def decodeInserted (request : CreateUpload) : World n :=
  match storedUpload (request.row tx.program.now) with
  | .error e => fail w i tx e
  | .ok upload => goto w i tx (.finish (.upload (.created upload)))

def existingJob (request : CreateJob) : World n :=
  match (jobs (rows w tx)).find? fun j =>
      j.scope == request.scope && j.idempotencyKey == request.idempotencyKey with
  | none => fail w i tx .uploadSourceUnavailable
  | some job =>
    if job.requestDigest ≠ request.requestDigest ∨
        job.webhookSubscriptionId ≠ request.webhookSubscriptionId then
      fail w i tx .idempotencyConflict
    else goto w i tx (.finish (.job (.existing (storedJob job))))

def existingUpload (request : CreateUpload) : World n :=
  match (uploads (rows w tx)).find? fun u =>
      u.scope == request.scope && u.idempotencyKey == request.idempotencyKey with
  | none => fail w i tx .database
  | some row =>
    if row.requestDigest ≠ request.requestDigest then fail w i tx .idempotencyConflict
    else match storedUpload row with
      | .error e => fail w i tx e
      | .ok upload => goto w i tx (.finish (.upload (.existing upload)))

def exec : World n :=
  match tx.program.request,tx.program.statement with
  | .job request,.insert => insertJob w i tx request
  | .job request,.insertEvent => insertEvent w i tx request
  | .job request,.register => register w i tx request
  | .job request,.selectExisting => existingJob w i tx request
  | .upload request,.insert => insertUpload w i tx request
  | .upload request,.decodeInserted => decodeInserted w i tx request
  | .upload request,.selectExisting => existingUpload w i tx request
  | _,.finish reply => finish w i tx (.returned reply)
  | _,_ => w

/-- The connection breaks; a commit which was sent takes effect. -/
def disconnect : World n :=
  match tx.program.statement with
  | .finish _ => finish w i tx .lost
  | _ => fail w i tx .database

end Exec

def step {n : ℕ} (w : World n) : Action n → World n
  | .start i now request => match w.db.sessions i with
    | some _ => w
    | none => { w with db := setTx w.db i (some ⟨[],⟨now,request,.insert⟩⟩) }
  | .exec i => match w.db.sessions i with
    | none => w
    | some tx => exec w i tx
  | .disconnect i => match w.db.sessions i with
    | none => w
    | some tx => disconnect w i tx
  | .other change =>
    { w with db := { w.db with committed := w.db.committed.map (Row.change change) } }

def initial (n : ℕ) : World n := ⟨⟨[],fun _ => none⟩,1,[]⟩

/-! ### Rows -/

theorem mem_jobs {rs : List Row} {row : JobRow} : row ∈ jobs rs ↔ .job row ∈ rs := by
  simp only [jobs, List.mem_filterMap]
  constructor
  · rintro ⟨r,hr,heq⟩
    cases r <;> cases heq
    exact hr
  · exact fun h => ⟨.job row,h,rfl⟩

theorem mem_uploads {rs : List Row} {row : UploadRow} : row ∈ uploads rs ↔ .upload row ∈ rs := by
  simp only [uploads, List.mem_filterMap]
  constructor
  · rintro ⟨r,hr,heq⟩
    cases r <;> cases heq
    exact hr
  · exact fun h => ⟨.upload row,h,rfl⟩

theorem mem_events {rs : List Row} {row : OutboxRow} : row ∈ events rs ↔ .event row ∈ rs := by
  simp only [events, List.mem_filterMap]
  constructor
  · rintro ⟨r,hr,heq⟩
    cases r <;> cases heq
    exact hr
  · exact fun h => ⟨.event row,h,rfl⟩

/-- Two rows share no unique value. -/
def Apart (a b : Row) : Prop := ∀ k ∈ a.unique, k ∉ b.unique

theorem Apart.symm {a b : Row} (h : Apart a b) : Apart b a := fun k hb ha => h k ha hb

theorem apart_iff {a b : Row} : shares a b = false ↔ Apart a b := by
  simp [shares, Apart]

theorem eq_of_shared {rs : List Row} (h : rs.Pairwise Apart) {a b : Row} (ha : a ∈ rs) (hb : b ∈ rs)
    {k : Key} (hak : k ∈ a.unique) (hbk : k ∈ b.unique) : a = b := by
  have : Std.Symm Apart := ⟨fun _ _ => Apart.symm⟩
  by_contra hne
  exact h.forall ha hb hne k hak hbk

/-! ### Invariants -/

/-- The upload of a job is accepted, in the scope of the job. -/
def Sourced (rs : List Row) (job : JobRow) : Prop :=
  ∃ upload ∈ uploads rs, isUpload job.scope job.uploadId upload = true ∧ upload.status = .accepted

/-- A recorded row has the digest, and for a job the webhook, of a request. -/
def Agrees : Request → Row → Prop
  | .job request,.job row => row.requestDigest = request.requestDigest ∧
      row.webhookSubscriptionId = request.webhookSubscriptionId
  | .upload request,.upload row => row.requestDigest = request.requestDigest
  | _,_ => False

def Row.id : Row → Key
  | .job row => .job row.jobId
  | .upload row => .upload row.uploadId
  | .event row => .event row.eventId
  | .scope row => .scope row.scope

/-- The row of the key of a request agrees with it and is the one of the reply. -/
def Recorded (rs : List Row) (request : Request) (reply : Reply) : Prop :=
  ∃ row ∈ rs, row.key = request.key ∧ Agrees request row ∧ row.id = reply.id

def Accepts (jobId : JobId) (e : OutboxRow) : Prop := e.jobId = jobId ∧ e.eventType = .accepted

section Invariants
variable {n : ℕ}

/-- What a session has written before it commits. -/
def Creates (w : World n) (tx : Tx Row Program) (reply : Reply) : Prop :=
  (∃ r e s, tx.program.request = .job r ∧
    tx.writes = [.job (r.row tx.program.now),.event e,.scope s] ∧ Accepts r.jobId e ∧
    e.eventId < w.nextEventId ∧ Sourced w.db.committed (r.row tx.program.now) ∧
    reply.id = .job r.jobId) ∨
  ∃ r, tx.program.request = .upload r ∧ tx.writes = [.upload (r.row tx.program.now)] ∧
    reply.id = .upload r.uploadId

def StatementOk (w : World n) (tx : Tx Row Program) : Prop :=
  match tx.program.statement with
  | .insert | .selectExisting => tx.writes = []
  | .insertEvent => ∃ r, tx.program.request = .job r ∧
      tx.writes = [.job (r.row tx.program.now)] ∧ Sourced w.db.committed (r.row tx.program.now)
  | .register => ∃ r e, tx.program.request = .job r ∧
      tx.writes = [.job (r.row tx.program.now),.event e] ∧ Accepts r.jobId e ∧
      e.eventId < w.nextEventId ∧ Sourced w.db.committed (r.row tx.program.now)
  | .decodeInserted => ∃ r, tx.program.request = .upload r ∧
      tx.writes = [.upload (r.row tx.program.now)]
  | .finish reply => (tx.writes = [] ∧ Recorded w.db.committed tx.program.request reply) ∨
      Creates w tx reply

/-- The committed jobs have one accepted event each, and an accepted upload. -/
structure Stored (w : World n) : Prop where
  unique : w.db.committed.Pairwise Apart
  eventIds : ∀ e ∈ events w.db.committed, e.eventId < w.nextEventId
  accepted : ∀ job ∈ jobs w.db.committed, ∃ e ∈ events w.db.committed, Accepts job.jobId e
  owners : ∀ e ∈ events w.db.committed, ∃ job ∈ jobs w.db.committed, job.jobId = e.jobId
  single : ∀ e ∈ events w.db.committed, ∀ e' ∈ events w.db.committed, e.jobId = e'.jobId → e = e'
  sources : ∀ job ∈ jobs w.db.committed, Sourced w.db.committed job

structure Inv (w : World n) : Prop where
  stored : Stored w
  statements : ∀ i tx, w.db.sessions i = some tx → StatementOk w tx
  new : ∀ i tx, w.db.sessions i = some tx → ∀ r ∈ tx.writes, ∀ x ∈ w.db.committed, Apart r x
  exclusive : ∀ i j, i ≠ j → ∀ a b, w.db.sessions i = some a → w.db.sessions j = some b →
    ∀ r ∈ a.writes, ∀ x ∈ b.writes, Apart r x
  returned : ∀ report ∈ w.reports, ∀ reply, report.outcome = .returned reply →
    Recorded w.db.committed report.request reply

end Invariants

theorem storedUpload_id {row : UploadRow} {upload : StoredUpload}
    (h : storedUpload row = .ok upload) : upload.uploadId = row.uploadId := by
  simp only [storedUpload] at h
  split at h
  · rw [← Except.ok.inj h]
  · exact absurd h (by simp)

/-! ### Steps -/

section Steps
variable {n : ℕ} {w w' : World n} {i : Fin n} {tx : Tx Row Program}

theorem statementOk_mono (hnext : w.nextEventId ≤ w'.nextEventId)
    (hsourced : ∀ job, Sourced w.db.committed job → Sourced w'.db.committed job)
    (hrecorded : ∀ request reply, Recorded w.db.committed request reply →
      Recorded w'.db.committed request reply) (h : StatementOk w tx) : StatementOk w' tx := by
  unfold StatementOk at h ⊢
  split at h
  · exact h
  · exact h
  · obtain ⟨r,hrequest,hwrites,hsource⟩ := h
    exact ⟨r,hrequest,hwrites,hsourced _ hsource⟩
  · obtain ⟨r,e,hrequest,hwrites,haccepts,hid,hsource⟩ := h
    exact ⟨r,e,hrequest,hwrites,haccepts,hid.trans_le hnext,hsourced _ hsource⟩
  · exact h
  · rcases h with ⟨hnone,hreply⟩ | ⟨r,e,s,hrequest,hwrites,haccepts,hid,hsource,hreply⟩ | hupload
    · exact Or.inl ⟨hnone,hrecorded _ _ hreply⟩
    · exact Or.inr (Or.inl ⟨r,e,s,hrequest,hwrites,haccepts,hid.trans_le hnext,hsourced _ hsource,
        hreply⟩)
    · exact Or.inr (Or.inr hupload)

/-- The rows which a session has written, as far as it has come. -/
theorem writes_cases (h : StatementOk w tx) : tx.writes = [] ∨
    (∃ r, tx.program.request = .job r ∧ Sourced w.db.committed (r.row tx.program.now) ∧
      (tx.writes = [.job (r.row tx.program.now)] ∨ ∃ e, Accepts r.jobId e ∧
        e.eventId < w.nextEventId ∧ (tx.writes = [.job (r.row tx.program.now),.event e] ∨
          ∃ s, tx.writes = [.job (r.row tx.program.now),.event e,.scope s]))) ∨
    ∃ r, tx.program.request = .upload r ∧ tx.writes = [.upload (r.row tx.program.now)] := by
  unfold StatementOk at h
  split at h
  · exact Or.inl h
  · exact Or.inl h
  · obtain ⟨r,hrequest,hwrites,hsource⟩ := h
    exact Or.inr (Or.inl ⟨r,hrequest,hsource,Or.inl hwrites⟩)
  · obtain ⟨r,e,hrequest,hwrites,haccepts,hid,hsource⟩ := h
    exact Or.inr (Or.inl ⟨r,hrequest,hsource,Or.inr ⟨e,haccepts,hid,Or.inl hwrites⟩⟩)
  · obtain ⟨r,hrequest,hwrites⟩ := h
    exact Or.inr (Or.inr ⟨r,hrequest,hwrites⟩)
  · rcases h with ⟨hnone,_⟩ | ⟨r,e,s,hrequest,hwrites,haccepts,hid,hsource,_⟩ |
      ⟨r,hrequest,hwrites,_⟩
    · exact Or.inl hnone
    · exact Or.inr (Or.inl ⟨r,hrequest,hsource,Or.inr ⟨e,haccepts,hid,Or.inr ⟨s,hwrites⟩⟩⟩)
    · exact Or.inr (Or.inr ⟨r,hrequest,hwrites⟩)

/-- A session which has written something has written the row of its key. -/
theorem writes_row (h : StatementOk w tx) (hsome : tx.writes ≠ []) :
    ∃ r ∈ tx.writes, r.key = tx.program.request.key ∧ r.key ∈ r.unique := by
  rcases writes_cases h with hnone | ⟨r,hrequest,_,hwrites⟩ | ⟨r,hrequest,hwrites⟩
  · exact absurd hnone hsome
  · refine ⟨.job (r.row tx.program.now),?_,by rw [hrequest]; rfl,List.mem_cons_self⟩
    rcases hwrites with hwrites | ⟨e,_,_,hwrites | ⟨s,hwrites⟩⟩ <;>
      rw [hwrites] <;> exact List.mem_cons_self
  · refine ⟨.upload (r.row tx.program.now),?_,by rw [hrequest]; rfl,List.mem_cons_self⟩
    rw [hwrites]
    exact List.mem_cons_self

theorem writes_events (h : StatementOk w tx) {e : OutboxRow} (he : e ∈ events tx.writes) :
    e.eventId < w.nextEventId := by
  rcases writes_cases h with hnone | ⟨r,_,_,hwrites⟩ | ⟨r,_,hwrites⟩
  · rw [hnone] at he
    cases he
  · rcases hwrites with hwrites | ⟨e',_,hid,hwrites | ⟨s,hwrites⟩⟩ <;> rw [hwrites] at he
    · cases he
    · rw [List.mem_singleton.mp he]
      exact hid
    · rw [List.mem_singleton.mp he]
      exact hid
  · rw [hwrites] at he
    cases he

theorem rows_nil (hnone : tx.writes = []) : rows w tx = w.db.committed := by
  rw [rows, view, hnone, ReadCommitted.merge_new Row.key (fun _ _ _ ho => absurd ho List.not_mem_nil),
    List.append_nil]

/-- Nothing is committed or reported; one session is at its next statement. -/
theorem inv_setTx (h : Inv w) {next : Tx Row Program} {m : ℕ} (hm : w.nextEventId ≤ m)
    (hw' : w' = { w with db := setTx w.db i (some next), nextEventId := m })
    (hok : StatementOk w' next)
    (hnew : ∀ r ∈ next.writes, (∀ x ∈ w.db.committed, Apart r x) ∧
      ∀ j, j ≠ i → ∀ b, w.db.sessions j = some b → ∀ x ∈ b.writes, Apart r x) : Inv w' := by
  rw [hw'] at hok ⊢
  constructor
  · exact ⟨h.stored.unique,fun e he => (h.stored.eventIds e he).trans_le hm,h.stored.accepted,
      h.stored.owners,h.stored.single,h.stored.sources⟩
  · intro j a ha
    rcases ReadCommitted.session_cases ha with ⟨_,heq⟩ | ⟨_,hold⟩
    · rw [← Option.some.inj heq]
      exact hok
    · exact statementOk_mono (w := w) hm (fun _ hs => hs) (fun _ _ hr => hr)
        (h.statements j a hold)
  · intro j a ha r hr x hx
    rcases ReadCommitted.session_cases ha with ⟨_,heq⟩ | ⟨_,hold⟩
    · rw [← Option.some.inj heq] at hr
      exact (hnew r hr).1 x hx
    · exact h.new j a hold r hr x hx
  · intro j k hne a b ha hb r hr x hx
    rcases ReadCommitted.session_cases ha with ⟨hj,hja⟩ | ⟨hj,hja⟩ <;>
      rcases ReadCommitted.session_cases hb with ⟨hk,hkb⟩ | ⟨hk,hkb⟩
    · exact absurd (hj.trans hk.symm) hne
    · rw [← Option.some.inj hja] at hr
      exact (hnew r hr).2 k hk b hkb x hx
    · rw [← Option.some.inj hkb] at hx
      exact ((hnew x hx).2 j hj a hja r hr).symm
    · exact h.exclusive j k hne a b hja hkb r hr x hx
  · exact h.returned

theorem inv_goto (h : Inv w) (htx : w.db.sessions i = some tx) {s : Statement}
    (hok : StatementOk w ⟨tx.writes,⟨tx.program.now,tx.program.request,s⟩⟩) :
    Inv (goto w i tx s) := by
  refine inv_setTx h (Nat.le_refl _) rfl
    (statementOk_mono (w := w) (Nat.le_refl _) (fun _ hs => hs) (fun _ _ hr => hr) hok) ?_
  intro r hr
  exact ⟨h.new i tx htx r hr,fun j hne b hb => h.exclusive i j hne.symm tx b htx hb r hr⟩

/-- A row is inserted which is apart from all others. -/
theorem inv_write (h : Inv w) (htx : w.db.sessions i = some tx) {row : Row} {s : Statement} {m : ℕ}
    (hm : w.nextEventId ≤ m)
    (hok : StatementOk { write w i tx row s with nextEventId := m }
      ⟨put Row.key row tx.writes,⟨tx.program.now,tx.program.request,s⟩⟩)
    (hcommitted : ∀ x ∈ w.db.committed, Apart row x)
    (hothers : ∀ j, j ≠ i → ∀ b, w.db.sessions j = some b → ∀ x ∈ b.writes, Apart row x) :
    Inv { write w i tx row s with nextEventId := m } := by
  refine inv_setTx h hm rfl hok ?_
  intro r hr
  rcases (ReadCommitted.mem_put Row.key).mp hr with rfl | ⟨hold,_⟩
  · exact ⟨hcommitted,hothers⟩
  · exact ⟨h.new i tx htx r hold,fun j hne b hb => h.exclusive i j hne.symm tx b htx hb r hold⟩

theorem inv_fail (h : Inv w) (i : Fin n) (tx : Tx Row Program) (e : Schema.Error) :
    Inv (fail w i tx e) := by
  have hold : ∀ j a, (fail w i tx e).db.sessions j = some a → w.db.sessions j = some a := by
    intro j a ha
    rcases ReadCommitted.session_cases ha with ⟨_,hnone⟩ | ⟨_,hold⟩
    · cases hnone
    · exact hold
  constructor
  · exact ⟨h.stored.unique,h.stored.eventIds,h.stored.accepted,h.stored.owners,h.stored.single,
      h.stored.sources⟩
  · intro j a ha
    exact statementOk_mono (w := w) (Nat.le_refl _) (fun _ hs => hs) (fun _ _ hr => hr)
      (h.statements j a (hold j a ha))
  · exact fun j a ha => h.new j a (hold j a ha)
  · exact fun j k hne a b ha hb => h.exclusive j k hne a b (hold j a ha) (hold k b hb)
  · intro report hreport reply hreply
    rcases List.mem_append.mp hreport with hreport | hnew
    · exact h.returned report hreport reply hreply
    · rw [List.mem_singleton.mp hnew] at hreply
      cases hreply

/-! Inserts. -/

theorem inv_insertRow (h : Inv w) (htx : w.db.sessions i = some tx) (hnone : tx.writes = [])
    {row : Row} {s : Statement}
    (hok : StatementOk w ⟨[row],⟨tx.program.now,tx.program.request,s⟩⟩) :
    Inv (insertRow w i tx row s) := by
  unfold insertRow
  rw [rows_nil hnone]
  by_cases harbiter : (w.db.committed.any (·.key == row.key)) = true
  · rw [if_pos harbiter]
    exact inv_goto h htx hnone
  rw [if_neg harbiter]
  by_cases hcontends : contends w i row
  · rw [if_pos hcontends]
    exact h
  rw [if_neg hcontends]
  by_cases hshares : (w.db.committed.any (shares row)) = true
  · rw [if_pos hshares]
    exact inv_fail h i tx _
  rw [if_neg hshares]
  refine inv_write (m := w.nextEventId) h htx (Nat.le_refl _) ?_ ?_ ?_
  · rw [hnone]
    exact statementOk_mono (w := w) (Nat.le_refl _) (fun _ hs => hs) (fun _ _ hr => hr) hok
  · rw [Bool.not_eq_true, List.any_eq_false] at hshares
    intro x hx
    exact apart_iff.mp (Bool.not_eq_true _ ▸ hshares x hx)
  · intro j hne b hb x hx
    rw [← apart_iff]
    by_contra hshared
    refine hcontends ⟨j,hne,?_⟩
    rw [hb, Option.any_some, List.any_eq_true]
    exact ⟨x,hx,by simpa using hshared⟩

theorem inv_insertJob (h : Inv w) (htx : w.db.sessions i = some tx) (hnone : tx.writes = [])
    {r : CreateJob} (hrequest : tx.program.request = .job r) : Inv (insertJob w i tx r) := by
  unfold insertJob
  rw [rows_nil hnone]
  by_cases hsource : ((uploads w.db.committed).any fun u =>
      isUpload r.scope r.uploadId u && u.status == .accepted) = true
  · rw [if_neg (by simp [hsource])]
    split_ifs
    · exact inv_fail h i tx _
    · refine inv_insertRow h htx hnone ⟨r,hrequest,rfl,?_⟩
      obtain ⟨upload,hupload,hyes⟩ := List.any_eq_true.mp hsource
      rw [Bool.and_eq_true, beq_iff_eq] at hyes
      exact ⟨upload,hupload,hyes⟩
  · rw [if_pos (by simp [hsource])]
    exact inv_goto h htx hnone

theorem inv_insertUpload (h : Inv w) (htx : w.db.sessions i = some tx) (hnone : tx.writes = [])
    {r : CreateUpload} (hrequest : tx.program.request = .upload r) :
    Inv (insertUpload w i tx r) := by
  unfold insertUpload
  split_ifs
  · exact inv_fail h i tx _
  · exact inv_insertRow h htx hnone ⟨r,hrequest,rfl⟩

/-- The identity of a new event is above all others. -/
theorem event_apart {e : OutboxRow} {x : Row}
    (h : ∀ e', x = .event e' → e'.eventId < e.eventId) : Apart (.event e) x := by
  intro k hk hx
  rw [List.mem_singleton.mp hk] at hx
  cases x with
  | job row => simp [Row.unique] at hx
  | upload row => simp [Row.unique] at hx
  | event e' =>
    have heq := List.mem_singleton.mp hx
    exact absurd (Key.event.inj heq) (h e' rfl).ne'
  | scope row => cases hx

theorem inv_insertEvent (h : Inv w) (htx : w.db.sessions i = some tx) {r : CreateJob}
    (hrequest : tx.program.request = .job r) (hwrites : tx.writes = [.job (r.row tx.program.now)])
    (hsource : Sourced w.db.committed (r.row tx.program.now)) : Inv (insertEvent w i tx r) := by
  refine inv_write h htx (Nat.le_succ _) ?_ ?_ ?_
  · refine ⟨r,newEvent w.nextEventId tx.program.now r.scope r.jobId .accepted,hrequest,?_,⟨rfl,rfl⟩,
      Nat.lt_succ_self _,hsource⟩
    rw [hwrites]
    rfl
  · intro x hx
    apply event_apart
    rintro e' rfl
    exact h.stored.eventIds e' (mem_events.mpr hx)
  · intro j _ b hb x hx
    apply event_apart
    rintro e' rfl
    exact writes_events (h.statements j b hb) (mem_events.mpr hx)

theorem inv_register (h : Inv w) (htx : w.db.sessions i = some tx) {r : CreateJob}
    (hrequest : tx.program.request = .job r) {e : OutboxRow}
    (hwrites : tx.writes = [.job (r.row tx.program.now),.event e]) (haccepts : Accepts r.jobId e)
    (hid : e.eventId < w.nextEventId) (hsource : Sourced w.db.committed (r.row tx.program.now)) :
    Inv (register w i tx r) := by
  unfold register
  split_ifs
  · refine inv_write (m := w.nextEventId) h htx (Nat.le_refl _) ?_ (fun _ _ _ hk => nomatch hk)
      fun _ _ _ _ _ _ _ hk => nomatch hk
    refine Or.inr (Or.inl ⟨r,e,OutboxStatements.registered tx.program.now r.scope
      ((scopes (rows w tx)).find? (·.scope == r.scope)),hrequest,?_,haccepts,hid,hsource,rfl⟩)
    rw [hwrites]
    rfl
  · exact h

theorem inv_decodeInserted (h : Inv w) (htx : w.db.sessions i = some tx) {r : CreateUpload}
    (hrequest : tx.program.request = .upload r)
    (hwrites : tx.writes = [.upload (r.row tx.program.now)]) : Inv (decodeInserted w i tx r) := by
  unfold decodeInserted
  split
  · exact inv_fail h i tx _
  · rename_i upload hupload
    refine inv_goto h htx (Or.inr (Or.inr ⟨r,hrequest,hwrites,?_⟩))
    rw [Reply.id, storedUpload_id hupload]
    rfl

/-! Reads. -/

theorem inv_existingJob (h : Inv w) (htx : w.db.sessions i = some tx) (hnone : tx.writes = [])
    {r : CreateJob} (hrequest : tx.program.request = .job r) : Inv (existingJob w i tx r) := by
  unfold existingJob
  rw [rows_nil hnone]
  split
  · exact inv_fail h i tx _
  rename_i job hjob
  by_cases hdiffers : job.requestDigest ≠ r.requestDigest ∨
      job.webhookSubscriptionId ≠ r.webhookSubscriptionId
  · rw [if_pos hdiffers]
    exact inv_fail h i tx _
  · rw [if_neg hdiffers]
    rw [not_or, not_not, not_not] at hdiffers
    obtain ⟨hmem,hkey⟩ := Table.mem_of_find? hjob
    rw [Bool.and_eq_true, beq_iff_eq, beq_iff_eq] at hkey
    refine inv_goto h htx (Or.inl ⟨hnone,.job job,mem_jobs.mp hmem,?_,?_,rfl⟩)
    · show Key.jobKey job.scope job.idempotencyKey = tx.program.request.key
      rw [hrequest, hkey.1, hkey.2]
      rfl
    · show Agrees tx.program.request _
      rw [hrequest]
      exact hdiffers

theorem inv_existingUpload (h : Inv w) (htx : w.db.sessions i = some tx) (hnone : tx.writes = [])
    {r : CreateUpload} (hrequest : tx.program.request = .upload r) :
    Inv (existingUpload w i tx r) := by
  unfold existingUpload
  rw [rows_nil hnone]
  split
  · exact inv_fail h i tx _
  rename_i row hrow
  by_cases hdiffers : row.requestDigest ≠ r.requestDigest
  · rw [if_pos hdiffers]
    exact inv_fail h i tx _
  rw [if_neg hdiffers]
  split
  · exact inv_fail h i tx _
  rename_i upload hupload
  obtain ⟨hmem,hkey⟩ := Table.mem_of_find? hrow
  rw [Bool.and_eq_true, beq_iff_eq, beq_iff_eq] at hkey
  refine inv_goto h htx (Or.inl ⟨hnone,.upload row,mem_uploads.mp hmem,?_,?_,?_⟩)
  · show Key.uploadKey row.scope row.idempotencyKey = tx.program.request.key
    rw [hrequest, hkey.1, hkey.2]
    rfl
  · show Agrees tx.program.request _
    rw [hrequest]
    exact not_not.mp hdiffers
  · rw [Reply.id, storedUpload_id hupload]
    rfl

/-! Commits. -/

theorem key_unique {o r : Row} (h : o.key ∈ r.unique) : o.key ∈ o.unique := by
  cases o with
  | scope row => cases r <;> simp [Row.key, Row.unique] at h
  | _ => exact List.mem_cons_self

/-- A commit adds rows and replaces none but that of a scope. -/
theorem mem_finish (h : Inv w) (htx : w.db.sessions i = some tx) {outcome : Outcome} {r : Row}
    (hr : r.key ∈ r.unique) :
    r ∈ (finish w i tx outcome).db.committed ↔ r ∈ w.db.committed ∨ r ∈ tx.writes := by
  refine (ReadCommitted.mem_merge Row.key).trans ⟨?_,?_⟩
  · rintro (hown | ⟨hbase,_⟩)
    · exact Or.inr hown
    · exact Or.inl hbase
  · rintro (hbase | hown)
    · refine Or.inr ⟨hbase,?_⟩
      intro o ho heq
      have hkey : o.key ∈ r.unique := heq ▸ hr
      exact h.new i tx htx o ho r hbase _ (key_unique hkey) hkey
    · exact Or.inl hown

theorem jobs_finish (h : Inv w) (htx : w.db.sessions i = some tx) (outcome : Outcome) {job : JobRow} :
    job ∈ jobs (finish w i tx outcome).db.committed ↔
      job ∈ jobs w.db.committed ∨ job ∈ jobs tx.writes := by
  simp only [mem_jobs]
  exact mem_finish h htx List.mem_cons_self

theorem events_finish (h : Inv w) (htx : w.db.sessions i = some tx) (outcome : Outcome)
    {e : OutboxRow} : e ∈ events (finish w i tx outcome).db.committed ↔
      e ∈ events w.db.committed ∨ e ∈ events tx.writes := by
  simp only [mem_events]
  exact mem_finish h htx List.mem_cons_self

theorem sourced_finish (h : Inv w) (htx : w.db.sessions i = some tx) (outcome : Outcome)
    {job : JobRow} (hsource : Sourced w.db.committed job) :
    Sourced (finish w i tx outcome).db.committed job := by
  obtain ⟨upload,hupload,hyes⟩ := hsource
  refine ⟨upload,mem_uploads.mpr ?_,hyes⟩
  exact (mem_finish h htx List.mem_cons_self).mpr (Or.inl (mem_uploads.mp hupload))

theorem agrees_unique {request : Request} {row : Row} (h : Agrees request row) :
    row.key ∈ row.unique := by
  cases row with
  | scope row => cases request <;> cases h
  | _ => exact List.mem_cons_self

theorem recorded_finish (h : Inv w) (htx : w.db.sessions i = some tx) (outcome : Outcome)
    {request : Request} {reply : Reply} (hrecorded : Recorded w.db.committed request reply) :
    Recorded (finish w i tx outcome).db.committed request reply := by
  obtain ⟨row,hrow,hkey,hagrees,hid⟩ := hrecorded
  exact ⟨row,(mem_finish h htx (agrees_unique hagrees)).mpr (Or.inl hrow),hkey,hagrees,hid⟩

/-- The rows of one acceptance. -/
structure Batch (rs writes : List Row) : Prop where
  unique : writes.Pairwise Apart
  accepted : ∀ job ∈ jobs writes, ∃ e ∈ events writes, Accepts job.jobId e
  owners : ∀ e ∈ events writes, ∃ job ∈ jobs writes, job.jobId = e.jobId
  single : ∀ e ∈ events writes, ∀ e' ∈ events writes, e = e'
  sources : ∀ job ∈ jobs writes, Sourced rs job

/-- Writes without a job and without an event ask for nothing. -/
theorem batch_of_none {rs writes : List Row} (hunique : writes.Pairwise Apart)
    (hjobs : jobs writes = []) (hevents : events writes = []) : Batch rs writes := by
  constructor
  · exact hunique
  · rw [hjobs]
    exact fun _ hjob => absurd hjob List.not_mem_nil
  · rw [hevents]
    exact fun _ he => absurd he List.not_mem_nil
  · rw [hevents]
    exact fun _ he => absurd he List.not_mem_nil
  · rw [hjobs]
    exact fun _ hjob => absurd hjob List.not_mem_nil

theorem creates_batch {reply : Reply} (h : Creates w tx reply) :
    Batch w.db.committed tx.writes := by
  rcases h with ⟨r,e,s,_,hwrites,haccepts,_,hsource,_⟩ | ⟨r,_,hwrites,_⟩
  · have hjobs : jobs tx.writes = [r.row tx.program.now] := by rw [hwrites]; rfl
    have hevents : events tx.writes = [e] := by rw [hwrites]; rfl
    constructor
    · rw [hwrites]
      simp [Apart, Row.unique]
    · rw [hjobs, hevents]
      intro job hjob
      rw [List.mem_singleton.mp hjob]
      exact ⟨e,List.mem_cons_self,haccepts⟩
    · rw [hjobs, hevents]
      intro e' he'
      rw [List.mem_singleton.mp he']
      exact ⟨_,List.mem_cons_self,haccepts.1.symm⟩
    · rw [hevents]
      intro a ha b hb
      rw [List.mem_singleton.mp ha, List.mem_singleton.mp hb]
    · rw [hjobs]
      intro job hjob
      rw [List.mem_singleton.mp hjob]
      exact hsource
  · rw [hwrites]
    exact batch_of_none (List.pairwise_singleton _ _) rfl rfl

theorem stored_finish (h : Inv w) (htx : w.db.sessions i = some tx) (outcome : Outcome)
    (hbatch : Batch w.db.committed tx.writes) : Stored (finish w i tx outcome) := by
  constructor
  · show (merge Row.key w.db.committed tx.writes).Pairwise Apart
    rw [merge, List.pairwise_append]
    refine ⟨h.stored.unique.sublist List.filter_sublist,hbatch.unique,?_⟩
    intro x hx r hr
    exact (h.new i tx htx r hr x (List.mem_of_mem_filter hx)).symm
  · intro e he
    rcases (events_finish h htx outcome).mp he with hold | hnew
    · exact h.stored.eventIds e hold
    · exact writes_events (h.statements i tx htx) hnew
  · intro job hjob
    rcases (jobs_finish h htx outcome).mp hjob with hold | hnew
    · obtain ⟨e,he,haccepts⟩ := h.stored.accepted job hold
      exact ⟨e,(events_finish h htx outcome).mpr (Or.inl he),haccepts⟩
    · obtain ⟨e,he,haccepts⟩ := hbatch.accepted job hnew
      exact ⟨e,(events_finish h htx outcome).mpr (Or.inr he),haccepts⟩
  · intro e he
    rcases (events_finish h htx outcome).mp he with hold | hnew
    · obtain ⟨job,hjob,hid⟩ := h.stored.owners e hold
      exact ⟨job,(jobs_finish h htx outcome).mpr (Or.inl hjob),hid⟩
    · obtain ⟨job,hjob,hid⟩ := hbatch.owners e hnew
      exact ⟨job,(jobs_finish h htx outcome).mpr (Or.inr hjob),hid⟩
  · have hmixed : ∀ e ∈ events w.db.committed, ∀ e' ∈ events tx.writes, e.jobId ≠ e'.jobId := by
      intro e he e' he' heq
      obtain ⟨job,hjob,hid⟩ := h.stored.owners e he
      obtain ⟨job',hjob',hid'⟩ := hbatch.owners e' he'
      refine h.new i tx htx _ (mem_jobs.mp hjob') _ (mem_jobs.mp hjob) (.job job'.jobId) ?_ ?_
      · simp [Row.unique]
      · simp [Row.unique, hid, hid', heq]
    intro e he e' he' heq
    rcases (events_finish h htx outcome).mp he with hold | hnew <;>
      rcases (events_finish h htx outcome).mp he' with hold' | hnew'
    · exact h.stored.single e hold e' hold' heq
    · exact absurd heq (hmixed e hold e' hnew')
    · exact absurd heq.symm (hmixed e' hold' e hnew)
    · exact hbatch.single e hnew e' hnew'
  · intro job hjob
    rcases (jobs_finish h htx outcome).mp hjob with hold | hnew
    · exact sourced_finish h htx outcome (h.stored.sources job hold)
    · exact sourced_finish h htx outcome (hbatch.sources job hnew)

theorem creates_recorded (h : Inv w) (htx : w.db.sessions i = some tx) (outcome : Outcome)
    {reply : Reply} (hcreates : Creates w tx reply) :
    Recorded (finish w i tx outcome).db.committed tx.program.request reply := by
  rcases hcreates with ⟨r,e,s,hrequest,hwrites,_,_,_,hreply⟩ | ⟨r,hrequest,hwrites,hreply⟩
  · rw [hrequest]
    refine ⟨.job (r.row tx.program.now),?_,rfl,⟨rfl,rfl⟩,hreply.symm⟩
    refine (mem_finish h htx List.mem_cons_self).mpr (Or.inr ?_)
    rw [hwrites]
    exact List.mem_cons_self
  · rw [hrequest]
    refine ⟨.upload (r.row tx.program.now),?_,rfl,rfl,hreply.symm⟩
    refine (mem_finish h htx List.mem_cons_self).mpr (Or.inr ?_)
    rw [hwrites]
    exact List.mem_cons_self

theorem inv_finish (h : Inv w) (htx : w.db.sessions i = some tx) {reply : Reply}
    (hstatement : tx.program.statement = .finish reply) {outcome : Outcome}
    (hreply : ∀ other, outcome = .returned other → other = reply) :
    Inv (finish w i tx outcome) := by
  have hok := h.statements i tx htx
  rw [StatementOk, hstatement] at hok
  have hbatch : Batch w.db.committed tx.writes := by
    rcases hok with ⟨hnone,_⟩ | hcreates
    · rw [hnone]
      exact batch_of_none List.Pairwise.nil rfl rfl
    · exact creates_batch hcreates
  have hrecorded : Recorded (finish w i tx outcome).db.committed tx.program.request reply := by
    rcases hok with ⟨_,hrecorded⟩ | hcreates
    · exact recorded_finish h htx outcome hrecorded
    · exact creates_recorded h htx outcome hcreates
  constructor
  · exact stored_finish h htx outcome hbatch
  · intro j a ha
    exact statementOk_mono (w := w) (Nat.le_refl _) (fun _ => sourced_finish h htx outcome)
      (fun _ _ => recorded_finish h htx outcome) (h.statements j a (ReadCommitted.session_commit ha).2)
  · intro j a ha r hr x hx
    obtain ⟨hne,hold⟩ := ReadCommitted.session_commit ha
    rcases (ReadCommitted.mem_merge Row.key).mp hx with hown | ⟨hbase,_⟩
    · exact h.exclusive j i hne a tx hold htx r hr x hown
    · exact h.new j a hold r hr x hbase
  · intro j k hne a b ha hb
    exact h.exclusive j k hne a b (ReadCommitted.session_commit ha).2
      (ReadCommitted.session_commit hb).2
  · intro report hreport other hother
    rcases List.mem_append.mp hreport with hold | hnew
    · exact recorded_finish h htx outcome (h.returned report hold other hother)
    · rw [List.mem_singleton.mp hnew] at hother ⊢
      rw [hreply other hother]
      exact hrecorded

/-! Other transactions. -/

theorem change_key (c : Change) (r : Row) : (r.change c).key = r.key := by
  cases c <;> cases r <;> simp only [Row.change] <;> split <;> rfl

theorem change_unique (c : Change) (r : Row) : (r.change c).unique = r.unique := by
  cases c <;> cases r <;> simp only [Row.change] <;> split <;> rfl

theorem change_id (c : Change) (r : Row) : (r.change c).id = r.id := by
  cases c <;> cases r <;> simp only [Row.change] <;> split <;> rfl

theorem agrees_change {request : Request} {r : Row} (c : Change) (h : Agrees request r) :
    Agrees request (r.change c) := by
  cases r with
  | job row =>
    cases c with
    | job jobId status =>
      cases request with
      | job request =>
        simp only [Row.change]
        split <;> exact h
      | upload request => cases h
    | upload uploadId status => exact h
  | upload row =>
    cases c with
    | job jobId status => exact h
    | upload uploadId status =>
      cases request with
      | job request => cases h
      | upload request =>
        simp only [Row.change]
        split <;> exact h
  | event row => cases request <;> cases h
  | scope row => cases request <;> cases h

theorem apart_change {a b : Row} (c : Change) (h : Apart a b) : Apart (a.change c) (b.change c) := by
  unfold Apart
  rw [change_unique, change_unique]
  exact h

/-- A changed job has the identifier and the upload of the one before. -/
theorem jobs_change {c : Change} {rs : List Row} {job : JobRow}
    (h : job ∈ jobs (rs.map (Row.change c))) : ∃ old ∈ jobs rs, old.jobId = job.jobId ∧
      old.scope = job.scope ∧ old.uploadId = job.uploadId := by
  obtain ⟨r,hr,heq⟩ := List.mem_map.mp (mem_jobs.mp h)
  cases r with
  | job old =>
    refine ⟨old,mem_jobs.mpr hr,?_⟩
    cases c with
    | job jobId status =>
      simp only [Row.change, Row.job.injEq] at heq
      rw [← heq]
      split <;> exact ⟨rfl,rfl,rfl⟩
    | upload uploadId status =>
      rw [← Row.job.inj heq]
      exact ⟨rfl,rfl,rfl⟩
  | upload old => cases c <;> cases heq
  | event old => cases c <;> cases heq
  | scope old => cases c <;> cases heq

theorem jobs_changed {c : Change} {rs : List Row} {old : JobRow} (h : old ∈ jobs rs) :
    ∃ job ∈ jobs (rs.map (Row.change c)), job.jobId = old.jobId := by
  have hmem := List.mem_map_of_mem (f := Row.change c) (mem_jobs.mp h)
  cases c with
  | job jobId status =>
    refine ⟨_,mem_jobs.mpr hmem,?_⟩
    split <;> rfl
  | upload uploadId status => exact ⟨old,mem_jobs.mpr hmem,rfl⟩

theorem events_change (c : Change) (rs : List Row) :
    events (rs.map (Row.change c)) = events rs := by
  induction rs with
  | nil => rfl
  | cons r rs ih =>
    unfold events at ih ⊢
    rw [List.map_cons, List.filterMap_cons, List.filterMap_cons, ih]
    cases c <;> cases r <;> rfl

theorem sourced_change (c : Change) {rs : List Row} {job : JobRow} (h : Sourced rs job) :
    Sourced (rs.map (Row.change c)) job := by
  obtain ⟨upload,hupload,hyes,haccepted⟩ := h
  refine ⟨upload,mem_uploads.mpr (List.mem_map.mpr ⟨.upload upload,mem_uploads.mp hupload,?_⟩),
    hyes,haccepted⟩
  cases c with
  | job jobId status => rfl
  | upload uploadId status =>
    simp only [Row.change]
    rw [if_neg fun hchange => hchange.2 haccepted]

theorem recorded_change (c : Change) {rs : List Row} {request : Request} {reply : Reply}
    (h : Recorded rs request reply) : Recorded (rs.map (Row.change c)) request reply := by
  obtain ⟨row,hrow,hkey,hagrees,hid⟩ := h
  exact ⟨row.change c,List.mem_map_of_mem hrow,(change_key c row).trans hkey,
    agrees_change c hagrees,(change_id c row).trans hid⟩

theorem apart_change_right {a b : Row} (c : Change) (h : Apart a b) : Apart a (b.change c) := by
  unfold Apart
  rw [change_unique]
  exact h

theorem inv_other (h : Inv w) (c : Change) : Inv (step w (.other c)) := by
  constructor
  · constructor
    · exact h.stored.unique.map _ fun _ _ => apart_change c
    · show ∀ e ∈ events (w.db.committed.map _), _
      rw [events_change]
      exact h.stored.eventIds
    · intro job hjob
      obtain ⟨old,hold,hid,_⟩ := jobs_change hjob
      show ∃ e ∈ events (w.db.committed.map _), _
      rw [events_change, ← hid]
      exact h.stored.accepted old hold
    · show ∀ e ∈ events (w.db.committed.map _), _
      rw [events_change]
      intro e he
      obtain ⟨old,hold,hid⟩ := h.stored.owners e he
      obtain ⟨job,hjob,hsame⟩ := jobs_changed (c := c) hold
      exact ⟨job,hjob,hsame.trans hid⟩
    · show ∀ e ∈ events (w.db.committed.map _), ∀ e' ∈ events (w.db.committed.map _), _
      rw [events_change]
      exact h.stored.single
    · intro job hjob
      obtain ⟨old,hold,_,hscope,hupload⟩ := jobs_change hjob
      obtain ⟨upload,hmem,hsource⟩ := sourced_change c (h.stored.sources old hold)
      rw [hscope, hupload] at hsource
      exact ⟨upload,hmem,hsource⟩
  · intro i tx htx
    exact statementOk_mono (w := w) (Nat.le_refl _) (fun _ => sourced_change c)
      (fun _ _ => recorded_change c) (h.statements i tx htx)
  · intro i tx htx r hr x hx
    obtain ⟨old,hold,rfl⟩ := List.mem_map.mp hx
    exact apart_change_right c (h.new i tx htx r hr old hold)
  · exact h.exclusive
  · intro report hreport reply hreply
    exact recorded_change c (h.returned report hreport reply hreply)

theorem exec_inv (h : Inv w) (htx : w.db.sessions i = some tx) : Inv (exec w i tx) := by
  have hok := h.statements i tx htx
  unfold exec
  split <;> rename_i hrequest hstatement <;>
    first | rw [StatementOk, hstatement] at hok | skip
  · exact inv_insertJob h htx hok hrequest
  · obtain ⟨r,hr,hwrites,hsource⟩ := hok
    rw [hrequest, Request.job.injEq] at hr
    rw [← hr] at hwrites hsource
    exact inv_insertEvent h htx hrequest hwrites hsource
  · obtain ⟨r,e,hr,hwrites,haccepts,hid,hsource⟩ := hok
    rw [hrequest, Request.job.injEq] at hr
    rw [← hr] at hwrites hsource haccepts
    exact inv_register h htx hrequest hwrites haccepts hid hsource
  · exact inv_existingJob h htx hok hrequest
  · exact inv_insertUpload h htx hok hrequest
  · obtain ⟨r,hr,hwrites⟩ := hok
    rw [hrequest, Request.upload.injEq] at hr
    rw [← hr] at hwrites
    exact inv_decodeInserted h htx hrequest hwrites
  · exact inv_existingUpload h htx hok hrequest
  · refine inv_finish h htx hstatement ?_
    exact fun other hother => (Outcome.returned.inj hother).symm
  · exact h

theorem step_inv (h : Inv w) (a : Action n) : Inv (step w a) := by
  cases a with
  | start i now request =>
    simp only [step]
    cases w.db.sessions i with
    | some tx => exact h
    | none =>
      refine inv_setTx h (Nat.le_refl _) rfl rfl ?_
      exact fun r hr => absurd hr List.not_mem_nil
  | exec i =>
    simp only [step]
    cases htx : w.db.sessions i with
    | none => exact h
    | some tx => exact exec_inv h htx
  | disconnect i =>
    simp only [step]
    cases htx : w.db.sessions i with
    | none => exact h
    | some tx =>
      dsimp only
      unfold disconnect
      split
      · rename_i reply hstatement
        apply inv_finish h htx hstatement
        intro other hother
        cases hother
      · exact inv_fail h i tx _
  | other change => exact inv_other h change

theorem initial_inv (n : ℕ) : Inv (initial n) where
  stored := ⟨List.Pairwise.nil,fun _ h => absurd h List.not_mem_nil,
    fun _ h => absurd h List.not_mem_nil,fun _ h => absurd h List.not_mem_nil,
    fun _ h => absurd h List.not_mem_nil,fun _ h => absurd h List.not_mem_nil⟩
  statements _ _ h := absurd h (by simp [initial])
  new _ _ h := absurd h (by simp [initial])
  exclusive _ _ _ _ _ h := absurd h (by simp [initial])
  returned _ h := absurd h List.not_mem_nil

theorem reached_inv (as : List (Action n)) : Inv (run step (initial n) as) :=
  run_invariant (I := Inv) (fun _ a h => step_inv h a) (initial_inv n) as

/-! ### One row, one event, one identifier -/

theorem pairwise_filter {rs : List Row} (h : rs.Pairwise Apart) {p : Row → Bool} {k : Key}
    (hp : ∀ r ∈ rs, p r = true → k ∈ r.unique) : (rs.filter p).length ≤ 1 := by
  have hpair : (rs.filter p).Pairwise Apart := h.sublist List.filter_sublist
  cases hrows : rs.filter p with
  | nil => exact Nat.zero_le 1
  | cons a rest =>
    cases rest with
    | nil => exact Nat.le_refl 1
    | cons b rest =>
      rw [hrows, List.pairwise_cons] at hpair
      have ha : a ∈ rs.filter p := by rw [hrows]; exact List.mem_cons_self
      have hb : b ∈ rs.filter p := by
        rw [hrows]
        exact List.mem_cons_of_mem a List.mem_cons_self
      obtain ⟨ha,hpa⟩ := List.mem_filter.mp ha
      obtain ⟨hb,hpb⟩ := List.mem_filter.mp hb
      exact absurd (hp b hb hpb) (hpair.1 b List.mem_cons_self k (hp a ha hpa))

theorem events_filter (rs : List Row) (p : OutboxRow → Bool) :
    ((events rs).filter p).length = (rs.filter fun r => r.event?.any p).length := by
  induction rs with
  | nil => rfl
  | cons r rs ih =>
    unfold events at ih ⊢
    cases r with
    | event e =>
      by_cases hp : p e = true
      · simp [Row.event?, hp, ih]
      · simp [Row.event?, hp, ih]
    | _ => simpa [List.filterMap_cons, Row.event?] using ih

/-- An accepted job has exactly one accepted event. -/
theorem one_event (h : Stored w) {job : JobRow} (hjob : job ∈ jobs w.db.committed) :
    ((events w.db.committed).filter fun e => e.jobId == job.jobId && e.eventType == .accepted).length
      = 1 := by
  obtain ⟨e,he,hid,htype⟩ := h.accepted job hjob
  refine Nat.le_antisymm ?_ ?_
  · rw [events_filter]
    refine pairwise_filter (k := .event e.eventId) h.unique ?_
    intro r hr hp
    cases r with
    | event e' =>
      simp only [Row.event?, Option.any_some, Bool.and_eq_true, beq_iff_eq] at hp
      rw [h.single e he e' (mem_events.mpr hr) (hid.trans hp.1.symm)]
      exact List.mem_cons_self
    | _ => cases hp
  · refine List.length_pos_iff_exists_mem.mpr ⟨e,List.mem_filter.mpr ⟨he,?_⟩⟩
    rw [hid, htype]
    simp

/-- There is a committed row of the key which does not agree with the request. -/
def Differs (w : World n) (request : Request) : Prop :=
  ∃ row ∈ w.db.committed, row.key = request.key ∧ ¬Agrees request row

theorem request_key_unique {request : Request} {row : Row} (h : row.key = request.key) :
    row.key ∈ row.unique := by
  cases row with
  | event row => cases request <;> cases h
  | scope row => cases request <;> cases h
  | _ => exact List.mem_cons_self

theorem differs_unrecorded (h : Inv w) {request : Request} (hdiffers : Differs w request)
    {reply : Reply} : ¬Recorded w.db.committed request reply := by
  rintro ⟨row,hrow,hkey,hagrees,_⟩
  obtain ⟨other,hother,hotherKey,hno⟩ := hdiffers
  have hsame := eq_of_shared h.stored.unique hother hrow (request_key_unique hotherKey)
    (by rw [hotherKey, ← hkey]; exact agrees_unique hagrees)
  rw [hsame] at hno
  exact hno hagrees

/-- Such a call is before its insert or before its read. -/
theorem differs_statement (h : Inv w) (htx : w.db.sessions i = some tx)
    (hdiffers : Differs w tx.program.request) :
    tx.writes = [] ∧ (tx.program.statement = .insert ∨ tx.program.statement = .selectExisting) := by
  have hok := h.statements i tx htx
  have hnone : tx.writes = [] := by
    by_contra hsome
    obtain ⟨r,hr,hkey,hunique⟩ := writes_row hok hsome
    obtain ⟨row,hrow,hrowKey,_⟩ := hdiffers
    refine h.new i tx htx r hr row hrow _ hunique ?_
    rw [hkey, ← hrowKey]
    exact request_key_unique hrowKey
  refine ⟨hnone,?_⟩
  unfold StatementOk at hok
  split at hok
  · rename_i hstatement
    exact Or.inl hstatement
  · rename_i hstatement
    exact Or.inr hstatement
  · obtain ⟨r,_,hwrites,_⟩ := hok
    rw [hnone] at hwrites
    cases hwrites
  · obtain ⟨r,e,_,hwrites,_⟩ := hok
    rw [hnone] at hwrites
    cases hwrites
  · obtain ⟨r,_,hwrites⟩ := hok
    rw [hnone] at hwrites
    cases hwrites
  · rcases hok with ⟨_,hrecorded⟩ | ⟨_,_,_,_,hwrites,_⟩ | ⟨_,_,hwrites,_⟩
    · exact absurd hrecorded (differs_unrecorded h hdiffers)
    · rw [hnone] at hwrites
      cases hwrites
    · rw [hnone] at hwrites
      cases hwrites

theorem differs_arbiter {row : Row} (hdiffers : Differs w tx.program.request)
    (hkey : row.key = tx.program.request.key) : (w.db.committed.any (·.key == row.key)) = true := by
  obtain ⟨other,hother,hotherKey,_⟩ := hdiffers
  exact List.any_eq_true.mpr ⟨other,hother,beq_iff_eq.mpr (hotherKey.trans hkey.symm)⟩

/-- The insert does nothing. -/
theorem differs_insert (htx : w.db.sessions i = some tx)
    (hdiffers : Differs w tx.program.request) (hnone : tx.writes = [])
    (hstatement : tx.program.statement = .insert)
    (hwell : tx.program.request.wellFormed = true) :
    step w (.exec i) = goto w i tx .selectExisting := by
  rw [step, htx]
  dsimp only
  rw [exec, hstatement]
  cases hrequest : tx.program.request with
  | job r =>
    rw [hrequest] at hwell
    dsimp only
    rw [insertJob, rows_nil hnone]
    split_ifs with hsource hshape
    · rfl
    · rw [show extractionShape r.extraction = true from hwell] at hshape
      cases hshape
    · rw [insertRow, rows_nil hnone, if_pos (differs_arbiter hdiffers (by rw [hrequest]; rfl))]
  | upload r =>
    rw [hrequest] at hwell
    dsimp only
    rw [insertUpload, if_neg (by rw [show insertChecks r = true from hwell]; decide), insertRow,
      rows_nil hnone, if_pos (differs_arbiter hdiffers (by rw [hrequest]; rfl))]

/-- The read finds the conflict. -/
theorem differs_select (h : Inv w) (htx : w.db.sessions i = some tx)
    (hdiffers : Differs w tx.program.request) (hnone : tx.writes = [])
    (hstatement : tx.program.statement = .selectExisting) :
    step w (.exec i) = fail w i tx .idempotencyConflict := by
  obtain ⟨row,hrow,hkey,hno⟩ := hdiffers
  rw [step, htx]
  dsimp only
  rw [exec, hstatement]
  cases hrequest : tx.program.request with
  | job r =>
    rw [hrequest] at hkey hno
    cases row with
    | job row =>
      have hfind : (jobs w.db.committed).find? (fun j => j.scope == r.scope &&
          j.idempotencyKey == r.idempotencyKey) = some row := by
        refine Table.find?_eq_of_unique (mem_jobs.mpr hrow) ?_ ?_
        · simp [(Key.jobKey.inj hkey).1, (Key.jobKey.inj hkey).2]
        · intro other hother hsame
          rw [Bool.and_eq_true, beq_iff_eq, beq_iff_eq] at hsame
          have hshared := eq_of_shared h.stored.unique (mem_jobs.mp hother) hrow
            (k := .jobKey r.scope r.idempotencyKey)
            (by simp [Row.unique, hsame.1, hsame.2])
            (by simp [Row.unique, (Key.jobKey.inj hkey).1, (Key.jobKey.inj hkey).2])
          exact Row.job.inj hshared
      dsimp only
      rw [existingJob, rows_nil hnone, hfind]
      dsimp only
      rw [if_pos]
      exact not_and_or.mp hno
    | _ => cases hkey
  | upload r =>
    rw [hrequest] at hkey hno
    cases row with
    | upload row =>
      have hfind : (uploads w.db.committed).find? (fun u => u.scope == r.scope &&
          u.idempotencyKey == r.idempotencyKey) = some row := by
        refine Table.find?_eq_of_unique (mem_uploads.mpr hrow) ?_ ?_
        · simp [(Key.uploadKey.inj hkey).1, (Key.uploadKey.inj hkey).2]
        · intro other hother hsame
          rw [Bool.and_eq_true, beq_iff_eq, beq_iff_eq] at hsame
          have hshared := eq_of_shared h.stored.unique (mem_uploads.mp hother) hrow
            (k := .uploadKey r.scope r.idempotencyKey)
            (by simp [Row.unique, hsame.1, hsame.2])
            (by simp [Row.unique, (Key.uploadKey.inj hkey).1, (Key.uploadKey.inj hkey).2])
          exact Row.upload.inj hshared
      dsimp only
      rw [existingUpload, rows_nil hnone, hfind]
      dsimp only
      rw [if_pos]
      exact hno
    | _ => cases hkey

end Steps

/-- A key has one row and its job one accepted event, every success of a key gives one
identifier, and a job has an accepted upload of its scope. No call succeeds against a row
which does not agree with it: its insert does nothing, its read ends in the conflict, and
neither step, nor a break of the connection, changes a committed row. -/
theorem idempotent_acceptance (n : ℕ) (as : List (Action n)) :
    let w := run step (initial n) as
    (∀ request : Request, (w.db.committed.filter (·.key == request.key)).length ≤ 1) ∧
    (∀ job ∈ jobs w.db.committed, ((events w.db.committed).filter fun e =>
        e.jobId == job.jobId && e.eventType == .accepted).length = 1 ∧
      Sourced w.db.committed job) ∧
    (∀ a ∈ w.reports, ∀ b ∈ w.reports, a.request.key = b.request.key →
      ∀ x y, a.outcome = .returned x → b.outcome = .returned y → x.id = y.id) ∧
    (∀ report ∈ w.reports, Differs w report.request →
      ∀ reply, report.outcome ≠ .returned reply) ∧
    ∀ i tx, w.db.sessions i = some tx → Differs w tx.program.request →
      (step w (.disconnect i)).db.committed = w.db.committed ∧
      ((tx.program.statement = .insert ∧ (tx.program.request.wellFormed = true →
          step w (.exec i) = goto w i tx .selectExisting)) ∨
        (tx.program.statement = .selectExisting ∧
          step w (.exec i) = fail w i tx .idempotencyConflict)) := by
  intro w
  have h : Inv w := reached_inv as
  refine ⟨?_,?_,?_,?_,?_⟩
  · intro request
    refine pairwise_filter (k := request.key) h.stored.unique ?_
    intro r _ hkey
    have hkey := beq_iff_eq.mp hkey
    rw [← hkey]
    exact request_key_unique hkey
  · exact fun job hjob => ⟨one_event h.stored hjob,h.stored.sources job hjob⟩
  · intro a ha b hb hkey x y hx hy
    obtain ⟨row,hrow,hrowKey,hagrees,hid⟩ := h.returned a ha x hx
    obtain ⟨row',hrow',hrowKey',hagrees',hid'⟩ := h.returned b hb y hy
    have hsame := eq_of_shared h.stored.unique hrow hrow' (agrees_unique hagrees)
      (by rw [hrowKey, hkey, ← hrowKey']; exact agrees_unique hagrees')
    rw [← hid, ← hid', hsame]
  · intro report hreport hdiffers reply hreply
    exact differs_unrecorded h hdiffers (h.returned report hreport reply hreply)
  · intro i tx htx hdiffers
    obtain ⟨hnone,hstatement⟩ := differs_statement h htx hdiffers
    refine ⟨?_,?_⟩
    · rw [step, htx]
      dsimp only
      rcases hstatement with hstatement | hstatement <;> rw [disconnect, hstatement] <;> rfl
    · rcases hstatement with hstatement | hstatement
      · exact Or.inl ⟨hstatement,differs_insert htx hdiffers hnone hstatement⟩
      · exact Or.inr ⟨hstatement,differs_select h htx hdiffers hnone hstatement⟩

end DocumentIntelligence.AcceptanceRaces
