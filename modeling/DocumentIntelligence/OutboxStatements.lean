import DocumentIntelligence.Commands
import DocumentIntelligence.ReadCommitted

/-!
# Outbox transactions statement by statement

The rows of one scope under concurrent create, cancel, claim and publish
transactions. A session executes one statement at a time; the two statements of
a claim which touch many rows take a snapshot and then visit one row at a time.
Updates wait for a locked row and read it again, the claim skips it. A session
which has to wait leaves the world as it is.
-/

set_option autoImplicit false

namespace DocumentIntelligence.OutboxStatements
open Identifiers hiding Error
open WorkScopes Schema Uploads Jobs Outbox
open ReadCommitted (Tx view holds Free setTx commitTx put merge Isolated)

inductive Row where
  | job (row : JobRow)
  | event (row : OutboxRow)
  | scope (row : WorkScopeRow)
  deriving DecidableEq

inductive Key where
  | job (jobId : JobId)
  | event (eventId : ℕ)
  | scope (scope : Scope)
  deriving DecidableEq

def Row.key : Row → Key
  | .job row => .job row.jobId
  | .event row => .event row.eventId
  | .scope row => .scope row.scope

def Row.job? : Row → Option JobRow
  | .job row => some row
  | _ => none

def Row.event? : Row → Option OutboxRow
  | .event row => some row
  | _ => none

def Row.scope? : Row → Option WorkScopeRow
  | .scope row => some row
  | _ => none

def jobs (rows : List Row) : List JobRow := rows.filterMap Row.job?
def events (rows : List Row) : List OutboxRow := rows.filterMap Row.event?
def scopes (rows : List Row) : List WorkScopeRow := rows.filterMap Row.scope?

/-- The statement which a session executes next, with its local values. -/
inductive Statement where
  | insertJob (request : CreateJob)
  | cancelJob (jobId : JobId)
  | insertEvent (jobId : JobId) (eventType : EventType)
  | register
  | deadLetter (claim : ClaimJobOutbox)
  | deadLetterRow (claim : ClaimJobOutbox) (todo : List ℕ)
  | selectCandidates (claim : ClaimJobOutbox)
  | leaseRow (claim : ClaimJobOutbox) (todo : List ℕ) (leased : ℕ)
  | publishEvent (eventId : ℕ) (owner : String)
  | selectPending
  | setPending (pending : Bool)
  | finish
  deriving DecidableEq

/-- `now` is the start of the transaction for all of its statements. -/
structure Program where
  now : ℤ
  statement : Statement
  deriving DecidableEq

structure World (n : ℕ) where
  db : ReadCommitted.World Row Program (Fin n)
  scope : Scope
  uploads : List UploadRow
  nextEventId : ℕ

inductive Request where
  | create (request : CreateJob)
  | cancel (jobId : JobId)
  | claim (claim : ClaimJobOutbox)
  | publish (eventId : ℕ) (owner : String)

/-- The first statement of a transaction. Invalid claims and publications are
refused before one begins. -/
def Request.first : Request → Option Statement
  | .create request => some (.insertJob request)
  | .cancel jobId => some (.cancelJob jobId)
  | .claim request =>
    if isValidLeaseOwner request.leaseOwner && decide (1 ≤ request.limit ∧ request.limit ≤ 100)
    then some (.deadLetter request) else none
  | .publish eventId owner =>
    if isValidLeaseOwner owner && eventId != 0 then some (.publishEvent eventId owner) else none

inductive Action (n : ℕ) where
  | start (i : Fin n) (now : ℤ) (request : Request)
  | exec (i : Fin n)
  | rollback (i : Fin n)

section Exec
variable {n : ℕ} (w : World n) (i : Fin n) (tx : Tx Row Program)

abbrev rows : List Row := view Row.key w.db tx
abbrev free (k : Key) : Prop := Free Row.key w.db i k

/-- Go on with the next statement. -/
def goto (s : Statement) : World n :=
  { w with db := setTx w.db i (some ⟨tx.writes,⟨tx.program.now,s⟩⟩) }

/-- Write a row and go on. -/
def write (r : Row) (s : Statement) : World n :=
  { w with db := setTx w.db i (some ⟨put Row.key r tx.writes,⟨tx.program.now,s⟩⟩) }

def rollback : World n := { w with db := setTx w.db i none }

def finish : World n := { w with db := commitTx Row.key w.db i tx }

/-- Another session has a job with one of the unique values uncommitted. -/
def contends (request : CreateJob) : Prop :=
  ∃ j, j ≠ i ∧ ((w.db.sessions j).any fun tx => (jobs tx.writes).any fun job =>
    job.idempotencyKey == request.idempotencyKey || job.jobId == request.jobId) = true

instance (request : CreateJob) : Decidable (contends w i request) :=
  inferInstanceAs (Decidable (∃ _, _))

/-- `on conflict … do nothing` finds a visible key first, then waits for an
uncommitted one. A transaction which inserts nothing only reads from then on. -/
def insertJob (request : CreateJob) : World n :=
  if (jobs (rows w tx)).any (·.idempotencyKey == request.idempotencyKey) then goto w i tx .finish
  else if !(w.uploads.any fun u =>
      isUpload w.scope request.uploadId u && u.status == .accepted) then rollback w i
  else if !extractionShape request.extraction then rollback w i
  else if contends w i request then w
  else if (jobs (rows w tx)).any (·.jobId == request.jobId) then rollback w i
  else write w i tx (.job (request.row tx.program.now)) (.insertEvent request.jobId .accepted)

def cancelJob (jobId : JobId) : World n :=
  match (jobs (rows w tx)).find? (·.jobId == jobId) with
  | none => goto w i tx .finish
  | some job =>
    if !cancellable job.status then goto w i tx .finish
    else if free w i (.job job.jobId) then
      write w i tx (.job (setStatus .cancelled job)) (.insertEvent jobId .cancellationRequested)
    else w

/-- The identity is drawn when the row is inserted and is never given back. -/
def insertEvent (jobId : JobId) (eventType : EventType) : World n :=
  { write w i tx (.event (newEvent w.nextEventId tx.program.now w.scope jobId eventType)) .register with
    nextEventId := w.nextEventId+1 }

/-- The directory row after `ocr_register_work_scope`. -/
def registered (now : ℤ) (scope : Scope) : Option WorkScopeRow → WorkScopeRow
  | none => newWorkScope now scope .dispatch
  | some row => row.register now .dispatch

def scopeRow : Option WorkScopeRow := (scopes (rows w tx)).find? (·.scope == w.scope)

def register : World n :=
  if free w i (.scope w.scope) then
    write w i tx (.scope (registered tx.program.now w.scope (scopeRow w tx))) .finish
  else w

def eventRow (eventId : ℕ) : Option OutboxRow :=
  (events (rows w tx)).find? (·.eventId == eventId)

/-- The row is read again when it is free, and left alone if it changed. -/
def deadLetterRow (claim : ClaimJobOutbox) (eventId : ℕ) (rest : List ℕ) : World n :=
  match eventRow w tx eventId with
  | none => goto w i tx (.deadLetterRow claim rest)
  | some row =>
    if !exhausted tx.program.now row then goto w i tx (.deadLetterRow claim rest)
    else if free w i (.event row.eventId) then
      write w i tx (.event (deadLetter tx.program.now row)) (.deadLetterRow claim rest)
    else w

/-- `for update skip locked limit …`. -/
def leaseRow (claim : ClaimJobOutbox) (eventId : ℕ) (rest : List ℕ) (leased : ℕ) : World n :=
  if leased = claim.limit then goto w i tx (.leaseRow claim [] leased)
  else match eventRow w tx eventId with
  | none => goto w i tx (.leaseRow claim rest leased)
  | some row =>
    if claimable tx.program.now claim.leaseOwner .job row ∧ free w i (.event row.eventId) then
      write w i tx (.event (lease tx.program.now claim.leaseOwner row))
        (.leaseRow claim rest (leased+1))
    else goto w i tx (.leaseRow claim rest leased)

def publishEvent (eventId : ℕ) (owner : String) : World n :=
  match eventRow w tx eventId with
  | none => goto w i tx .finish
  | some row =>
    if !publishable tx.program.now owner eventId row then goto w i tx .finish
    else if free w i (.event row.eventId) then
      write w i tx (.event (publish tx.program.now row)) .selectPending
    else w

def setPending (pending : Bool) : World n :=
  if free w i (.scope w.scope) then
    match scopeRow w tx with
    | none => goto w i tx .finish
    | some row => write w i tx (.scope (row.setPending tx.program.now .dispatch pending)) .finish
  else w

/-- The joins of a claim lose no leased event: every event has its job and
every job its upload. So the claim returns no row exactly if it leased none. -/
def exec : World n :=
  match tx.program.statement with
  | .insertJob request => insertJob w i tx request
  | .cancelJob jobId => cancelJob w i tx jobId
  | .insertEvent jobId eventType => insertEvent w i tx jobId eventType
  | .register => register w i tx
  | .deadLetter claim => goto w i tx (.deadLetterRow claim
      (((events (rows w tx)).filter (exhausted tx.program.now)).map (·.eventId)))
  | .deadLetterRow claim [] => goto w i tx (.selectCandidates claim)
  | .deadLetterRow claim (eventId::rest) => deadLetterRow w i tx claim eventId rest
  | .selectCandidates claim => goto w i tx (.leaseRow claim
      ((((events (rows w tx)).filter (claimable tx.program.now claim.leaseOwner .job)).map
        (·.eventId)).mergeSort fun a b => decide (a ≤ b)) 0)
  | .leaseRow _ [] leased => goto w i tx (if leased = 0 then .selectPending else .finish)
  | .leaseRow claim (eventId::rest) leased => leaseRow w i tx claim eventId rest leased
  | .publishEvent eventId owner => publishEvent w i tx eventId owner
  | .selectPending => goto w i tx (.setPending ((events (rows w tx)).any deliverable))
  | .setPending pending => setPending w i tx pending
  | .finish => finish w i tx

end Exec

def step {n : ℕ} (w : World n) : Action n → World n
  | .start i now request => match w.db.sessions i, request.first with
    | none, some s => { w with db := setTx w.db i (some ⟨[],⟨now,s⟩⟩) }
    | _, _ => w
  | .exec i => match w.db.sessions i with
    | none => w
    | some tx => exec w i tx
  | .rollback i => rollback w i

/-- No job of the scope was created yet; its uploads stand still. -/
def initial (n : ℕ) (scope : Scope) (uploads : List UploadRow) : World n :=
  ⟨⟨[],fun _ => none⟩,scope,uploads,1⟩

/-- With no transaction open, a deliverable event keeps the dispatch flag set. -/
def NoLostWakeup {n : ℕ} (w : World n) : Prop :=
  (∀ i, w.db.sessions i = none) → ∀ row ∈ events w.db.committed, deliverable row = true →
    Pending (scopes w.db.committed) w.scope .dispatch

/-- A statement which clears the flag does so when no deliverable event is
visible to it any more. -/
def ClearsInSight {n : ℕ} (w : World n) : Action n → Prop
  | .exec i => ∀ tx, w.db.sessions i = some tx → tx.program.statement = .setPending false →
      Free Row.key w.db i (.scope w.scope) →
      ∀ row ∈ events (view Row.key w.db tx), deliverable row = false
  | _ => True

instance {n : ℕ} (w : World n) : Decidable (NoLostWakeup w) :=
  inferInstanceAs (Decidable ((∀ i, w.db.sessions i = none) → ∀ row ∈ events w.db.committed, _))

instance {n : ℕ} (w : World n) (a : Action n) : Decidable (ClearsInSight w a) :=
  match a with
  | .start _ _ _ | .rollback _ => .isTrue trivial
  | .exec i => inferInstanceAs (Decidable (∀ tx ∈ w.db.sessions i,
      tx.program.statement = .setPending false → Free Row.key w.db i (.scope w.scope) →
      ∀ row ∈ events (view Row.key w.db tx), deliverable row = false))

theorem mem_jobs {rs : List Row} {row : JobRow} : row ∈ jobs rs ↔ .job row ∈ rs := by
  simp only [jobs, List.mem_filterMap]
  constructor
  · rintro ⟨r,hr,heq⟩
    cases r <;> cases heq
    exact hr
  · exact fun h => ⟨.job row,h,rfl⟩

theorem mem_events {rs : List Row} {row : OutboxRow} : row ∈ events rs ↔ .event row ∈ rs := by
  simp only [events, List.mem_filterMap]
  constructor
  · rintro ⟨r,hr,heq⟩
    cases r <;> cases heq
    exact hr
  · exact fun h => ⟨.event row,h,rfl⟩

theorem mem_scopes {rs : List Row} {row : WorkScopeRow} : row ∈ scopes rs ↔ .scope row ∈ rs := by
  simp only [scopes, List.mem_filterMap]
  constructor
  · rintro ⟨r,hr,heq⟩
    cases r <;> cases heq
    exact hr
  · exact fun h => ⟨.scope row,h,rfl⟩

end DocumentIntelligence.OutboxStatements
