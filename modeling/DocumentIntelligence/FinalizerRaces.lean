import DocumentIntelligence.Finalization

/-!
# Executions of the finalizer on one job

Executions cut at their queries, their writes to the object store and their transactions.
Any of them may end in a crash. The native document is cleared only after a commit, and
nobody commits twice, so an execution which finds the document cleared commits nothing.
-/

set_option autoImplicit false

namespace DocumentIntelligence.FinalizerRaces
open Identifiers hiding Error
open Schema Jobs PageWorkflowStore NativePages ResultArtifacts StorageLocations Transition
open DocumentResults (BuiltPage DocumentResult)
open ResultAssembly (observationIds nativeId nativeProfile)
open JobLifecycle (findResult finished)
open JobStatusCache (find)
open Table (ok_bind error_bind)
open Finalization

abbrev Outcome := Except DocumentFinalizeError CommitResultOutcome

/-- What an execution does next, with its local values. -/
inductive Phase (V : Type) where
  | lookup
  | found
  | loading
  | reading (state : JobState) (successful : ℕ)
  | assembling (state : JobState) (pages : List BuiltPage)
  | writing (state : JobState) (result : DocumentResult V)
  | verifying (state : JobState) (result : DocumentResult V)
  | committing (state : JobState) (result : DocumentResult V) (locator : StoredResultLocator)
  | cleaning (outcome : CommitResultOutcome)
  | done (outcome : Outcome)

/-- An execution is late if it started when the job had a result. -/
structure Running (V : Type) where
  execution : Execution
  late : Bool
  phase : Phase V

structure Report where
  late : Bool
  outcome : Outcome

structure System (V : Type) where
  world : World
  running : ℕ → Option (Running V)
  reports : List Report

inductive Action where
  | start (i : ℕ) (execution : Execution)
  | step (i : ℕ)
  | crash (i : ℕ)

section Step
variable {V : Type} (lib : Libraries V) (finalizer : DocumentFinalizer) (scope : Scope)
  (jobId : JobId)

def lookup (w : World) : Phase V :=
  if finalizer.nativeProcessing then
    match findResult w.store scope jobId with
    | .error e => .done (.error (.store e))
    | .ok (.ready _) => .found
    | .ok _ => .loading
  else .loading

def foundJob (w : World) : Phase V :=
  match find w.store scope jobId with
  | none => .done (.error .notReady)
  | some job => .done (.ok (.existing job))

def loadWorkflow (w : World) : Phase V :=
  match loaded (loadPageWorkflow w.store scope jobId) with
  | .error e => .done (.error e)
  | .ok stored => match terminalState stored.workflow with
    | .error e => .done (.error e)
    | .ok state => .reading state stored.workflow.successfulPageCount

def readArtifacts (execution : Execution) (w : World) (state : JobState) (successful : ℕ) :
    Phase V :=
  match storedPages lib scope jobId execution w.store successful with
  | .error e => .done (.error e)
  | .ok pages => .assembling state pages

def assemblePages (execution : Execution) (w : World) (state : JobState) (pages : List BuiltPage) :
    Phase V :=
  match assembled lib finalizer execution
      (loadNativeDurationMs w.store w.native scope jobId nativeProfileName) pages with
  | .error e => .done (.error e)
  | .ok result => .writing (reviewedState state result) result

def writeObject (execution : Execution) (w : World) (state : JobState)
    (result : DocumentResult V) : Phase V × World :=
  match prepareResultArtifact lib.formatF64 lib.formatValue finalizer.writer scope jobId result with
  | .error e => (.done (.error (.publish (.artifact e))),w)
  | .ok prepared =>
    let written := { w with objects := putResult prepared execution.version w.objects }
    match execution.reply with
    | .refused => (.done (.error (.publish (.artifact .unavailable))),w)
    | .lost => (.done (.error (.publish (.artifact .unavailable))),written)
    | .answered => (.verifying state result,written)

def verifyObject (w : World) (state : JobState) (result : DocumentResult V) : Phase V :=
  match prepareResultArtifact lib.formatF64 lib.formatValue finalizer.writer scope jobId result with
  | .error e => .done (.error (.publish (.artifact e)))
  | .ok prepared =>
    match readBack lib.sha256 result prepared (ObjectStorage.current w.objects prepared.path) with
    | .error e => .done (.error (.publish (.artifact e)))
    | .ok locator => .committing state result locator

def commitObject (execution : Execution) (w : World) (state : JobState)
    (result : DocumentResult V) (locator : StoredResultLocator) : Phase V × World :=
  match commitLocator scope jobId w.store execution.now state result locator with
  | .error e => (.done (.error (.publish e)),w)
  | .ok (outcome,s) => (.cleaning outcome,{ w with store := s })

/-- The next query, write or transaction of an execution. -/
def advance (execution : Execution) (w : World) : Phase V → Phase V × World
  | .lookup => (lookup finalizer scope jobId w,w)
  | .found => (foundJob scope jobId w,w)
  | .loading => (loadWorkflow scope jobId w,w)
  | .reading state successful => (readArtifacts lib scope jobId execution w state successful,w)
  | .assembling state pages =>
    (assemblePages lib finalizer scope jobId execution w state pages,w)
  | .writing state result => writeObject lib finalizer scope jobId execution w state result
  | .verifying state result => (verifyObject lib finalizer scope jobId w state result,w)
  | .committing state result locator =>
    commitObject scope jobId execution w state result locator
  | .cleaning outcome => (.done (.ok outcome),clean finalizer scope jobId execution outcome w)
  | .done outcome => (.done outcome,w)

def committed (s : Store) : Bool := s.results.any (·.jobId == jobId)

/-- The execution goes on, or ends with its report. -/
def System.resume (σ : System V) (i : ℕ) (running : Running V) (w : World) : System V :=
  match running.phase with
  | .done outcome =>
    ⟨w,Function.update σ.running i none,⟨running.late,outcome⟩::σ.reports⟩
  | _ => ⟨w,Function.update σ.running i (some running),σ.reports⟩

def step (σ : System V) : Action → System V
  | .start i execution => match σ.running i with
    | some _ => σ
    | none => ⟨σ.world,Function.update σ.running i
        (some ⟨execution,committed jobId σ.world.store,.lookup⟩),σ.reports⟩
  | .step i => match σ.running i with
    | none => σ
    | some running =>
      let (phase,w) := advance lib finalizer scope jobId running.execution σ.world running.phase
      σ.resume i ⟨running.execution,running.late,phase⟩ w
  | .crash i => ⟨σ.world,Function.update σ.running i none,σ.reports⟩

def initial (w : World) : System V := ⟨w,fun _ => none,[]⟩

/-- So many steps of one execution which nobody interrupts. -/
def alone (execution : Execution) : ℕ → Phase V × World → Phase V × World
  | 0,x => x
  | n+1,x => alone execution n (advance lib finalizer scope jobId execution x.2 x.1)

end Step

section Alone
variable {V : Type} {lib : Libraries V} {finalizer : DocumentFinalizer} {scope : Scope}
  {jobId : JobId} {execution : Execution} {w : World}

theorem alone_done (outcome : Outcome) (n : ℕ) :
    alone lib finalizer scope jobId execution n (.done outcome,w) = (.done outcome,w) := by
  induction n with
  | zero => rfl
  | succ n ih => exact ih

theorem alone_loading :
    alone lib finalizer scope jobId execution 9 (.loading,w) =
      match prepare lib finalizer scope jobId execution w with
      | .error e => (.done (.error e),w)
      | .ok (state,result) => alone lib finalizer scope jobId execution 6 (.writing state result,w) := by
  show alone lib finalizer scope jobId execution 8 (loadWorkflow scope jobId w,w) = _
  rw [loadWorkflow, prepare]
  cases loaded (loadPageWorkflow w.store scope jobId) with
  | error e =>
    simp only [error_bind]
    exact alone_done _ 8
  | ok stored =>
    simp only [ok_bind]
    cases terminalState stored.workflow with
    | error e =>
      simp only [error_bind]
      exact alone_done _ 8
    | ok state =>
      simp only [ok_bind]
      show alone lib finalizer scope jobId execution 7 (readArtifacts lib scope jobId execution w
        state stored.workflow.successfulPageCount,w) = _
      rw [readArtifacts]
      cases storedPages lib scope jobId execution w.store stored.workflow.successfulPageCount with
      | error e =>
        simp only [error_bind]
        exact alone_done _ 7
      | ok pages =>
        simp only [ok_bind]
        show alone lib finalizer scope jobId execution 6 (assemblePages lib finalizer scope jobId
          execution w state pages,w) = _
        rw [assemblePages]
        cases assembled lib finalizer execution
            (loadNativeDurationMs w.store w.native scope jobId nativeProfileName) pages with
        | error e =>
          simp only [error_bind]
          exact alone_done _ 6
        | ok result => rfl

theorem alone_publish (state : JobState) (result : DocumentResult V) :
    alone lib finalizer scope jobId execution 6 (.writing state result,w) =
      match publish lib finalizer scope jobId execution w state result with
      | (.error e,w) => (.done (.error (.publish e)),w)
      | (.ok outcome,w) =>
        (.done (.ok outcome),clean finalizer scope jobId execution outcome w) := by
  show alone lib finalizer scope jobId execution 5
    (writeObject lib finalizer scope jobId execution w state result) = _
  rw [publish, write, writeObject]
  cases hprepared : prepareResultArtifact lib.formatF64 lib.formatValue finalizer.writer scope jobId
      result with
  | error e => exact alone_done _ 5
  | ok prepared =>
    cases execution.reply with
    | refused => exact alone_done _ 5
    | lost => exact alone_done _ 5
    | answered =>
      show alone lib finalizer scope jobId execution 4 (verifyObject lib finalizer scope jobId
        { w with objects := putResult prepared execution.version w.objects } state result,
          { w with objects := putResult prepared execution.version w.objects }) = _
      rw [verifyObject, hprepared]
      dsimp only
      cases readBack lib.sha256 result prepared (ObjectStorage.current
          (putResult prepared execution.version w.objects) prepared.path) with
      | error e => exact alone_done _ 4
      | ok locator =>
        show alone lib finalizer scope jobId execution 3 (commitObject scope jobId execution
          { w with objects := putResult prepared execution.version w.objects } state result
            locator) = _
        rw [commitObject]
        dsimp only
        cases commitLocator scope jobId w.store execution.now state result locator with
        | error e => exact alone_done _ 3
        | ok x => exact alone_done _ 2

theorem alone_assembles (hnone : committedResult finalizer scope jobId w.store = none) :
    alone lib finalizer scope jobId execution 9 (.loading,w) =
      (.done (finalize lib finalizer scope jobId execution w).1,
        (finalize lib finalizer scope jobId execution w).2) := by
  rw [alone_loading, finalize, hnone]
  cases prepare lib finalizer scope jobId execution w with
  | error e => rfl
  | ok prepared =>
    dsimp only
    rw [alone_publish]
    obtain ⟨published,w'⟩ := publish lib finalizer scope jobId execution w prepared.1 prepared.2
    cases published with
    | error e => rfl
    | ok outcome => rfl

/-- An execution which nobody interrupts is the function. -/
theorem alone_finalize :
    alone lib finalizer scope jobId execution 10 (.lookup,w) =
      (.done (finalize lib finalizer scope jobId execution w).1,
        (finalize lib finalizer scope jobId execution w).2) := by
  show alone lib finalizer scope jobId execution 9 (lookup finalizer scope jobId w,w) = _
  by_cases hnative : finalizer.nativeProcessing = true
  · rw [lookup, if_pos hnative]
    cases hfound : findResult w.store scope jobId with
    | error e =>
      rw [finalize, committedResult, if_pos hnative, hfound]
      exact alone_done _ 9
    | ok found =>
      cases found with
      | ready locator =>
        show alone lib finalizer scope jobId execution 8 (foundJob scope jobId w,w) = _
        rw [finalize, committedResult, if_pos hnative, hfound, foundJob]
        dsimp only
        cases find w.store scope jobId with
        | none => exact alone_done _ 8
        | some job => exact alone_done _ 8
      | notFound | notReady | unavailable =>
        exact alone_assembles (by rw [committedResult, if_pos hnative, hfound])
  · rw [lookup, if_neg hnative]
    exact alone_assembles (by rw [committedResult, if_neg hnative])

end Alone

/-! ### Invariants -/

section Races
variable {V : Type} {lib : Libraries V} {finalizer : DocumentFinalizer} {scope : Scope}
  {jobId : JobId}

/-- A result with the duration of the native document, and not of mixed provenance. -/
def Native (durationMs : ℕ) (result : DocumentResult V) : Prop :=
  result.durationMs = some durationMs ∧
    ∃ provider, result.provider = some provider ∧ provider ≠ "legacy-mixed"

variable (lib scope jobId) in
/-- The job has its result, which is native and is found. -/
structure Committed (w₀ : World) (durationMs : ℕ) (w : World) : Prop where
  row : ∃ locator result, w.store.results = w₀.store.results++[⟨jobId,scope,locator⟩] ∧
    Holds lib.formatF64 lib.formatValue lib.sha256 w.objects locator result ∧
    Native durationMs result
  ready : ∃ locator, findResult w.store scope jobId = .ok (.ready locator)
  found : ∃ job, find w.store scope jobId = some job

/-- Nothing was committed, and nothing cleared. -/
def Untouched (w₀ w : World) : Prop := w.store = w₀.store ∧ w.native = w₀.native

variable (lib scope jobId) in
def PhaseOk (w₀ : World) (durationMs : ℕ) (w : World) : Phase V → Prop
  | .assembling _ pages => ∀ id ∈ observationIds pages, nativeId id = true
  | .writing _ result | .verifying _ result =>
    Native durationMs result ∨ Committed lib scope jobId w₀ durationMs w
  | .committing _ result locator => (Native durationMs result ∧
      Holds lib.formatF64 lib.formatValue lib.sha256 w.objects locator result) ∨
    Committed lib scope jobId w₀ durationMs w
  | .cleaning outcome => published outcome = true → Committed lib scope jobId w₀ durationMs w
  | _ => True

/-- What a late execution does. -/
def LateOk : Phase V → Prop
  | .lookup | .found => True
  | .done outcome => ∃ job, outcome = .ok (.existing job)
  | _ => False

variable (lib) in
/-- The pages which an execution reads have identifiers of the native extraction and of
the remote recognizer only. -/
def NativeReads (execution : Execution) : Prop :=
  ∀ artifact page, pageOf lib execution artifact = .ok page →
    ∀ id ∈ observationIds [page], nativeId id = true

variable (lib scope jobId) in
structure Inv (w₀ : World) (durationMs : ℕ) (σ : System V) : Prop where
  stage : Untouched w₀ σ.world ∨ Committed lib scope jobId w₀ durationMs σ.world
  phases : ∀ i running, σ.running i = some running →
    PhaseOk lib scope jobId w₀ durationMs σ.world running.phase ∧ NativeReads lib running.execution
  late : ∀ i running, σ.running i = some running → running.late = true →
    LateOk running.phase ∧ Committed lib scope jobId w₀ durationMs σ.world
  reports : ∀ report ∈ σ.reports, report.late = true → ∃ job, report.outcome = .ok (.existing job)

variable {w₀ w w' : World} {durationMs : ℕ} {execution : Execution}

theorem committed_grows (h : Committed lib scope jobId w₀ durationMs w) (hstore : w'.store = w.store)
    (hobjects : ∀ o ∈ w.objects, o ∈ w'.objects) : Committed lib scope jobId w₀ durationMs w' := by
  obtain ⟨locator,result,hresults,hholds,hnative⟩ := h.row
  constructor
  · exact ⟨locator,result,by rw [hstore, hresults],holds_of_subset hobjects hholds,hnative⟩
  · rw [hstore]
    exact h.ready
  · rw [hstore]
    exact h.found

variable (lib scope jobId) in
/-- What a step of an execution leads to. -/
structure Advanced (w₀ : World) (durationMs : ℕ) (w w' : World) (phase : Phase V) : Prop where
  stage : Untouched w₀ w' ∨ Committed lib scope jobId w₀ durationMs w'
  objects : ∀ o ∈ w.objects, o ∈ w'.objects
  committed : Committed lib scope jobId w₀ durationMs w →
    Committed lib scope jobId w₀ durationMs w' ∧ w'.store = w.store
  phase : PhaseOk lib scope jobId w₀ durationMs w' phase

theorem advanced_reads {phase : Phase V}
    (hstage : Untouched w₀ w ∨ Committed lib scope jobId w₀ durationMs w)
    (hphase : PhaseOk lib scope jobId w₀ durationMs w phase) :
    Advanced lib scope jobId w₀ durationMs w w phase :=
  ⟨hstage,fun _ h => h,fun h => ⟨h,rfl⟩,hphase⟩

theorem lookup_ok : PhaseOk lib scope jobId w₀ durationMs w
    (lookup finalizer scope jobId w : Phase V) := by
  unfold lookup
  split
  · split <;> trivial
  · trivial

theorem foundJob_ok : PhaseOk lib scope jobId w₀ durationMs w
    (foundJob scope jobId w : Phase V) := by
  unfold foundJob
  split <;> trivial

theorem loadWorkflow_ok : PhaseOk lib scope jobId w₀ durationMs w
    (loadWorkflow scope jobId w : Phase V) := by
  unfold loadWorkflow
  split
  · trivial
  · split <;> trivial

theorem readArtifacts_ok (hreads : NativeReads lib execution) (state : JobState) (successful : ℕ) :
    PhaseOk lib scope jobId w₀ durationMs w
      (readArtifacts lib scope jobId execution w state successful) := by
  unfold readArtifacts
  split
  · trivial
  rename_i pages hpages
  obtain ⟨artifacts,_,_,hread⟩ := storedPages_ok hpages
  show ∀ id ∈ observationIds pages, nativeId id = true
  clear hpages
  generalize execution.arrive artifacts = arrived at hread
  induction hread with
  | nil => exact fun _ hid => absurd hid List.not_mem_nil
  | cons hpage _ ih =>
    intro id hid
    rw [observationIds, List.flatMap_cons, List.mem_append] at hid
    rcases hid with hid | hid
    · refine hreads _ _ hpage id ?_
      rw [observationIds, List.flatMap_cons, List.mem_append]
      exact Or.inl hid
    · exact ih id hid

theorem nativeProfile_named {pages : List BuiltPage}
    (h : ∀ id ∈ observationIds pages, nativeId id = true) :
    (nativeProfile pages).1 ≠ "legacy-mixed" := by
  have hany : ((observationIds pages).any fun id => !nativeId id) = false := by
    rw [List.any_eq_false]
    intro id hid
    simp [h id hid]
  rw [nativeProfile, if_neg (by rw [hany]; decide)]
  split <;> decide

/-- Pages with such identifiers and a stored duration become a native result. -/
theorem assembled_native {pages : List BuiltPage} {result : DocumentResult V}
    (hnative : finalizer.nativeProcessing = true)
    (hids : ∀ id ∈ observationIds pages, nativeId id = true)
    (h : assembled lib finalizer execution (some durationMs) pages = .ok result) :
    Native durationMs result := by
  obtain ⟨provenance,_,hprovenance,_,_,hduration,hprovider,_⟩ := assembled_failures (assembled_ok h)
  rw [assemblyMode, if_pos hnative] at hprovenance
  obtain ⟨profile,hprofile,hprovenance⟩ := Table.bind_ok.mp hprovenance
  obtain ⟨hname,hms⟩ := newProvenance_ok (ResultAssembly.liftDomain_ok.mp hprofile)
  rw [← Except.ok.inj hprovenance] at hduration hprovider
  refine ⟨?_,profile.provider,hprovider,?_⟩
  · rw [hduration, Option.map_some, hms]
  · rw [hname]
    exact nativeProfile_named hids

theorem assemblePages_ok (hnative : finalizer.nativeProcessing = true)
    (hdocument : loadNativeDurationMs w₀.store w₀.native scope jobId nativeProfileName =
      some durationMs)
    (hstage : Untouched w₀ w ∨ Committed lib scope jobId w₀ durationMs w) {pages : List BuiltPage}
    (hids : ∀ id ∈ observationIds pages, nativeId id = true) (state : JobState) :
    PhaseOk lib scope jobId w₀ durationMs w
      (assemblePages lib finalizer scope jobId execution w state pages) := by
  unfold assemblePages
  split
  · trivial
  rename_i result hassembled
  rcases hstage with ⟨hstore,hrows⟩ | hcommitted
  · rw [hstore, hrows, hdocument] at hassembled
    exact Or.inl (assembled_native hnative hids hassembled)
  · exact Or.inr hcommitted

theorem committed_put (h : Committed lib scope jobId w₀ durationMs w)
    (prepared : PreparedResultArtifact) (version : Option String) :
    Committed lib scope jobId w₀ durationMs
      { w with objects := putResult prepared version w.objects } :=
  committed_grows h rfl (put_subset prepared version w.objects)

theorem put_advanced (hstage : Untouched w₀ w ∨ Committed lib scope jobId w₀ durationMs w)
    (prepared : PreparedResultArtifact) (version : Option String) {phase : Phase V}
    (hphase : PhaseOk lib scope jobId w₀ durationMs
      { w with objects := putResult prepared version w.objects } phase) :
    Advanced lib scope jobId w₀ durationMs w
      { w with objects := putResult prepared version w.objects } phase where
  stage := by
    rcases hstage with huntouched | hcommitted
    · exact Or.inl huntouched
    · exact Or.inr (committed_put hcommitted prepared version)
  objects := put_subset prepared version w.objects
  committed h := ⟨committed_put h prepared version,rfl⟩
  phase := hphase

theorem writeObject_advanced (hstage : Untouched w₀ w ∨ Committed lib scope jobId w₀ durationMs w)
    {state : JobState} {result : DocumentResult V}
    (h : Native durationMs result ∨ Committed lib scope jobId w₀ durationMs w) :
    Advanced lib scope jobId w₀ durationMs w
      (writeObject lib finalizer scope jobId execution w state result).2
      (writeObject lib finalizer scope jobId execution w state result).1 := by
  unfold writeObject
  split
  · exact advanced_reads hstage trivial
  rename_i prepared _
  split
  · exact advanced_reads hstage trivial
  · exact put_advanced hstage prepared execution.version trivial
  · refine put_advanced hstage prepared execution.version ?_
    exact h.imp_right fun hcommitted => committed_put hcommitted prepared execution.version

theorem verifyObject_ok {state : JobState} {result : DocumentResult V}
    (h : Native durationMs result ∨ Committed lib scope jobId w₀ durationMs w) :
    PhaseOk lib scope jobId w₀ durationMs w
      (verifyObject lib finalizer scope jobId w state result) := by
  unfold verifyObject
  split
  · trivial
  rename_i prepared hprepared
  split
  · trivial
  rename_i locator hread
  exact h.imp_left fun hnative => ⟨hnative,readBack_ok hprepared hread⟩

/-! A commit needs that the job has no result. -/

theorem commitLocator_cases {state : JobState} {result : DocumentResult V}
    {locator : StoredResultLocator} {now : ℤ} {s s' : Store} {outcome : CommitResultOutcome}
    (h : commitLocator scope jobId s now state result locator = .ok (outcome,s')) :
    (s' = s ∧ (published outcome = true → ∃ r ∈ s.results, r.jobId = jobId)) ∨
      ∃ job eventType, s.jobs.find? (isJob scope jobId) = some job ∧
        s.results.find? (isResult scope jobId) = none ∧ terminalEvent state = some eventType ∧
        validateLocator locator = true ∧ s' = commitRow s now job ⟨locator,state⟩ eventType := by
  rw [commitLocator] at h
  split_ifs at h
  split at h
  · exact absurd h (by simp)
  rename_i x hcommit
  rw [Except.ok.injEq] at h
  rw [h, commitResult] at hcommit
  split at hcommit
  · exact absurd hcommit (by simp)
  rename_i hvalid
  split at hcommit
  · exact absurd hcommit (by simp)
  rename_i eventType hevent
  split at hcommit
  · rw [Except.ok.injEq, Prod.mk.injEq] at hcommit
    exact Or.inl ⟨hcommit.2.symm,by simp [← hcommit.1, published]⟩
  rename_i job hjob
  split at hcommit
  · rename_i existing hexisting
    obtain ⟨hmem,hkey⟩ := Table.mem_of_find? hexisting
    rw [isResult, Bool.and_eq_true, beq_iff_eq, beq_iff_eq] at hkey
    split at hcommit
    · exact absurd hcommit (by simp)
    split at hcommit
    · rw [Except.ok.injEq, Prod.mk.injEq] at hcommit
      exact Or.inl ⟨hcommit.2.symm,fun _ => ⟨existing,hmem,hkey.2⟩⟩
    · rw [Except.ok.injEq, Prod.mk.injEq] at hcommit
      exact Or.inl ⟨hcommit.2.symm,by simp [← hcommit.1, published]⟩
  rename_i hnone
  split at hcommit
  · rw [Except.ok.injEq, Prod.mk.injEq] at hcommit
    exact Or.inl ⟨hcommit.2.symm,by simp [← hcommit.1, published]⟩
  split at hcommit
  · exact absurd hcommit (by simp)
  rw [Except.ok.injEq, Prod.mk.injEq] at hcommit
  exact Or.inr ⟨job,eventType,hjob,hnone,hevent,by simpa using hvalid,hcommit.2.symm⟩

theorem commitRow_jobs (s : Store) (now : ℤ) (job : JobRow) (command : CommitResult)
    (eventType : EventType) :
    (commitRow s now job command eventType).jobs =
      Table.update (isJob job.scope job.jobId) (setStatus command.terminalState) s.jobs := by
  unfold commitRow
  split <;> rfl

/-- The first commit, of a native result whose object is stored. -/
theorem first_commit {state : JobState} {result : DocumentResult V} {locator : StoredResultLocator}
    {job : JobRow} {eventType : EventType} (now : ℤ)
    (hnone : ∀ r ∈ w₀.store.results, r.jobId ≠ jobId) (hstore : w.store = w₀.store)
    (hjob : w.store.jobs.find? (isJob scope jobId) = some job)
    (hevent : terminalEvent state = some eventType) (hvalid : validateLocator locator = true)
    (hnative : Native durationMs result)
    (hholds : Holds lib.formatF64 lib.formatValue lib.sha256 w.objects locator result) :
    Committed lib scope jobId w₀ durationMs
      { w with store := commitRow w.store now job ⟨locator,state⟩ eventType } := by
  obtain ⟨hscope,hid⟩ := (Commands.isJob_iff _ _ _).mp (Table.mem_of_find? hjob).2
  have hresults : (commitRow w.store now job ⟨locator,state⟩ eventType).results =
      w₀.store.results++[⟨jobId,scope,locator⟩] := by
    rw [commitRow_results, hscope, hid, hstore]
  have hfind : (commitRow w.store now job ⟨locator,state⟩ eventType).jobs.find?
      (isJob scope jobId) = some (setStatus state job) := by
    have hkey : ∀ x, isJob scope jobId (setStatus state x) = isJob scope jobId x := fun _ => rfl
    rw [commitRow_jobs, hscope, hid]
    show (Table.update (isJob scope jobId) (setStatus state) w.store.jobs).find? _ = _
    rw [Table.find?_update hkey, hjob]
    rfl
  have hrow : (commitRow w.store now job ⟨locator,state⟩ eventType).results.find?
      (·.jobId == (setStatus state job).jobId) = some ⟨jobId,scope,locator⟩ := by
    have hold : w₀.store.results.find? (·.jobId == jobId) = none := by
      rw [List.find?_eq_none]
      intro r hr
      simpa using hnone r hr
    rw [hresults, List.find?_append, show (setStatus state job).jobId = jobId from hid, hold]
    simp
  refine ⟨⟨locator,result,hresults,hholds,hnative⟩,⟨locator,?_⟩,⟨storedJob (setStatus state job),?_⟩⟩
  · have hfinished : finished (setStatus state job).status = true := by
      show (terminalEvent state).isSome = true
      rw [hevent]
      rfl
    rw [findResult, hfind]
    dsimp only
    rw [hrow]
    simp only [hfinished, hvalid, Bool.not_true, Bool.false_eq_true, if_false]
  · rw [find, hfind]
    rfl

theorem commitObject_advanced (hnone : ∀ r ∈ w₀.store.results, r.jobId ≠ jobId)
    (hstage : Untouched w₀ w ∨ Committed lib scope jobId w₀ durationMs w) {state : JobState}
    {result : DocumentResult V} {locator : StoredResultLocator}
    (h : (Native durationMs result ∧
        Holds lib.formatF64 lib.formatValue lib.sha256 w.objects locator result) ∨
      Committed lib scope jobId w₀ durationMs w) :
    Advanced lib scope jobId w₀ durationMs w
      (commitObject scope jobId execution w state result locator : Phase V × World).2
      (commitObject scope jobId execution w state result locator).1 := by
  unfold commitObject
  split
  · exact advanced_reads hstage trivial
  rename_i outcome s' hcommit
  rcases commitLocator_cases hcommit with ⟨rfl,hpublished⟩ | ⟨job,eventType,hjob,hfree,hevent,hvalid,rfl⟩
  · refine advanced_reads hstage ?_
    intro hyes
    rcases hstage with ⟨hstore,_⟩ | hcommitted
    · obtain ⟨r,hr,hid⟩ := hpublished hyes
      rw [hstore] at hr
      exact absurd hid (hnone r hr)
    · exact hcommitted
  · have hopen : ¬Committed lib scope jobId w₀ durationMs w := by
      intro hcommitted
      obtain ⟨locator,result,hresults,_⟩ := hcommitted.row
      refine List.find?_eq_none.mp hfree ⟨jobId,scope,locator⟩ ?_ (by simp [isResult])
      rw [hresults]
      exact List.mem_append_right _ List.mem_cons_self
    obtain ⟨hnative,hholds⟩ := h.resolve_right hopen
    obtain ⟨hstore,_⟩ := hstage.resolve_right hopen
    have hcommitted := first_commit (w := w) execution.now hnone hstore hjob hevent hvalid hnative
      hholds
    exact ⟨Or.inr hcommitted,fun _ ho => ho,fun hdone => absurd hdone hopen,fun _ => hcommitted⟩

theorem clean_advanced (hstage : Untouched w₀ w ∨ Committed lib scope jobId w₀ durationMs w)
    {outcome : CommitResultOutcome}
    (h : published outcome = true → Committed lib scope jobId w₀ durationMs w) :
    Advanced lib scope jobId w₀ durationMs w (clean finalizer scope jobId execution outcome w)
      (.done (.ok outcome)) := by
  obtain ⟨hstore,hobjects⟩ := clean_kept finalizer scope jobId execution outcome w
  have hgrows : ∀ o ∈ w.objects, o ∈ (clean finalizer scope jobId execution outcome w).objects := by
    rw [hobjects]
    exact fun _ ho => ho
  refine ⟨?_,hgrows,fun hdone => ⟨committed_grows hdone hstore hgrows,hstore⟩,trivial⟩
  by_cases hyes : published outcome = true
  · exact Or.inr (committed_grows (h hyes) hstore hgrows)
  · have hkept : clean finalizer scope jobId execution outcome w = w := by
      unfold clean
      rw [if_neg]
      simp [hyes]
    rw [hkept]
    exact hstage

theorem advance_advanced (hnative : finalizer.nativeProcessing = true)
    (hdocument : loadNativeDurationMs w₀.store w₀.native scope jobId nativeProfileName =
      some durationMs) (hnone : ∀ r ∈ w₀.store.results, r.jobId ≠ jobId)
    (hreads : NativeReads lib execution)
    (hstage : Untouched w₀ w ∨ Committed lib scope jobId w₀ durationMs w) {phase : Phase V}
    (hphase : PhaseOk lib scope jobId w₀ durationMs w phase) :
    Advanced lib scope jobId w₀ durationMs w
      (advance lib finalizer scope jobId execution w phase).2
      (advance lib finalizer scope jobId execution w phase).1 := by
  cases phase with
  | lookup => exact advanced_reads hstage lookup_ok
  | found => exact advanced_reads hstage foundJob_ok
  | loading => exact advanced_reads hstage loadWorkflow_ok
  | reading state successful => exact advanced_reads hstage (readArtifacts_ok hreads state successful)
  | assembling state pages =>
    exact advanced_reads hstage (assemblePages_ok hnative hdocument hstage hphase state)
  | writing state result => exact writeObject_advanced hstage hphase
  | verifying state result => exact advanced_reads hstage (verifyObject_ok hphase)
  | committing state result locator => exact commitObject_advanced hnone hstage hphase
  | cleaning outcome => exact clean_advanced hstage hphase
  | done outcome => exact advanced_reads hstage trivial

theorem advance_late (hnative : finalizer.nativeProcessing = true)
    (hcommitted : Committed lib scope jobId w₀ durationMs w) {phase : Phase V} (hlate : LateOk phase) :
    LateOk (advance lib finalizer scope jobId execution w phase).1 := by
  cases phase with
  | lookup =>
    obtain ⟨locator,hready⟩ := hcommitted.ready
    show LateOk (lookup finalizer scope jobId w)
    rw [lookup, if_pos hnative, hready]
    trivial
  | found =>
    obtain ⟨job,hfind⟩ := hcommitted.found
    show LateOk (foundJob scope jobId w)
    rw [foundJob, hfind]
    exact ⟨job,rfl⟩
  | done outcome => exact hlate
  | _ => exact absurd hlate id

theorem phaseOk_grows (hobjects : ∀ o ∈ w.objects, o ∈ w'.objects)
    (hcommitted : Committed lib scope jobId w₀ durationMs w →
      Committed lib scope jobId w₀ durationMs w') {phase : Phase V}
    (h : PhaseOk lib scope jobId w₀ durationMs w phase) :
    PhaseOk lib scope jobId w₀ durationMs w' phase := by
  cases phase with
  | writing state result => exact h.imp_right hcommitted
  | verifying state result => exact h.imp_right hcommitted
  | committing state result locator =>
    exact h.imp (fun hnative => ⟨hnative.1,holds_of_subset hobjects hnative.2⟩) hcommitted
  | cleaning outcome => exact fun hyes => hcommitted (h hyes)
  | assembling state pages => exact h
  | _ => trivial

theorem committed_of_row (h : Committed lib scope jobId w₀ durationMs w) :
    committed jobId w.store = true := by
  obtain ⟨locator,result,hresults,_⟩ := h.row
  rw [committed, hresults, List.any_append]
  simp

/-- An execution which runs after an update is the updated one or ran before. -/
theorem update_cases {executions : ℕ → Option (Running V)} {i j : ℕ}
    {new : Option (Running V)} {running : Running V}
    (h : Function.update executions i new j = some running) :
    new = some running ∨ executions j = some running := by
  by_cases hji : j = i
  · rw [hji, Function.update_self] at h
    exact Or.inl h
  · rw [Function.update_of_ne hji] at h
    exact Or.inr h

/-- A system after a step of one execution, which goes on with its next phase. -/
theorem resume_inv {σ : System V} (h : Inv lib scope jobId w₀ durationMs σ) {i : ℕ}
    {running : Running V} (hrunning : σ.running i = some running) {phase : Phase V} {w : World}
    (hadvanced : Advanced lib scope jobId w₀ durationMs σ.world w phase)
    (hlate : running.late = true → LateOk phase) :
    Inv lib scope jobId w₀ durationMs
      (σ.resume i ⟨running.execution,running.late,phase⟩ w) := by
  have hcommitted := fun hdone => (hadvanced.committed hdone).1
  have hphases : ∀ j other, σ.running j = some other →
      PhaseOk lib scope jobId w₀ durationMs w other.phase ∧ NativeReads lib other.execution := by
    intro j other hother
    obtain ⟨hphase,hreads⟩ := h.phases j other hother
    exact ⟨phaseOk_grows hadvanced.objects hcommitted hphase,hreads⟩
  have hlates : ∀ j other, σ.running j = some other → other.late = true →
      LateOk other.phase ∧ Committed lib scope jobId w₀ durationMs w := by
    intro j other hother hyes
    obtain ⟨hok,hdone⟩ := h.late j other hother hyes
    exact ⟨hok,hcommitted hdone⟩
  have hcontinues : Inv lib scope jobId w₀ durationMs (⟨w,Function.update σ.running i
      (some ⟨running.execution,running.late,phase⟩),σ.reports⟩ : System V) := by
    refine ⟨hadvanced.stage,?_,?_,h.reports⟩
    · intro j other hother
      rcases update_cases hother with hnew | hold
      · rw [← Option.some.inj hnew]
        exact ⟨hadvanced.phase,(h.phases i running hrunning).2⟩
      · exact hphases j other hold
    · intro j other hother hyes
      rcases update_cases hother with hnew | hold
      · rw [← Option.some.inj hnew] at hyes ⊢
        exact ⟨hlate hyes,hcommitted (h.late i running hrunning hyes).2⟩
      · exact hlates j other hold hyes
  cases phase with
  | done outcome =>
    refine ⟨hadvanced.stage,?_,?_,?_⟩
    · intro j other hother
      rcases update_cases hother with hnew | hold
      · cases hnew
      · exact hphases j other hold
    · intro j other hother
      rcases update_cases hother with hnew | hold
      · cases hnew
      · exact hlates j other hold
    · intro report hreport hyes
      rcases List.mem_cons.mp hreport with rfl | hreport
      · exact hlate hyes
      · exact h.reports report hreport hyes
  | _ => exact hcontinues

variable (lib) in
def NativeAction : Action → Prop
  | .start _ execution => NativeReads lib execution
  | _ => True

theorem step_inv (hnative : finalizer.nativeProcessing = true)
    (hdocument : loadNativeDurationMs w₀.store w₀.native scope jobId nativeProfileName =
      some durationMs) (hnone : ∀ r ∈ w₀.store.results, r.jobId ≠ jobId)
    {σ : System V} (h : Inv lib scope jobId w₀ durationMs σ) {a : Action}
    (hreads : NativeAction lib a) :
    Inv lib scope jobId w₀ durationMs (step lib finalizer scope jobId σ a) := by
  cases a with
  | start i execution =>
    simp only [step]
    cases hrunning : σ.running i with
    | some running => exact h
    | none =>
      refine ⟨h.stage,?_,?_,h.reports⟩
      · intro j other hother
        rcases update_cases hother with hnew | hold
        · rw [← Option.some.inj hnew]
          exact ⟨trivial,hreads⟩
        · exact h.phases j other hold
      · intro j other hother hyes
        rcases update_cases hother with hnew | hold
        · rw [← Option.some.inj hnew] at hyes ⊢
          refine ⟨trivial,h.stage.resolve_left ?_⟩
          rintro ⟨hstore,_⟩
          obtain ⟨r,hr,hid⟩ := List.any_eq_true.mp hyes
          rw [hstore] at hr
          exact hnone r hr (beq_iff_eq.mp hid)
        · exact h.late j other hold hyes
  | step i =>
    simp only [step]
    cases hrunning : σ.running i with
    | none => exact h
    | some running =>
      obtain ⟨hphase,hown⟩ := h.phases i running hrunning
      refine resume_inv h hrunning
        (advance_advanced hnative hdocument hnone hown h.stage hphase) ?_
      intro hyes
      obtain ⟨hok,hdone⟩ := h.late i running hrunning hyes
      exact advance_late hnative hdone hok
  | crash i =>
    refine ⟨h.stage,?_,?_,h.reports⟩
    · intro j other hother
      rcases update_cases hother with hnew | hold
      · cases hnew
      · exact h.phases j other hold
    · intro j other hother
      rcases update_cases hother with hnew | hold
      · cases hnew
      · exact h.late j other hold

theorem run_inv (hnative : finalizer.nativeProcessing = true)
    (hdocument : loadNativeDurationMs w₀.store w₀.native scope jobId nativeProfileName =
      some durationMs) (hnone : ∀ r ∈ w₀.store.results, r.jobId ≠ jobId)
    {σ : System V} (h : Inv lib scope jobId w₀ durationMs σ) {as : List Action}
    (hreads : ∀ a ∈ as, NativeAction lib a) :
    Inv lib scope jobId w₀ durationMs (run (step lib finalizer scope jobId) σ as) := by
  induction as generalizing σ with
  | nil => exact h
  | cons a as ih =>
    exact ih (step_inv hnative hdocument hnone h (hreads a List.mem_cons_self))
      fun b hb => hreads b (List.mem_cons_of_mem a hb)

theorem initial_inv (w₀ : World) :
    Inv lib scope jobId w₀ durationMs (initial w₀ : System V) where
  stage := Or.inl ⟨rfl,rfl⟩
  phases i running hrunning := absurd hrunning (by simp [initial])
  late i running hrunning := absurd hrunning (by simp [initial])
  reports report hreport := absurd hreport List.not_mem_nil

theorem resume_world (σ : System V) (i : ℕ) (running : Running V) (w : World) :
    (σ.resume i running w).world = w := by
  unfold System.resume
  split <;> rfl

/-- A committed result and its job are never written again. -/
theorem step_kept (hnative : finalizer.nativeProcessing = true)
    (hdocument : loadNativeDurationMs w₀.store w₀.native scope jobId nativeProfileName =
      some durationMs) (hnone : ∀ r ∈ w₀.store.results, r.jobId ≠ jobId)
    {σ : System V} (h : Inv lib scope jobId w₀ durationMs σ)
    (hdone : Committed lib scope jobId w₀ durationMs σ.world) (a : Action) :
    (step lib finalizer scope jobId σ a).world.store = σ.world.store ∧
      Committed lib scope jobId w₀ durationMs (step lib finalizer scope jobId σ a).world := by
  cases a with
  | start i execution =>
    simp only [step]
    cases σ.running i with
    | some running => exact ⟨rfl,hdone⟩
    | none => exact ⟨rfl,hdone⟩
  | step i =>
    simp only [step]
    cases hrunning : σ.running i with
    | none => exact ⟨rfl,hdone⟩
    | some running =>
      obtain ⟨hphase,hown⟩ := h.phases i running hrunning
      have hadvanced := advance_advanced hnative hdocument hnone hown h.stage hphase
      dsimp only
      rw [resume_world]
      exact (hadvanced.committed hdone).symm
  | crash i => exact ⟨rfl,hdone⟩

theorem run_kept (hnative : finalizer.nativeProcessing = true)
    (hdocument : loadNativeDurationMs w₀.store w₀.native scope jobId nativeProfileName =
      some durationMs) (hnone : ∀ r ∈ w₀.store.results, r.jobId ≠ jobId)
    {σ : System V} (h : Inv lib scope jobId w₀ durationMs σ)
    (hdone : Committed lib scope jobId w₀ durationMs σ.world) {as : List Action}
    (hreads : ∀ a ∈ as, NativeAction lib a) :
    (run (step lib finalizer scope jobId) σ as).world.store = σ.world.store := by
  induction as generalizing σ with
  | nil => rfl
  | cons a as ih =>
    obtain ⟨hstore,hnext⟩ := step_kept hnative hdocument hnone h hdone a
    rw [← hstore]
    exact ih (step_inv hnative hdocument hnone h (hreads a List.mem_cons_self)) hnext
      fun b hb => hreads b (List.mem_cons_of_mem a hb)

/-- An execution on a committed job which nobody interrupts. -/
theorem finalize_late (hnative : finalizer.nativeProcessing = true)
    (h : Committed lib scope jobId w₀ durationMs w) (execution : Execution) :
    ∃ job, finalize lib finalizer scope jobId execution w = (.ok (.existing job),w) := by
  obtain ⟨locator,hready⟩ := h.ready
  obtain ⟨job,hfind⟩ := h.found
  refine ⟨job,?_⟩
  rw [finalize, committedResult, if_pos hnative, hready]
  dsimp only
  rw [hfind]

theorem inv_committed (hnone : ∀ r ∈ w₀.store.results, r.jobId ≠ jobId) {σ : System V}
    (h : Inv lib scope jobId w₀ durationMs σ) {row : ResultRow}
    (hrow : row ∈ σ.world.store.results) (hid : row.jobId = jobId) :
    Committed lib scope jobId w₀ durationMs σ.world := by
  refine h.stage.resolve_left ?_
  rintro ⟨hstore,_⟩
  rw [hstore] at hrow
  exact hnone row hrow hid

theorem inv_atMostOne (hnone : ∀ r ∈ w₀.store.results, r.jobId ≠ jobId) {σ : System V}
    (h : Inv lib scope jobId w₀ durationMs σ) :
    (σ.world.store.results.filter (·.jobId == jobId)).length ≤ 1 := by
  have hold : w₀.store.results.filter (·.jobId == jobId) = [] := by
    rw [List.filter_eq_nil_iff]
    intro r hr
    simpa using hnone r hr
  rcases h.stage with ⟨hstore,_⟩ | hdone
  · rw [hstore, hold]
    exact Nat.zero_le 1
  · obtain ⟨locator,result,hresults,_⟩ := hdone.row
    rw [hresults, List.filter_append, hold]
    simp

theorem committed_row (hnone : ∀ r ∈ w₀.store.results, r.jobId ≠ jobId)
    (h : Committed lib scope jobId w₀ durationMs w) {row : ResultRow}
    (hrow : row ∈ w.store.results) (hid : row.jobId = jobId) :
    ∃ result, Holds lib.formatF64 lib.formatValue lib.sha256 w.objects row.locator result ∧
      Native durationMs result := by
  obtain ⟨locator,result,hresults,hholds,hnative⟩ := h.row
  rw [hresults] at hrow
  rcases List.mem_append.mp hrow with hold | hnew
  · exact absurd hid (hnone row hold)
  · rw [List.mem_singleton.mp hnew]
    exact ⟨result,hholds,hnative⟩

/-- Executions in native mode on a job with its native document and without a result. The
run is cut after `as`. -/
theorem native_provenance_survives (hnative : finalizer.nativeProcessing = true)
    (hdocument : loadNativeDurationMs w₀.store w₀.native scope jobId nativeProfileName =
      some durationMs) (hnone : ∀ r ∈ w₀.store.results, r.jobId ≠ jobId) {as bs : List Action}
    (hreads : ∀ a ∈ as++bs, NativeAction lib a) {σ σ' : System V}
    (hσ : run (step lib finalizer scope jobId) (initial w₀) as = σ)
    (hσ' : run (step lib finalizer scope jobId) σ bs = σ') :
    (σ.world.store.results.filter (·.jobId == jobId)).length ≤ 1 ∧
      (∀ row ∈ σ.world.store.results, row.jobId = jobId →
        σ'.world.store.results = σ.world.store.results ∧
        (∃ result, Holds lib.formatF64 lib.formatValue lib.sha256 σ.world.objects row.locator
          result ∧ Native durationMs result) ∧
        ∀ execution, ∃ job,
          finalize lib finalizer scope jobId execution σ.world = (.ok (.existing job),σ.world)) ∧
      ∀ report ∈ σ.reports, report.late = true → ∃ job, report.outcome = .ok (.existing job) := by
  have hinv : Inv lib scope jobId w₀ durationMs σ := by
    rw [← hσ]
    exact run_inv hnative hdocument hnone (initial_inv w₀)
      fun a ha => hreads a (List.mem_append_left bs ha)
  refine ⟨inv_atMostOne hnone hinv,?_,hinv.reports⟩
  intro row hrow hid
  have hdone := inv_committed hnone hinv hrow hid
  refine ⟨?_,committed_row hnone hdone hrow hid,finalize_late hnative hdone⟩
  rw [← hσ', run_kept hnative hdocument hnone hinv hdone
    fun b hb => hreads b (List.mem_append_right as hb)]

end Races

/-! ### Two executions which both prepare the native page -/

section TwoFinalizers

theorem nativePage_reads : NativeReads plainLibraries firstExecution := by
  intro artifact page hpage id hid
  have hread : page = nativePage := by
    rw [pageOf] at hpage
    simp only [firstExecution, plainLibraries, Option.bind_some,
      ResultJson.readPage_write] at hpage
    split_ifs at hpage
    exact (Except.ok.inj hpage).symm
  rw [hread] at hid
  revert id
  decide

/-- The first one commits and clears the native document after the second one has read it;
a third one starts after the commit. -/
def overtaking : List Action :=
  [.start 0 firstExecution,.start 1 firstExecution]++
    (List.replicate 5 [.step 0,.step 1]).flatten++
    [.step 0,.step 0,.step 0,.start 2 firstExecution,.step 2,.step 2]

theorem overtaking_reads : ∀ a ∈ overtaking++[.step 1,.step 1,.step 1],
    NativeAction plainLibraries a := by
  intro a ha
  have hall : ∀ a ∈ overtaking++[.step 1,.step 1,.step 1], (∃ i, a = .start i firstExecution) ∨
      ∃ i, a = .step i := by
    simp [overtaking]
  rcases hall a ha with ⟨i,rfl⟩ | ⟨i,rfl⟩
  · exact nativePage_reads
  · trivial

theorem overtaken_native :
    ((run (step plainLibraries nativeFinalizer default default) (initial completedJob)
      overtaking).world.store.results.filter (·.jobId == default)).length ≤ 1 :=
  (native_provenance_survives (by decide) (show _ = some 12 by decide +kernel)
    (by decide +kernel) overtaking_reads rfl rfl).1

end TwoFinalizers

end DocumentIntelligence.FinalizerRaces
