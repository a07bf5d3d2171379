import DocumentIntelligence.FiniteFloats
import DocumentIntelligence.JobStatusCache
import DocumentIntelligence.NativePages
import DocumentIntelligence.PageAgreement
import DocumentIntelligence.ResultArtifacts

/-!
# Finalization of a document

A finalizer assembles the pages of a terminal workflow into a result, writes it and
commits it with the terminal state of the job. In native mode it looks for a committed
result first, takes the provenance from the native document and clears that document
after the commit.
-/

set_option autoImplicit false

namespace DocumentIntelligence.Finalization
open Identifiers hiding Error
open Schema Jobs PageWorkflowStore NativePages ResultArtifacts StorageLocations
open PageCheckpoint (PageWorkflow PageProgress)
open JsonTree (Node)
open DocumentResults (BuiltPage DocumentResult ProcessingProvenance byNumber byNumber_eq
  byNumber_pairwise byNumber_perm)
open ResultAssembly (ExtractionSchema ExtractedFields Assembly ResultAssemblyError Pass leaves
  lowConfidence reviewFailures observationIds nativeId nativeProfile appendPages_ok
  assembleWithProvenance_ok liftDomain_ok)
open JobLifecycle (findResult)
open JobStatusCache (find)

inductive PageArtifactReadError where
  | invalid
  | notFound
  | unavailable
  deriving DecidableEq, Repr

inductive DocumentFinalizeError where
  | notReady
  | cancelled
  | incompleteArtifacts
  | invalidPageArtifact
  | pageArtifact (error : PageArtifactReadError)
  | assembly (error : ResultAssemblyError)
  | publish (error : PublishResultError)
  | store (error : Schema.Error)
  deriving DecidableEq, Repr

/-- The extraction of fields, the serializer's numbers and values, its parser, and the
digest. -/
structure Libraries (V : Type) where
  extract : ExtractionSchema → List BuiltPage → ExtractedFields V
  formatF64 : Float → String
  formatValue : V → String
  parse : List UInt8 → Option (Node V)
  sha256 : List UInt8 → Vector UInt8 32

structure DocumentFinalizer where
  writer : GcsResultWriter
  nativeProcessing : Bool

/-- What an execution is given, and the answers it meets: the page reader's, the order in
which the pages arrive, the provider's, the time, and whether the cleanup is done. -/
structure Execution where
  documentId : DocumentId
  documentVersion : DocumentVersion
  schema : Option ExtractionSchema
  read : StoredPageArtifact → Except PageArtifactReadError (List UInt8)
  arrive : List StoredPageArtifact → List StoredPageArtifact
  arrive_perm : ∀ artifacts, (arrive artifacts).Perm artifacts
  reply : StorageReply
  version : Option String
  now : ℤ
  cleans : Bool

structure World where
  store : Store
  native : List NativeDocumentRow
  objects : StoredObjects

def nativeProfileName : String := "native-text-v1"

section Finalize
variable {V : Type} (lib : Libraries V) (finalizer : DocumentFinalizer) (scope : Scope)
  (jobId : JobId) (execution : Execution)

def loaded : Option StoredPageWorkflow → Except DocumentFinalizeError StoredPageWorkflow
  | none => .error .notReady
  | some stored => .ok stored

def terminalState (workflow : PageWorkflow) : Except DocumentFinalizeError JobState :=
  match workflow.status with
  | .completed => .ok .completed
  | .partialResult => .ok .partialResult
  | .running => .error .notReady
  | .cancelled => .error .cancelled

/-- The fold over the lengths of the artifacts. -/
def totalBytes : ℕ → List StoredPageArtifact → Except DocumentFinalizeError ℕ
  | total,[] => .ok total
  | total,artifact::artifacts =>
    if artifact.contentLength < 0 then .error (.assembly .tooLarge)
    else if ResultAssembly.maximumResultBytes < total+artifact.contentLength.toNat then
      .error (.assembly .tooLarge)
    else totalBytes (total+artifact.contentLength.toNat) artifacts

/-- The page which an artifact holds. -/
def pageOf (artifact : StoredPageArtifact) : Except DocumentFinalizeError BuiltPage :=
  match execution.read artifact with
  | .error e => .error (.pageArtifact e)
  | .ok bytes => match (lib.parse bytes).bind ResultJson.readPage with
    | none => .error .invalidPageArtifact
    | some page =>
      if page.page ≠ artifact.page then .error .invalidPageArtifact else .ok page

/-- The pages in the order in which they arrive; the first failure ends the reading. -/
def readPages (successful : ℕ) (artifacts : List StoredPageArtifact) :
    Except DocumentFinalizeError (List BuiltPage) :=
  if artifacts.length ≠ successful then .error .incompleteArtifacts
  else match totalBytes 0 artifacts with
    | .error e => .error e
    | .ok total =>
      if total = 0 ∧ artifacts ≠ [] then .error .invalidPageArtifact
      else (execution.arrive artifacts).mapM (pageOf lib execution)

def storedPages (s : Store) (successful : ℕ) : Except DocumentFinalizeError (List BuiltPage) :=
  match loadPageArtifacts s scope jobId with
  | .error e => .error (.store e)
  | .ok artifacts => readPages lib execution successful artifacts

/-- The mode of assembly, from the stored duration of the native document. -/
def assemblyMode (durationMs : Option ℕ) : Assembly :=
  if finalizer.nativeProcessing then durationMs.elim .legacy .native else .document

def assembled (durationMs : Option ℕ) (pages : List BuiltPage) :
    Except DocumentFinalizeError (DocumentResult V) :=
  match ResultAssembly.assemble lib.extract lib.formatF64 lib.formatValue
      (assemblyMode finalizer durationMs) execution.documentId execution.documentVersion pages
      execution.schema with
  | .error e => .error (.assembly e)
  | .ok result => .ok result

/-- A completed document with a failure goes to a reviewer. -/
def reviewedState (state : JobState) (result : DocumentResult V) : JobState :=
  if state = .completed ∧ result.validationFailures ≠ [] then .reviewRequired else state

/-- In native mode a committed result ends the execution. -/
def committedResult (s : Store) : Option (Except DocumentFinalizeError CommitResultOutcome) :=
  if finalizer.nativeProcessing then
    match findResult s scope jobId with
    | .error e => some (.error (.store e))
    | .ok (.ready _) => match find s scope jobId with
      | none => some (.error .notReady)
      | some job => some (.ok (.existing job))
    | .ok _ => none
  else none

/-- The terminal state and the result of the stored pages. -/
def prepare (σ : World) : Except DocumentFinalizeError (JobState × DocumentResult V) := do
  let stored ← loaded (loadPageWorkflow σ.store scope jobId)
  let state ← terminalState stored.workflow
  let pages ← storedPages lib scope jobId execution σ.store stored.workflow.successfulPageCount
  let result ← assembled lib finalizer execution
    (loadNativeDurationMs σ.store σ.native scope jobId nativeProfileName) pages
  .ok (reviewedState state result,result)

def publish (σ : World) (state : JobState) (result : DocumentResult V) :
    Except PublishResultError CommitResultOutcome × World :=
  match write lib.formatF64 lib.formatValue lib.sha256 finalizer.writer scope jobId execution.reply
      execution.version σ.objects result with
  | (.error e,objects) => (.error (.artifact e),{ σ with objects := objects })
  | (.ok locator,objects) =>
    match commitLocator scope jobId σ.store execution.now state result locator with
    | .error e => (.error e,{ σ with objects := objects })
    | .ok (outcome,s) => (.ok outcome,{ σ with store := s, objects := objects })

/-- The result is there, by this execution or by another one. -/
def published : CommitResultOutcome → Bool
  | .committed _ | .existing _ => true
  | _ => false

def clean (outcome : CommitResultOutcome) (σ : World) : World :=
  if finalizer.nativeProcessing && published outcome && execution.cleans then
    { σ with native := clearNativePages σ.native scope jobId }
  else σ

def finalize (σ : World) : Except DocumentFinalizeError CommitResultOutcome × World :=
  match committedResult finalizer scope jobId σ.store with
  | some outcome => (outcome,σ)
  | none => match prepare lib finalizer scope jobId execution σ with
    | .error e => (.error e,σ)
    | .ok (state,result) => match publish lib finalizer scope jobId execution σ state result with
      | (.error e,σ) => (.error (.publish e),σ)
      | (.ok outcome,σ) => (.ok outcome,clean finalizer scope jobId execution outcome σ)

end Finalize

/-! ### What an execution has done -/

section Done
variable {V : Type} {lib : Libraries V} {finalizer : DocumentFinalizer} {scope : Scope}
  {jobId : JobId} {execution : Execution} {σ σ' : World} {result : DocumentResult V}

theorem storedPages_ok {s : Store} {successful : ℕ} {pages : List BuiltPage}
    (h : storedPages lib scope jobId execution s successful = .ok pages) :
    ∃ artifacts, loadPageArtifacts s scope jobId = .ok artifacts ∧
      artifacts.length = successful ∧
      List.Forall₂ (fun artifact page => pageOf lib execution artifact = .ok page)
        (execution.arrive artifacts) pages := by
  rw [storedPages] at h
  cases hload : loadPageArtifacts s scope jobId with
  | error e =>
    rw [hload] at h
    exact absurd h (by simp)
  | ok artifacts =>
    rw [hload] at h
    dsimp only at h
    rw [readPages] at h
    by_cases hlength : artifacts.length ≠ successful
    · rw [if_pos hlength] at h
      exact absurd h (by simp)
    rw [if_neg hlength] at h
    cases htotal : totalBytes 0 artifacts with
    | error e =>
      rw [htotal] at h
      exact absurd h (by simp)
    | ok total =>
      rw [htotal] at h
      dsimp only at h
      by_cases hzero : total = 0 ∧ artifacts ≠ []
      · rw [if_pos hzero] at h
        exact absurd h (by simp)
      · rw [if_neg hzero] at h
        exact ⟨artifacts,rfl,not_not.mp hlength,Table.mapM_ok_iff.mp h⟩

theorem pageOf_ok {artifact : StoredPageArtifact} {page : BuiltPage}
    (h : pageOf lib execution artifact = .ok page) : page.page = artifact.page := by
  rw [pageOf] at h
  cases hread : execution.read artifact with
  | error e =>
    rw [hread] at h
    exact absurd h (by simp)
  | ok bytes =>
    rw [hread] at h
    dsimp only at h
    cases hdecode : (lib.parse bytes).bind ResultJson.readPage with
    | none =>
      rw [hdecode] at h
      exact absurd h (by simp)
    | some decoded =>
      rw [hdecode] at h
      dsimp only at h
      by_cases hpage : decoded.page ≠ artifact.page
      · rw [if_pos hpage] at h
        exact absurd h (by simp)
      · rw [if_neg hpage, Except.ok.injEq] at h
        rw [← h]
        exact not_not.mp hpage

/-- Every artifact has its page among those which were read. -/
theorem storedPages_mem {pages : List BuiltPage} {artifacts : List StoredPageArtifact}
    (hread : List.Forall₂ (fun artifact page => pageOf lib execution artifact = .ok page)
      (execution.arrive artifacts) pages) {artifact : StoredPageArtifact}
    (hartifact : artifact ∈ artifacts) : ∃ page ∈ pages, page.page = artifact.page := by
  have hmem := (execution.arrive_perm artifacts).mem_iff.mpr hartifact
  clear hartifact
  generalize execution.arrive artifacts = arrived at hread hmem
  induction hread with
  | nil => exact absurd hmem List.not_mem_nil
  | cons hok _ ih =>
    rcases List.mem_cons.mp hmem with rfl | hmem
    · exact ⟨_,List.mem_cons_self,pageOf_ok hok⟩
    · obtain ⟨page,hpage,hnumber⟩ := ih hmem
      exact ⟨page,List.mem_cons_of_mem _ hpage,hnumber⟩

theorem prepare_ok {state : JobState}
    (h : prepare lib finalizer scope jobId execution σ = .ok (state,result)) :
    ∃ stored own pages, loadPageWorkflow σ.store scope jobId = some stored ∧
      terminalState stored.workflow = .ok own ∧
      storedPages lib scope jobId execution σ.store stored.workflow.successfulPageCount =
        .ok pages ∧
      assembled lib finalizer execution
        (loadNativeDurationMs σ.store σ.native scope jobId nativeProfileName) pages = .ok result ∧
      state = reviewedState own result := by
  obtain ⟨stored,hstored,h⟩ := Table.bind_ok.mp h
  obtain ⟨own,hown,h⟩ := Table.bind_ok.mp h
  obtain ⟨pages,hpages,h⟩ := Table.bind_ok.mp h
  obtain ⟨built,hbuilt,h⟩ := Table.bind_ok.mp h
  rw [Except.ok.injEq, Prod.mk.injEq] at h
  obtain ⟨hstate,rfl⟩ := h
  refine ⟨stored,own,pages,?_,hown,hpages,hbuilt,hstate.symm⟩
  cases hload : loadPageWorkflow σ.store scope jobId with
  | none =>
    rw [hload] at hstored
    exact absurd hstored (by simp [loaded])
  | some found =>
    rw [hload] at hstored
    rw [Except.ok.inj hstored]

theorem assembled_ok {durationMs : Option ℕ} {pages : List BuiltPage}
    (h : assembled lib finalizer execution durationMs pages = .ok result) :
    ResultAssembly.assemble lib.extract lib.formatF64 lib.formatValue
      (assemblyMode finalizer durationMs) execution.documentId execution.documentVersion pages
      execution.schema = .ok result := by
  rw [assembled] at h
  split at h
  · exact absurd h (by simp)
  · rename_i built hbuilt
    rw [hbuilt, Except.ok.inj h]

/-! The failures of an assembled result come from the extraction and from the review. -/

theorem assembled_failures {mode : Assembly} {pages : List BuiltPage}
    (h : ResultAssembly.assemble lib.extract lib.formatF64 lib.formatValue mode
      execution.documentId execution.documentVersion pages execution.schema = .ok result) :
    ∃ provenance pass, mode.provenance pages = .ok provenance ∧
      pass.lowConfidence = ((byNumber pages).any fun page => (leaves page).any lowConfidence) ∧
      result.pages = byNumber pages ∧ result.durationMs = provenance.map (·.durationMs) ∧
      result.provider = provenance.map (·.provider) ∧
      result.validationFailures =
        ((execution.schema.map fun schema => lib.extract schema (byNumber pages)).getD
          ExtractedFields.default).validationFailures++
          reviewFailures (byNumber pages) provenance pass := by
  obtain ⟨provenance,hprovenance,h⟩ := Table.bind_ok.mp h
  obtain ⟨pass,hpass,_,rfl⟩ := assembleWithProvenance_ok lib.extract lib.formatF64 lib.formatValue
    execution.documentId execution.documentVersion execution.schema h
  obtain ⟨_,_,hlow⟩ := appendPages_ok hpass
  refine ⟨provenance,pass,hprovenance,?_,byNumber_eq (byNumber_pairwise pages),rfl,rfl,rfl⟩
  rw [hlow]
  rfl

theorem reviewFailures_nil {pages : List BuiltPage} {provenance : Option ProcessingProvenance}
    {pass : Pass} (h : reviewFailures pages provenance pass = []) :
    (∀ profile ∈ provenance, profile.provider ≠ "legacy-mixed") ∧
      (∀ page ∈ pages, page.observations ≠ []) ∧ pass.lowConfidence = false := by
  rw [reviewFailures] at h
  simp only [List.append_eq_nil_iff, ite_eq_right_iff, reduceCtorEq, imp_false,
    Bool.not_eq_true] at h
  obtain ⟨⟨⟨hlegacy,hempty⟩,hlow⟩,_⟩ := h
  refine ⟨?_,?_,hlow⟩
  · intro profile hprofile hname
    rw [Option.mem_def.mp hprofile] at hlegacy
    simp [hname] at hlegacy
  · intro page hpage hnone
    rw [List.any_eq_false] at hempty
    exact hempty page hpage (List.isEmpty_iff.mpr hnone)

theorem newProvenance_ok {provider model profile : String} {durationMs : ℕ}
    {provenance : ProcessingProvenance}
    (h : ProcessingProvenance.new provider model profile durationMs = .ok provenance) :
    provenance.provider = provider ∧ provenance.durationMs = durationMs := by
  rw [ProcessingProvenance.new] at h
  split_ifs at h with hvalid
  rw [← Except.ok.inj h]
  exact ⟨rfl,rfl⟩

theorem nativeProfile_provider {pages : List BuiltPage}
    (h : (nativeProfile pages).1 ≠ "legacy-mixed") :
    ∀ id ∈ observationIds pages, nativeId id = true := by
  intro id hid
  by_contra hnative
  refine h ?_
  rw [nativeProfile, if_pos]
  exact List.any_eq_true.mpr ⟨id,hid,by simpa using hnative⟩

/-- A native execution of another provider than the mixed one has found its duration. -/
theorem native_provenance {durationMs : Option ℕ} {pages : List BuiltPage}
    {provenance : Option ProcessingProvenance} (hnative : finalizer.nativeProcessing = true)
    (h : (assemblyMode finalizer durationMs).provenance pages = .ok provenance)
    (hprovider : ∀ profile ∈ provenance, profile.provider ≠ "legacy-mixed") :
    durationMs.isSome = true ∧ provenance.map (·.durationMs) = durationMs ∧
      ∀ id ∈ observationIds pages, nativeId id = true := by
  rw [assemblyMode, if_pos hnative] at h
  cases durationMs with
  | none =>
    obtain ⟨profile,hprofile,h⟩ := Table.bind_ok.mp h
    rw [← Except.ok.inj h] at hprovider
    exact absurd (newProvenance_ok (liftDomain_ok.mp hprofile)).1 (hprovider profile rfl)
  | some d =>
    obtain ⟨profile,hprofile,h⟩ := Table.bind_ok.mp h
    rw [← Except.ok.inj h] at hprovider
    obtain ⟨hname,hduration⟩ := newProvenance_ok (liftDomain_ok.mp hprofile)
    refine ⟨rfl,?_,nativeProfile_provider (hname ▸ hprovider profile rfl)⟩
    rw [← Except.ok.inj h, Option.map_some, hduration]

theorem commitRow_results (s : Store) (now : ℤ) (job : JobRow) (command : CommitResult)
    (eventType : EventType) :
    (commitRow s now job command eventType).results =
      s.results++[⟨job.jobId,job.scope,command.locator⟩] := by
  unfold commitRow
  split <;> rfl

/-- A commit which reports a committed result has inserted it. -/
theorem commitResult_committed {s s' : Store} {now : ℤ} {command : CommitResult} {job : StoredJob}
    (h : commitResult s now scope jobId command = .ok (.committed job,s')) :
    job.state = command.terminalState ∧ (terminalEvent command.terminalState).isSome = true ∧
      s'.results = s.results++[⟨jobId,scope,command.locator⟩] := by
  rw [commitResult] at h
  split at h
  · exact absurd h (by simp)
  split at h
  · exact absurd h (by simp)
  rename_i eventType hevent
  split at h
  · exact absurd h (by simp)
  rename_i row hfind
  split at h
  · split at h
    · exact absurd h (by simp)
    · split at h <;> exact absurd h (by simp)
  split at h
  · exact absurd h (by simp)
  split at h
  · exact absurd h (by simp)
  rw [Except.ok.injEq, Prod.mk.injEq, CommitResultOutcome.committed.injEq] at h
  obtain ⟨hscope,hid⟩ := (Commands.isJob_iff _ _ _).mp (Table.mem_of_find? hfind).2
  refine ⟨?_,by rw [hevent]; rfl,?_⟩
  · rw [← h.1]
    rfl
  · rw [← h.2, commitRow_results, hscope, hid]

theorem write_ok {reply : StorageReply} {version : Option String} {objects objects' : StoredObjects}
    {locator : StoredResultLocator}
    (h : write lib.formatF64 lib.formatValue lib.sha256 finalizer.writer scope jobId reply version
      objects result = (.ok locator,objects')) :
    Holds lib.formatF64 lib.formatValue lib.sha256 objects' locator result := by
  rw [write] at h
  split at h
  · exact absurd h (by simp)
  rename_i prepared hprepared
  cases reply with
  | refused => exact absurd h (by simp)
  | lost => exact absurd h (by simp)
  | answered =>
    dsimp only at h
    rw [Prod.mk.injEq] at h
    rw [← h.2]
    exact readBack_ok hprepared h.1

theorem committedResult_found {outcome : Except DocumentFinalizeError CommitResultOutcome}
    {s : Store} (h : committedResult finalizer scope jobId s = some outcome) (job : StoredJob) :
    outcome ≠ .ok (.committed job) := by
  rw [committedResult] at h
  split_ifs at h with hnative
  split at h
  · rw [← Option.some.inj h]
    simp
  · split at h
    · rw [← Option.some.inj h]
      simp
    · rw [← Option.some.inj h]
      simp
  · exact absurd h (by simp)

theorem publish_committed {state : JobState} {job : StoredJob}
    (h : publish lib finalizer scope jobId execution σ state result = (.ok (.committed job),σ')) :
    job.state = state ∧ (terminalEvent state).isSome = true ∧
      ∃ row ∈ σ'.store.results, row.jobId = jobId ∧ row.scope = scope ∧
        Holds lib.formatF64 lib.formatValue lib.sha256 σ'.objects row.locator result := by
  rw [publish] at h
  split at h
  · exact absurd h (by simp)
  rename_i locator objects hwrite
  split at h
  · exact absurd h (by simp)
  rename_i outcome s hcommit
  rw [Prod.mk.injEq, Except.ok.injEq] at h
  rw [commitLocator] at hcommit
  split_ifs at hcommit
  split at hcommit
  · exact absurd hcommit (by simp)
  rename_i committed hresult
  rw [Except.ok.injEq] at hcommit
  rw [hcommit, h.1] at hresult
  obtain ⟨hstate,hevent,hresults⟩ := commitResult_committed hresult
  refine ⟨hstate,hevent,⟨jobId,scope,locator⟩,?_,rfl,rfl,?_⟩
  · rw [← h.2]
    show _ ∈ s.results
    rw [hresults]
    exact List.mem_append_right _ List.mem_cons_self
  · rw [← h.2]
    exact write_ok hwrite

variable (finalizer scope jobId execution) in
theorem clean_kept (outcome : CommitResultOutcome) (σ : World) :
    (clean finalizer scope jobId execution outcome σ).store = σ.store ∧
      (clean finalizer scope jobId execution outcome σ).objects = σ.objects := by
  unfold clean
  split <;> exact ⟨rfl,rfl⟩

/-- What an execution commits is the state and the result which it prepared. -/
theorem finalize_committed {job : StoredJob}
    (h : finalize lib finalizer scope jobId execution σ = (.ok (.committed job),σ')) :
    ∃ result, prepare lib finalizer scope jobId execution σ = .ok (job.state,result) ∧
      (terminalEvent job.state).isSome = true ∧
      ∃ row ∈ σ'.store.results, row.jobId = jobId ∧ row.scope = scope ∧
        Holds lib.formatF64 lib.formatValue lib.sha256 σ'.objects row.locator result := by
  rw [finalize] at h
  cases hfound : committedResult finalizer scope jobId σ.store with
  | some outcome =>
    rw [hfound, Prod.mk.injEq] at h
    exact absurd h.1 (committedResult_found hfound job)
  | none =>
    rw [hfound] at h
    dsimp only at h
    cases hprepare : prepare lib finalizer scope jobId execution σ with
    | error e =>
      rw [hprepare] at h
      exact absurd h (by simp)
    | ok prepared =>
      rw [hprepare] at h
      dsimp only at h
      split at h
      · exact absurd h (by simp)
      rename_i outcome σ'' hpublish
      rw [Prod.mk.injEq, Except.ok.injEq] at h
      rw [h.1] at hpublish
      obtain ⟨hstate,hevent,row,hrow,hjob,hscope,hholds⟩ := publish_committed hpublish
      obtain ⟨hstore,hobjects⟩ := clean_kept finalizer scope jobId execution outcome σ''
      refine ⟨prepared.2,?_,hstate ▸ hevent,row,?_,hjob,hscope,?_⟩
      · rw [hstate]
      · rw [← h.2, hstore]
        exact hrow
      · rw [← h.2, hobjects]
        exact hholds

end Done

/-! ### Trustworthy results -/

section Trust
variable {V : Type} {lib : Libraries V} {finalizer : DocumentFinalizer} {scope : Scope}
  {jobId : JobId} {execution : Execution}

def failed : PageProgress → Bool
  | .exhausted _ | .permanentlyFailed _ => true
  | _ => false

theorem terminal_failed (p : PageProgress) :
    failed p = true ↔ p.isTerminal = true ∧ p.isSucceeded = false := by
  cases p <;> simp [failed, PageProgress.isTerminal, PageProgress.isSucceeded]

theorem terminalState_ok {workflow : PageWorkflow} {state : JobState}
    (h : terminalState workflow = .ok state) :
    (state = .completed ∧ workflow.pages.all PageProgress.isSucceeded = true) ∨
      (state = .partialResult ∧ ∃ p ∈ workflow.pages, failed p = true) := by
  rw [terminalState, PageWorkflow.status] at h
  by_cases hcancelled : workflow.cancelled = true
  · rw [if_pos hcancelled] at h
    exact absurd h (by simp)
  rw [if_neg hcancelled] at h
  by_cases hall : workflow.pages.all PageProgress.isSucceeded = true
  · rw [if_pos hall] at h
    exact Or.inl ⟨(Except.ok.inj h).symm,hall⟩
  rw [if_neg hall] at h
  by_cases hterminal : workflow.pages.all PageProgress.isTerminal = true
  · rw [if_pos hterminal] at h
    refine Or.inr ⟨(Except.ok.inj h).symm,?_⟩
    rw [Bool.not_eq_true, List.all_eq_false] at hall
    obtain ⟨p,hp,hfailed⟩ := hall
    exact ⟨p,hp,(terminal_failed p).mpr ⟨List.all_eq_true.mp hterminal p hp,by simpa using hfailed⟩⟩
  · rw [if_neg hterminal] at h
    exact absurd h (by simp)

variable (lib finalizer execution) in
/-- What a completed document promises of the workflow, the native duration and the
result. -/
structure Trustworthy (workflow : PageWorkflow) (durationMs : Option ℕ)
    (result : DocumentResult V) : Prop where
  pages : ∀ i < workflow.pages.length, (∃ attempt, workflow.pages[i]? = some (.succeeded attempt)) ∧
    ∃ page ∈ result.pages, page.page = i+1
  observed : ∀ page ∈ result.pages, page.observations ≠ []
  confident : ∀ page ∈ result.pages, ∀ o ∈ leaves page, 0.6 ≤ o.confidence.value
  native : finalizer.nativeProcessing = true → durationMs.isSome = true ∧
    result.durationMs = durationMs ∧ ∀ id ∈ observationIds result.pages, nativeId id = true
  extracted : ((execution.schema.map fun schema => lib.extract schema result.pages).getD
    ExtractedFields.default).validationFailures = []

/-- A succeeded page has its artifact, and so its page in the result. -/
theorem succeeded_page {σ : World} (hagree : PageAgreement.PagesAgree scope jobId σ.store)
    {stored : StoredPageWorkflow} (hload : loadPageWorkflow σ.store scope jobId = some stored)
    {pages : List BuiltPage}
    (hpages : storedPages lib scope jobId execution σ.store stored.workflow.successfulPageCount =
      .ok pages) {i attempt : ℕ} (hget : stored.workflow.pages[i]? = some (.succeeded attempt)) :
    ∃ page ∈ pages, page.page = i+1 := by
  obtain ⟨artifacts,hartifacts,_,hread⟩ := storedPages_ok hpages
  have hsucceeded : stored.workflow.isSuccessfulTask
      ⟨i+1,attempt,PageCheckpoint.activityKey stored.workflow.jobId (i+1) attempt⟩ = true := by
    simp [PageWorkflow.isSuccessfulTask, hget]
  obtain ⟨row,hrow,hid,htask⟩ := (hagree.succeeded stored hload _).mp hsucceeded
  have hmem : row.artifact ∈ artifacts := by
    rw [loadPageArtifacts] at hartifacts
    split_ifs at hartifacts
    rw [← Except.ok.inj hartifacts, List.mem_mergeSort]
    refine List.mem_map_of_mem (List.mem_filter.mpr ⟨hrow,?_⟩)
    simp [hagree.inScope row hrow hid, hid]
  obtain ⟨page,hpage,hnumber⟩ := storedPages_mem hread hmem
  refine ⟨page,hpage,hnumber.trans ?_⟩
  have hnumber := congrArg PageCheckpoint.PageTask.page htask
  exact hnumber.symm

theorem confident_leaf {page : BuiltPage} {o : DocumentPages.TextObservation}
    (hlow : (leaves page).any lowConfidence = false) (ho : o ∈ leaves page) :
    0.6 ≤ o.confidence.value := by
  have hvalid := o.confidence.valid
  simp only [DocumentPages.unit, Bool.and_eq_true] at hvalid
  refine FiniteFloats.le_of_not_lt hvalid.1.1 (by decide +kernel) ?_
  intro hbelow
  exact List.any_eq_false.mp hlow o ho (decide_eq_true hbelow)

theorem completed_trustworthy {σ : World} (hagree : PageAgreement.PagesAgree scope jobId σ.store)
    {result : DocumentResult V}
    (h : prepare lib finalizer scope jobId execution σ = .ok (.completed,result)) :
    ∃ stored, loadPageWorkflow σ.store scope jobId = some stored ∧
      Trustworthy lib finalizer execution stored.workflow
        (loadNativeDurationMs σ.store σ.native scope jobId nativeProfileName) result := by
  obtain ⟨stored,own,pages,hload,hown,hpages,hassembled,hstate⟩ := prepare_ok h
  have hreviewed : own = .completed ∧ result.validationFailures = [] := by
    rw [reviewedState] at hstate
    split_ifs at hstate with hreview
    rw [← hstate, not_and, not_not] at hreview
    exact ⟨hstate.symm,hreview rfl⟩
  obtain ⟨provenance,pass,hprovenance,hlow,hresult,hduration,_,hfailures⟩ :=
    assembled_failures (assembled_ok hassembled)
  rw [hreviewed.2] at hfailures
  obtain ⟨hextracted,hreview⟩ := List.append_eq_nil_iff.mp hfailures.symm
  obtain ⟨hprovider,hobserved,hconfident⟩ := reviewFailures_nil hreview
  have hall : stored.workflow.pages.all PageProgress.isSucceeded = true := by
    rcases terminalState_ok hown with ⟨_,hall⟩ | ⟨hstate,_⟩
    · exact hall
    · rw [hreviewed.1] at hstate
      exact absurd hstate (by decide)
  rw [hlow, List.any_eq_false] at hconfident
  refine ⟨stored,hload,?_,?_,?_,?_,?_⟩
  · intro i hi
    have hsucceeded := List.all_eq_true.mp hall _ (List.getElem_mem hi)
    obtain ⟨attempt,hget⟩ : ∃ attempt, stored.workflow.pages[i] = .succeeded attempt := by
      cases hp : stored.workflow.pages[i] with
      | succeeded attempt => exact ⟨attempt,rfl⟩
      | _ =>
        rw [hp] at hsucceeded
        cases hsucceeded
    have hoption : stored.workflow.pages[i]? = some (.succeeded attempt) := by
      rw [List.getElem?_eq_getElem hi, hget]
    obtain ⟨page,hpage,hnumber⟩ := succeeded_page hagree hload hpages hoption
    rw [hresult]
    exact ⟨⟨attempt,hoption⟩,page,(byNumber_perm pages).mem_iff.mpr hpage,hnumber⟩
  · rw [hresult]
    exact hobserved
  · rw [hresult]
    intro page hpage o ho
    exact confident_leaf (by simpa using hconfident page hpage) ho
  · intro hnative
    obtain ⟨hsome,hmap,hids⟩ := native_provenance hnative hprovenance hprovider
    refine ⟨hsome,hduration.trans hmap,?_⟩
    intro id hid
    rw [hresult] at hid
    exact hids id (((byNumber_perm pages).flatMap_right _).mem_iff.mp hid)
  · rw [hresult]
    exact hextracted

/-- The committed state of a document, in every state which the workers of its job reach. -/
theorem committed_trustworthy {as : List PageWorkers.Action} {native : List NativeDocumentRow}
    {objects : StoredObjects} {σ : World} {job : StoredJob} {σ' : World}
    (hσ : σ = ⟨(Transition.run (PageWorkers.step scope jobId) PageAgreement.initial as).store,
      native,objects⟩)
    (h : finalize lib finalizer scope jobId execution σ = (.ok (.committed job),σ')) :
    ∃ stored result, loadPageWorkflow σ.store scope jobId = some stored ∧
      (∃ row ∈ σ'.store.results, row.jobId = jobId ∧ row.scope = scope ∧
        Holds lib.formatF64 lib.formatValue lib.sha256 σ'.objects row.locator result) ∧
      (job.state = .completed → Trustworthy lib finalizer execution stored.workflow
        (loadNativeDurationMs σ.store σ.native scope jobId nativeProfileName) result) ∧
      (job.state = .partialResult ↔ ∃ p ∈ stored.workflow.pages, failed p = true) ∧
      (job.state = .completed ∨ job.state = .partialResult ∨ job.state = .reviewRequired) := by
  have hagree : PageAgreement.PagesAgree scope jobId σ.store := by
    rw [hσ]
    exact (PageAgreement.run_coherent _ PageAgreement.initial_coherent as).agree
  obtain ⟨result,hprepare,_,hrow⟩ := finalize_committed h
  obtain ⟨stored,own,pages,hload,hown,_,_,hstate⟩ := prepare_ok hprepare
  refine ⟨stored,result,hload,hrow,?_,?_,?_⟩
  · intro hcompleted
    rw [hcompleted] at hprepare
    obtain ⟨found,hfound,htrust⟩ := completed_trustworthy hagree hprepare
    rw [hload, Option.some.injEq] at hfound
    exact hfound ▸ htrust
  · rw [reviewedState] at hstate
    rcases terminalState_ok hown with ⟨hown,hall⟩ | ⟨hown,hfailed⟩
    · have hnone : ¬∃ p ∈ stored.workflow.pages, failed p = true := by
        rintro ⟨p,hp,hfailed⟩
        have hsucceeded := List.all_eq_true.mp hall p hp
        rw [((terminal_failed p).mp hfailed).2] at hsucceeded
        cases hsucceeded
      refine iff_of_false ?_ hnone
      rw [hstate, hown]
      split <;> decide
    · refine iff_of_true ?_ hfailed
      rw [hstate, hown, if_neg (by simp)]
  · rw [reviewedState] at hstate
    rw [hstate]
    split
    · exact Or.inr (Or.inr rfl)
    · rcases terminalState_ok hown with ⟨hown,_⟩ | ⟨hown,_⟩
      · exact Or.inl hown
      · exact Or.inr (Or.inl hown)

end Trust

/-! ### A document of one native page -/

section NativePage

def pageArtifact : StoredPageArtifact where
  page := 1
  attempt := 1
  activityKey := PageCheckpoint.activityKey default 1 1
  objectBucket := "pages-eu"
  objectName := "page-1.json"
  objectVersion := "1"
  objectDigest := "sha256:0000000000000000000000000000000000000000000000000000000000000000"
  contentLength := 100

def completedRun : List PageWorkers.Action :=
  (Commands.acceptedJob.map fun c => .other (.command 3 c))++
    [.start 0 1 1 1,.load 0,.claim 0 1,
      .record 0 [(StoredPageArtifact.task pageArtifact,.ok pageArtifact)]]

def nativeLine : DocumentPages.TextObservation :=
  ⟨⟨"obs_native_1",by decide⟩,.line,"Total 12",⟨1.0,by decide +kernel⟩,ResultAssembly.triangle,0,
    none,by decide⟩

def nativePage : BuiltPage :=
  ⟨⟨1,100,200,[nativeLine],by decide⟩,by decide,DocumentResults.ordered_eq (by decide)⟩

def plainLibraries : Libraries String where
  extract := ResultAssembly.noFields
  formatF64 := ResultAssembly.decimal
  formatValue := id
  parse _ := some (ResultJson.writePage nativePage.toDocumentPage)
  sha256 _ := Vector.replicate 32 0

def nativeFinalizer : DocumentFinalizer := ⟨⟨[(default,"results-eu")],by decide,by decide⟩,true⟩

def firstExecution : Execution where
  documentId := ResultAssembly.invoiceId
  documentVersion := ResultAssembly.invoiceVersion
  schema := none
  read _ := .ok []
  arrive := id
  arrive_perm := List.Perm.refl
  reply := .answered
  version := some "1"
  now := 9
  cleans := true

def nativeDocument : NativeDocumentRow where
  nativeDocumentId := 1
  jobId := default
  scope := default
  processingProfile := nativeProfileName
  sourceDigest := UploadScopes.promoted.source.sourceDigest
  pageCount := 1
  durationMs := 12

def completedJob : World :=
  ⟨(Transition.run (PageWorkers.step default default) PageAgreement.initial completedRun).store,
    [nativeDocument],[]⟩

theorem native_page_trustworthy :
    ∃ stored result, loadPageWorkflow completedJob.store default default = some stored ∧
      Trustworthy plainLibraries nativeFinalizer firstExecution stored.workflow
        (loadNativeDurationMs completedJob.store completedJob.native default default
          nativeProfileName) result := by
  have hcommitted : (finalize plainLibraries nativeFinalizer default default firstExecution
      completedJob).1 = .ok (.committed ⟨default,.completed,3⟩) := by decide +kernel
  obtain ⟨stored,result,hload,_,htrust,_⟩ :=
    committed_trustworthy (σ := completedJob) rfl (Prod.ext hcommitted rfl)
  exact ⟨stored,result,hload,htrust rfl⟩

end NativePage

end DocumentIntelligence.Finalization
