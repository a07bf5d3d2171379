import DocumentIntelligence.AccessGrants
import DocumentIntelligence.Finalization
import DocumentIntelligence.WorkloadIdentity

/-!
# Served results

The service and the tools read the object at the version which the locator of a result
names. What they answer is decided by the commit of the result: nothing before it, and the
document which was written ever after.
-/

set_option autoImplicit false

namespace DocumentIntelligence.ServedResults
open Identifiers hiding Error
open Jobs hiding maximumResultBytes
open Schema ObjectStorage StorageLocations ResultArtifacts RequestSigning
open DocumentResults (DocumentResult)
open JobLifecycle (findResult Lifecycle)
open ResultAssembly (maximumResultBytes)
open OutboxExhaustion (Inv)
open Finalization (Libraries)

/-- `ApiError`, without the identifier of the request. -/
structure ApiError where
  status : ℕ
  code : String
  message : String
  deriving DecidableEq, Repr

def ApiError.notFound : ApiError := ⟨404,"job_not_found","job was not found"⟩

def ApiError.unavailable : ApiError :=
  ⟨503,"service_unavailable","service is temporarily unavailable"⟩

def ApiError.resultNotReady : ApiError := ⟨409,"result_not_ready","job result is not ready"⟩

def ApiError.resultUnavailable : ApiError := ⟨409,"result_unavailable","job has no result"⟩

/-- `new` admits distinct buckets. -/
structure GcsResultReader where
  buckets : List String
  valid : (!buckets.isEmpty && buckets.all isBucketName) = true
  distinct : buckets.Nodup

/-- The rows of the database and the versions of the objects. -/
structure Platform where
  store : Store
  objects : StoredObjects

section Serve
variable {V : Type} (lib : Libraries V) (reader : GcsResultReader) (reply : StorageReply)
  (σ : Platform)

/-- `ResultArtifactReader::read`; the names of results are those of the writer, which are
paths. -/
def GcsResultReader.read (objects : StoredObjects) (locator : StoredResultLocator)
    (maximumBytes : ℕ) : Option (List UInt8) :=
  if !reader.buckets.contains locator.objectBucket then none
  else if reply ≠ .answered then none
  else match version objects (locator.objectBucket,locator.objectName)
      (some locator.objectVersion) with
  | none => none
  | some result =>
    if locator.contentLength < 0 then none
    else if result.version ≠ some locator.objectVersion ∨
        result.bytes.length ≠ locator.contentLength.toNat ∨
        maximumBytes < result.bytes.length then none
    else some result.bytes

/-- What `get_result` and `document_result` read behind a locator. -/
def readDocument (locator : StoredResultLocator) : Option (DocumentResult V) :=
  if locator.contentLength < 0 ∨ maximumResultBytes < locator.contentLength.toNat then none
  else match reader.read reply σ.objects locator maximumResultBytes with
  | none => none
  | some bytes =>
    if bytes.length ≠ locator.contentLength.toNat ∨
        sha256Digest lib.sha256 bytes ≠ locator.objectDigest then none
    else match (lib.parse bytes).bind ResultJson.readResult with
    | none => none
    | some result =>
      if result.documentId ≠ locator.documentId ∨
          result.documentVersion ≠ locator.documentVersion then none
      else some result

/-- `get_result` -/
def getResult (identity : WorkloadIdentity.TrustedIdentity) (jobId : String) :
    Except ApiError (DocumentResult V) :=
  match JobId.new jobId with
  | .error _ => .error .notFound
  | .ok jobId => match findResult σ.store ⟨identity.productId,identity.tenantId⟩ jobId with
    | .error _ => .error .unavailable
    | .ok .notFound => .error .notFound
    | .ok (.notReady _) => .error .resultNotReady
    | .ok (.unavailable _) => .error .resultUnavailable
    | .ok (.ready locator) => match readDocument lib reader reply σ locator with
      | none => .error .unavailable
      | some result => .ok result

/-- The status, the code and the message of an error of the tools. -/
structure RpcError where
  status : ℕ
  code : String
  message : String
  deriving DecidableEq, Repr

def toolUnavailable : RpcError :=
  ⟨503,"tool_unavailable","OCR tool is temporarily unavailable"⟩

/-- `document_result` -/
def documentResult (results : Option GcsResultReader) (grant : AccessGrants.OcrAccessGrant)
    (jobId : JobId) : Except RpcError (DocumentResult V) :=
  match results with
  | none => .error ⟨503,"tool_unavailable","OCR result reader is not configured"⟩
  | some reader => match findResult σ.store ⟨grant.productId,grant.tenantId⟩ jobId with
    | .ok (.ready locator) => match readDocument lib reader reply σ locator with
      | none => .error toolUnavailable
      | some result => .ok result
    | .ok .notFound => .error ⟨404,"not_found","document job was not found"⟩
    | .ok (.notReady _) | .ok (.unavailable _) =>
      .error ⟨409,"result_unavailable","document result is not available"⟩
    | .error _ => .error toolUnavailable

end Serve

/-! ### What goes on besides -/

/-- A transaction of the database, or a write to the object store. -/
inductive Action where
  | store (a : OutboxExhaustion.Action)
  | put (o : StoredObject)
  | create (o : StoredObject)

def step (σ : Platform) : Action → Platform
  | .store a => ⟨OutboxExhaustion.step σ.store a,σ.objects⟩
  | .put o => ⟨σ.store,ObjectStorage.put σ.objects o⟩
  | .create o => ⟨σ.store,ObjectStorage.create σ.objects o⟩

def Reached (σ : Platform) : Prop := Inv σ.store ∧ Lifecycle σ.store

theorem step_reached {σ : Platform} (h : Reached σ) (a : Action) : Reached (step σ a) := by
  cases a with
  | store a => exact JobLifecycle.step_kept h a
  | put o => exact h
  | create o => exact h

theorem step_extends (σ : Platform) (a : Action) : Extends σ.objects (step σ a).objects := by
  cases a with
  | store a => exact Extends.refl σ.objects
  | put o => exact extends_put σ.objects o
  | create o => exact extends_create σ.objects o

theorem run_reached {σ : Platform} (h : Reached σ) (as : List Action) :
    Reached (Transition.run step σ as) :=
  Transition.run_invariant (I := Reached) (fun _ a h => step_reached h a) h as

theorem run_extends (σ : Platform) (as : List Action) :
    Extends σ.objects (Transition.run step σ as).objects := by
  induction as generalizing σ with
  | nil => exact Extends.refl σ.objects
  | cons a as ih => exact (step_extends σ a).trans (ih (step σ a))

theorem run_results {σ : Platform} (h : Reached σ) {r : ResultRow} (hr : r ∈ σ.store.results)
    (as : List Action) : findResult (Transition.run step σ as).store r.scope r.jobId =
      .ok (.ready r.locator) := by
  have hkept : Reached (Transition.run step σ as) ∧
      r ∈ (Transition.run step σ as).store.results := by
    refine Transition.run_invariant (I := fun σ => Reached σ ∧ r ∈ σ.store.results)
      (fun τ a hτ => ⟨step_reached hτ.1 a,?_⟩) ⟨h,hr⟩ as
    cases a with
    | store a => exact JobLifecycle.step_results hτ.1.1 a hτ.2
    | put o => exact hτ.2
    | create o => exact hτ.2
  exact JobLifecycle.findResult_ready hkept.1.2 hkept.2

/-! ### A published result -/

section Published
variable {V : Type} {lib : Libraries V} {writer : GcsResultWriter} {scope : Scope}
  {jobId : JobId} {result : DocumentResult V} {locator : StoredResultLocator}

/-- The version to which the locator points is that of the result. -/
structure Located (lib : Libraries V) (writer : GcsResultWriter) (scope : Scope)
    (result : DocumentResult V) (objects : StoredObjects) (locator : StoredResultLocator) :
    Prop where
  identity : locator.documentId = result.documentId ∧
    locator.documentVersion = result.documentVersion
  bucket : writer.bucket scope.productId = some locator.objectBucket
  digest : locator.objectDigest =
    sha256Digest lib.sha256 (ResultJson.toVec lib.formatF64 lib.formatValue result)
  length : locator.contentLength = (ResultJson.toVec lib.formatF64 lib.formatValue result).length
  limit : (ResultJson.toVec lib.formatF64 lib.formatValue result).length ≤ maximumResultBytes
  stored : version objects (locator.objectBucket,locator.objectName)
      (some locator.objectVersion) = some ⟨(locator.objectBucket,locator.objectName),
    some locator.objectVersion,ResultJson.toVec lib.formatF64 lib.formatValue result⟩

theorem Located.extends {objects objects' : StoredObjects} (hextends : Extends objects objects')
    (h : Located lib writer scope result objects locator) :
    Located lib writer scope result objects' locator :=
  { h with stored := hextends _ _ _ h.stored }

theorem prepared_fields {prepared : PreparedResultArtifact}
    (h : prepareResultArtifact lib.formatF64 lib.formatValue writer scope jobId result =
      .ok prepared) :
    writer.bucket scope.productId = some prepared.path.1 ∧
      prepared.bytes = ResultJson.toVec lib.formatF64 lib.formatValue result ∧
      prepared.bytes.length ≤ maximumResultBytes := by
  have hbytes := prepare_ok h
  rw [prepareResultArtifact] at h
  cases hbucket : writer.bucket scope.productId with
  | none =>
    rw [hbucket] at h
    cases h
  | some bucket =>
    rw [hbucket] at h
    dsimp only at h
    by_cases hsize : ResultJson.toVec lib.formatF64 lib.formatValue result = [] ∨
        maximumResultBytes < (ResultJson.toVec lib.formatF64 lib.formatValue result).length
    · rw [if_pos hsize] at h
      cases h
    · rw [if_neg hsize,Except.ok.injEq] at h
      subst prepared
      exact ⟨rfl,rfl,Nat.not_lt.mp (not_or.mp hsize).2⟩

/-- What is read back is the object which was to be written. -/
theorem readBack_fields {prepared : PreparedResultArtifact} {stored : Option StoredObject}
    (h : readBack lib.sha256 result prepared stored = .ok locator) :
    ∃ o, stored = some o ∧ o.version = some locator.objectVersion ∧
      o.bytes = prepared.bytes ∧ locator = {
        documentId := result.documentId
        documentVersion := result.documentVersion
        objectBucket := prepared.path.1
        objectName := prepared.path.2
        objectVersion := locator.objectVersion
        objectDigest := sha256Digest lib.sha256 prepared.bytes
        contentLength := prepared.bytes.length } := by
  cases stored with
  | none => cases h
  | some o =>
    rw [readBack] at h
    cases hversion : o.version.filter validObjectVersion with
    | none =>
      rw [hversion] at h
      cases h
    | some generation =>
      rw [hversion] at h
      dsimp only at h
      by_cases hlength : o.bytes.length ≠ prepared.bytes.length
      · rw [if_pos hlength] at h
        cases h
      rw [if_neg hlength] at h
      by_cases hdiffer : o.bytes ≠ prepared.bytes ∨
          sha256Digest lib.sha256 o.bytes ≠ sha256Digest lib.sha256 prepared.bytes
      · rw [if_pos hdiffer] at h
        cases h
      rw [if_neg hdiffer,Except.ok.injEq] at h
      rw [not_or,not_not] at hdiffer
      subst locator
      exact ⟨o,rfl,(Option.filter_eq_some_iff.mp hversion).1,hdiffer.1,rfl⟩

/-- The locator which a write returns is that of the result. -/
theorem write_located {reply : StorageReply} {generation : Option String}
    {objects written : StoredObjects}
    (h : write lib.formatF64 lib.formatValue lib.sha256 writer scope jobId reply generation
      objects result = (.ok locator,written)) :
    Extends objects written ∧ Located lib writer scope result written locator := by
  rw [write] at h
  cases hprepared : prepareResultArtifact lib.formatF64 lib.formatValue writer scope jobId
      result with
  | error e =>
    rw [hprepared] at h
    cases (Prod.mk.inj h).1
  | ok prepared =>
    rw [hprepared] at h
    cases reply with
    | refused => cases (Prod.mk.inj h).1
    | lost => cases (Prod.mk.inj h).1
    | answered =>
      obtain ⟨hread,rfl⟩ := Prod.mk.inj h
      refine ⟨extends_create objects _,?_⟩
      obtain ⟨hbucket,hbytes,hlimit⟩ := prepared_fields hprepared
      obtain ⟨o,hcurrent,hversion,hsame,hlocator⟩ := readBack_fields hread
      have hpath := current_path hcurrent
      have hfound := version_current hcurrent
      have ho : o = ⟨prepared.path,some locator.objectVersion,prepared.bytes⟩ := by
        rw [← hpath,← hversion,← hsame]
      rw [hversion,ho] at hfound
      rw [hbytes] at hfound hlimit hlocator
      rw [hlocator]
      exact ⟨⟨rfl,rfl⟩,hbucket,rfl,rfl,hlimit,hfound⟩

/-- What a reader makes of the bytes of a result. -/
def readAs (lib : Libraries V) (result : DocumentResult V) : Option (DocumentResult V) :=
  ((lib.parse (ResultJson.toVec lib.formatF64 lib.formatValue result)).bind
    ResultJson.readResult).filter fun document =>
      decide (document.documentId = result.documentId) &&
        decide (document.documentVersion = result.documentVersion)

/-- The same for the answers of the store. -/
def answeredAs (lib : Libraries V) (result : DocumentResult V) :
    StorageReply → Option (DocumentResult V)
  | .answered => readAs lib result
  | .lost | .refused => none

/-- The object of a locator is read as the bytes of its result. -/
theorem readDocument_located {reader : GcsResultReader} {σ : Platform}
    (hbuckets : ∀ route ∈ writer.routes, route.2 ∈ reader.buckets)
    (h : Located lib writer scope result σ.objects locator) (answer : StorageReply) :
    readDocument lib reader answer σ locator = answeredAs lib result answer := by
  by_cases hanswer : answer ≠ .answered
  · have hread : reader.read answer σ.objects locator maximumResultBytes = none := by
      rw [GcsResultReader.read,if_pos hanswer,ite_self]
    rw [readDocument,hread,ite_self]
    cases answer with
    | answered => exact absurd rfl hanswer
    | lost => rfl
    | refused => rfl
  obtain rfl := not_not.mp hanswer
  obtain ⟨route,hroute,hbucket⟩ := Option.map_eq_some_iff.mp h.bucket
  have hserved : reader.buckets.contains locator.objectBucket = true := by
    rw [← hbucket,List.contains_iff_mem]
    exact hbuckets route (List.mem_of_find?_eq_some hroute)
  have hlimit := h.limit
  have hread : reader.read .answered σ.objects locator maximumResultBytes =
      some (ResultJson.toVec lib.formatF64 lib.formatValue result) := by
    rw [GcsResultReader.read,hserved,h.stored,h.length]
    simp only [Int.toNat_natCast]
    rw [if_neg (by simp),if_neg (by simp),if_neg (by omega),if_neg (by simp; omega)]
  rw [readDocument,hread,h.length,h.digest,h.identity.1,h.identity.2,Int.toNat_natCast,
    if_neg (by omega)]
  dsimp only
  rw [if_neg (by simp),answeredAs,readAs]
  cases (lib.parse (ResultJson.toVec lib.formatF64 lib.formatValue result)).bind
      ResultJson.readResult with
  | none => rfl
  | some document =>
    dsimp only
    rw [Option.filter_some]
    by_cases hsame : document.documentId ≠ result.documentId ∨
        document.documentVersion ≠ result.documentVersion
    · rw [if_pos hsame,if_neg]
      simpa [or_iff_not_imp_left] using hsame
    · rw [if_neg hsame,if_pos]
      simpa [not_or] using hsame

/-- A commit which adds a result finds an active job without one. -/
theorem commit_found {s committed : Store} {now : ℤ} {state : JobState} {found : StoredJob}
    (h : commitLocator scope jobId s now state result locator =
      .ok (.committed found,committed)) :
    (∃ job, s.jobs.find? (isJob scope jobId) = some job ∧
      (job.status = .processing ∨ job.status = .validating)) ∧
      (∀ r ∈ s.results, r.jobId ≠ jobId) ∧ ⟨jobId,scope,locator⟩ ∈ committed.results ∧
      committed = Commands.execute s now (.commitResult scope jobId ⟨locator,state⟩) := by
  have hcommit : commitResult s now scope jobId ⟨locator,state⟩ =
      .ok (.committed found,committed) := by
    rw [commitLocator] at h
    split at h
    · cases h
    · cases hresult : commitResult s now scope jobId ⟨locator,state⟩ with
      | error e =>
        rw [hresult] at h
        cases h
      | ok x =>
        rw [hresult] at h
        rw [Except.ok.inj h]
  have hexecute : committed = Commands.execute s now (.commitResult scope jobId ⟨locator,state⟩) := by
    rw [Commands.execute,hcommit]
    rfl
  rw [commitResult] at hcommit
  split at hcommit
  · cases hcommit
  split at hcommit
  · cases hcommit
  split at hcommit
  · cases hcommit
  rename_i job hfind
  split at hcommit
  · split at hcommit
    · cases hcommit
    · split at hcommit <;> cases hcommit
  split at hcommit
  · cases hcommit
  rename_i hstatus
  split at hcommit
  · cases hcommit
  rename_i hunique
  have hactive : job.status = .processing ∨ job.status = .validating := by
    by_contra hother
    exact hstatus (not_or.mp hother)
  refine ⟨⟨job,hfind,hactive⟩,?_,?_,hexecute⟩
  · intro r hr hid
    apply hunique
    rw [Bool.or_eq_true,List.any_eq_true]
    exact Or.inr ⟨r,hr,by simp [hid]⟩
  · obtain ⟨hscope,hid⟩ := (Commands.isJob_iff _ _ _).mp (Table.mem_of_find? hfind).2
    obtain ⟨_,rfl⟩ := Prod.mk.inj (Except.ok.inj hcommit)
    rw [commitRow]
    rw [← hscope,← hid]
    split <;> exact List.mem_append_right _ List.mem_cons_self

theorem uncommitted_notReady {s : Store} {job : JobRow}
    (hfind : s.jobs.find? (isJob scope jobId) = some job)
    (hactive : job.status = .processing ∨ job.status = .validating)
    (hnone : ∀ r ∈ s.results, r.jobId ≠ jobId) :
    findResult s scope jobId = .ok (.notReady job.status) := by
  have hid := ((Commands.isJob_iff _ _ _).mp (Table.mem_of_find? hfind).2).2
  have hresults : s.results.find? (·.jobId == job.jobId) = none := by
    rw [List.find?_eq_none]
    intro r hr
    rw [hid]
    simpa using hnone r hr
  rw [findResult,hfind]
  dsimp only
  rw [hresults]
  rcases hactive with h | h <;> rw [h]

/-- Let an execution write a result, and let anybody act until it commits the locator, and
after that. Before the commit neither endpoint has a result, and from then on both answer
with what the parser makes of the bytes of the result, whenever the object store answers. -/
theorem published_served {σ : Platform} (hσ : Reached σ) {reply : StorageReply}
    {generation : Option String} {written : StoredObjects}
    (hwrite : write lib.formatF64 lib.formatValue lib.sha256 writer scope jobId reply generation
      σ.objects result = (.ok locator,written))
    {before : List Action} {τ : Platform}
    (hτ : τ = Transition.run step ⟨σ.store,written⟩ before)
    {now : ℤ} {state : JobState} {found : StoredJob} {committed : Store}
    (hcommit : commitLocator scope jobId τ.store now state result locator =
      .ok (.committed found,committed))
    {reader : GcsResultReader} (hbuckets : ∀ route ∈ writer.routes, route.2 ∈ reader.buckets)
    {identity : WorkloadIdentity.TrustedIdentity} {grant : AccessGrants.OcrAccessGrant}
    (hidentity : (⟨identity.productId,identity.tenantId⟩ : Scope) = scope)
    (hgrant : (⟨grant.productId,grant.tenantId⟩ : Scope) = scope) (after : List Action)
    (answer : StorageReply) :
    getResult lib reader answer τ identity jobId.asStr = .error .resultNotReady ∧
      documentResult lib answer τ reader grant jobId =
        .error ⟨409,"result_unavailable","document result is not available"⟩ ∧
      let served := Transition.run step ⟨committed,τ.objects⟩ after
      getResult lib reader answer served identity jobId.asStr =
          (answeredAs lib result answer).elim (.error .unavailable) .ok ∧
        documentResult lib answer served reader grant jobId =
          (answeredAs lib result answer).elim (.error toolUnavailable) .ok := by
  obtain ⟨hextends,hlocated⟩ := write_located hwrite
  obtain ⟨⟨job,hfind,hactive⟩,hnone,hrow,hexecute⟩ := commit_found hcommit
  have hparsed : JobId.new jobId.asStr = .ok jobId := by
    rw [JobId.new,dif_pos jobId.valid]
  have hnotReady := uncommitted_notReady hfind hactive hnone
  have hreached : Reached τ := by
    rw [hτ]
    exact run_reached (σ := ⟨σ.store,written⟩) hσ before
  have hcommitted : Reached ⟨committed,τ.objects⟩ := by
    rw [hexecute]
    exact step_reached hreached
      (.store (.command now (.commitResult scope jobId ⟨locator,state⟩)))
  have hlocatedServed : Located lib writer scope result
      (Transition.run step ⟨committed,τ.objects⟩ after).objects locator := by
    refine hlocated.extends (Extends.trans ?_ (run_extends ⟨committed,τ.objects⟩ after))
    rw [hτ]
    exact run_extends ⟨σ.store,written⟩ before
  have hready := run_results hcommitted hrow after
  have hdocument := readDocument_located hbuckets hlocatedServed answer
  refine ⟨?_,?_,?_,?_⟩
  · rw [getResult,hparsed,hidentity]
    dsimp only
    rw [hnotReady]
  · rw [documentResult,hgrant,hnotReady]
  · rw [getResult,hparsed,hidentity]
    dsimp only
    rw [hready]
    simp only [hdocument]
    cases answeredAs lib result answer with
    | none => rfl
    | some document => rfl
  · rw [documentResult,hgrant,hready]
    simp only [hdocument]
    cases answeredAs lib result answer with
    | none => rfl
    | some document => rfl

end Published

/-! ### A result which is served -/

section Priced

def pricedLibraries : Libraries ℕ where
  extract _ _ := ResultAssembly.ExtractedFields.default
  formatF64 := ResultAssembly.decimal
  formatValue := toString
  parse _ := some (ResultJson.writeResult ResultJson.pricedResult)
  sha256 _ := Vector.replicate 32 0

theorem resultBucket_valid : isBucketName "results-eu" = true := by decide

theorem resultRoute_valid : ([((default : ProductId),"results-eu")].all fun route =>
    isBucketName route.2) = true := by
  simp [resultBucket_valid]

theorem resultRoute_distinct : ([((default : ProductId),"results-eu")].map (·.1)).Nodup ∧
    ([((default : ProductId),"results-eu")].map (·.2)).Nodup :=
  ⟨List.nodup_singleton _,List.nodup_singleton _⟩

theorem resultBuckets_valid :
    (!List.isEmpty ["results-eu"] && ["results-eu"].all isBucketName) = true := by
  simp [resultBucket_valid]

def resultWriter : GcsResultWriter :=
  ⟨[(default,"results-eu")],resultRoute_valid,resultRoute_distinct⟩

def resultReader : GcsResultReader :=
  ⟨["results-eu"],resultBuckets_valid,List.nodup_singleton _⟩

/-- A job whose pages are being processed. -/
def activeRun : List OutboxExhaustion.Action :=
  Commands.acceptedJob.map (.command 3)++
    match PageCheckpoint.PageWorkflow.new default 1 1 with
    | .ok workflow => [.command 4 (.createPageWorkflow default default workflow)]
    | .error _ => []

def activeJob : Platform := ⟨Transition.run OutboxExhaustion.step empty activeRun,[]⟩

theorem activeJob_reached : Reached activeJob := JobLifecycle.run_kept activeRun

def pricedWrite : Except ResultArtifactWriteError StoredResultLocator × StoredObjects :=
  write pricedLibraries.formatF64 pricedLibraries.formatValue pricedLibraries.sha256 resultWriter
    default default .answered (some "7") activeJob.objects ResultJson.pricedResult

/-- The path is overwritten before the commit. -/
def overwritten : List Action :=
  [.put ⟨("results-eu",objectName default default ResultJson.pricedResult.documentVersion),
    some "8",[]⟩]

/-- The commit of what was written, if it adds a result. -/
def committing (s : Store) (written : Except ResultArtifactWriteError StoredResultLocator) :
    Option (StoredResultLocator × StoredJob × Store) :=
  match written with
  | .error _ => none
  | .ok locator => match commitLocator default default s 9 .completed
      ResultJson.pricedResult locator with
    | .ok (.committed found,committed) => some (locator,found,committed)
    | _ => none

theorem committing_some {s committed : Store}
    {written : Except ResultArtifactWriteError StoredResultLocator}
    {locator : StoredResultLocator} {found : StoredJob}
    (h : committing s written = some (locator,found,committed)) :
    written = .ok locator ∧ commitLocator default default s 9 .completed
      ResultJson.pricedResult locator = .ok (.committed found,committed) := by
  unfold committing at h
  split at h
  · cases h
  · split at h
    · rename_i heq
      cases h
      exact ⟨rfl,heq⟩
    · cases h

def beforeCommit : Platform := Transition.run step ⟨activeJob.store,pricedWrite.2⟩ overwritten

theorem priced_commits : (committing beforeCommit.store pricedWrite.1).isSome = true := by
  decide +kernel

def pricedIdentity : WorkloadIdentity.TrustedIdentity := ⟨default,default⟩

def pricedGrant : AccessGrants.OcrAccessGrant := ⟨default,default,"usr_a"⟩

theorem priced_readAs :
    readAs pricedLibraries ResultJson.pricedResult = some ResultJson.pricedResult := by
  rw [readAs,pricedLibraries,Option.bind_some,ResultJson.read_write_priced,Option.filter_some,
    if_pos (by simp)]

/-- The result is served although its path has a newer version. -/
theorem priced_served : ∃ committed : Store,
    getResult pricedLibraries resultReader .answered ⟨committed,beforeCommit.objects⟩
        pricedIdentity "job_a" = .ok ResultJson.pricedResult ∧
      documentResult pricedLibraries .answered ⟨committed,beforeCommit.objects⟩ resultReader
        pricedGrant default = .ok ResultJson.pricedResult := by
  obtain ⟨⟨locator,found,committed⟩,hcommit⟩ := Option.isSome_iff_exists.mp priced_commits
  obtain ⟨hwritten,hcommit⟩ := committing_some hcommit
  have hwrite : pricedWrite = (.ok locator,pricedWrite.2) := by
    rw [← hwritten,Prod.mk.eta]
  obtain ⟨_,_,hget,htool⟩ := @published_served ℕ pricedLibraries resultWriter default default
    ResultJson.pricedResult locator activeJob activeJob_reached .answered (some "7")
    pricedWrite.2 (pricedWrite.eq_def.symm.trans hwrite) overwritten beforeCommit
    beforeCommit.eq_def 9 .completed found committed hcommit resultReader (by decide)
    pricedIdentity pricedGrant rfl rfl [] .answered
  rw [answeredAs,priced_readAs] at hget htool
  exact ⟨committed,hget,htool⟩

end Priced

end DocumentIntelligence.ServedResults
