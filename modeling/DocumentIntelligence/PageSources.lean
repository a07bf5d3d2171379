import DocumentIntelligence.InspectionGate
import DocumentIntelligence.JobRequests
import DocumentIntelligence.TenantOperations

/-!
# Where pages are read from

A page is read from the promoted object of an accepted upload, in the version which the
upload names. Uploads pass the inspection gate while jobs are created and loaded, and what a
page is read from is what the gate has let through.
-/

set_option autoImplicit false

namespace DocumentIntelligence.PageSources
open BigEndian ObjectStorage SourceReading SourcePromotion
open Identifiers hiding Error
open Schema Uploads Jobs
open ContentVerification (Sha256 ObjectError DocumentReadError sha256Digest collectVerified
  collectVerified_content collectVerified_unsized Sized)
open GeometryContract (StoredAcceptedSource AcceptedColumns ParserInspectionReport
  acceptedColumns storedAcceptedSource parserInspection)
open Importer (Services System)
open InspectionGate (Cleared)
open JobRequests (rowCommand)
open StorageLocations (isBucketName)
open Table (bind_ok)
open TenantOperations (acceptedJob loadAcceptedSource)

/-! ### The bytes of an accepted source -/

inductive AcceptedSourceReadError where
  | invalid
  | unavailable
  deriving DecidableEq, Repr

structure GcsAcceptedSourceReader where
  routes : List (ProductId×String)
  valid : (!routes.isEmpty && routes.all fun route => isBucketName route.2) = true
  distinct : (routes.map (·.1)).Nodup

def mapObjectError : ObjectError → AcceptedSourceReadError
  | .notFound | .precondition => .invalid
  | .other => .unavailable

def mapDocumentError : DocumentReadError → AcceptedSourceReadError
  | .invalid => .invalid
  | .unavailable => .unavailable

def expectedName (scope : Scope) (digest : List Char) : String :=
  "products/"++scope.productId.asStr++"/tenants/"++scope.tenantId.asStr++"/documents/sha256/"++
    String.ofList digest

/-- `read_inner`; a read which takes too long is refused. -/
def GcsAcceptedSourceReader.read (services : Services) (reader : GcsAcceptedSourceReader)
    (scope : Scope) (source : StoredAcceptedSource) (objects : SourceObjects) (reply : GetReply) :
    Except AcceptedSourceReadError Bytes :=
  match reader.routes.find? (·.1 == scope.productId) with
  | none => .error .invalid
  | some route => match stripPrefix source.digest "sha256:" with
    | none => .error .invalid
    | some digest =>
      if source.bucket ≠ route.2 ∨ source.objectName ≠ expectedName scope digest then
        .error .invalid
      else if !services.isPath source.objectName then .error .invalid
      else match getOpts objects route.2 source.objectName (some source.generation) reply with
      | .error e => .error (mapObjectError e)
      | .ok (object,stream) =>
        if object.version ≠ source.generation then .error .invalid
        else (collectVerified services.sha256 source.contentLength source.digest
          object.bytes.length stream).mapError mapDocumentError

/-! ### The source of a page -/

inductive PageSourceError where
  | notFound
  | invalid
  | unavailable
  deriving DecidableEq, Repr

structure AcceptedPageSource where
  bytes : Bytes
  contentType : String
  geometry : PageGeometry
  deriving DecidableEq, Repr

def mapStoreError : Schema.Error → PageSourceError
  | .invalidStoredJob | .invalidStoredUpload | .uploadSourceUnavailable => .invalid
  | _ => .unavailable

def mapReadError : AcceptedSourceReadError → PageSourceError
  | .invalid => .invalid
  | .unavailable => .unavailable

/-- `u32::try_from(…).unwrap_or_default()` -/
def unwrapOrDefault (n : ℕ) : ℕ := if n < 2^32 then n else 0

def pageGeometry (source : StoredAcceptedSource) (page : ℕ) : Except PageSourceError PageGeometry :=
  if page = 0 ∨ source.pageCount = 0 ∨
      source.pageCount ≠ unwrapOrDefault source.pageGeometries.length then .error .invalid
  else match source.pageGeometries[page-1]?.filter (·.page == page) with
  | none => .error .invalid
  | some geometry => .ok geometry

structure AcceptedPageSourceLoader where
  services : Services
  reader : GcsAcceptedSourceReader

/-- What a load meets: whether the database answers, and the reply of the bucket. -/
structure Replies where
  answered : Bool
  reply : GetReply

section Load
variable (loader : AcceptedPageSourceLoader) (s : Store) (objects : SourceObjects) (scope : Scope)
variable (jobId : JobId) (page : ℕ) (replies : Replies)

def AcceptedPageSourceLoader.loadInner : Except PageSourceError AcceptedPageSource := do
  let source ← (if replies.answered then loadAcceptedSource s scope jobId
    else .error .database).mapError mapStoreError
  match source with
  | none => .error .notFound
  | some source =>
    let geometry ← pageGeometry source page
    let bytes ← (loader.reader.read loader.services scope source objects replies.reply).mapError
      mapReadError
    if (bytes.length : ℤ) ≠ source.contentLength then .error .invalid
    else .ok ⟨bytes,source.contentType,geometry⟩

end Load

/-! ### What a load returns -/

theorem mapError_ok {ε ε' α : Type} {f : ε → ε'} {x : Except ε α} {a : α} :
    x.mapError f = .ok a ↔ x = .ok a := by
  cases x with
  | error e => exact iff_of_false nofun nofun
  | ok b => rw [Except.mapError,Except.ok.injEq,Except.ok.injEq]

theorem pageGeometry_ok {source : StoredAcceptedSource} {page : ℕ} {geometry : PageGeometry}
    (h : pageGeometry source page = .ok geometry) :
    1 ≤ page ∧ source.pageGeometries[page-1]? = some geometry ∧ geometry.page = page := by
  rw [pageGeometry] at h
  split at h
  · cases h
  rename_i hbounds
  split at h
  · cases h
  rename_i found hfound
  cases h
  obtain ⟨hget,hnumber⟩ := Option.filter_eq_some_iff.mp hfound
  exact ⟨by omega,hget,beq_iff_eq.mp hnumber⟩

/-- What is collected of a version is all of it. -/
theorem collect_ok {sha256 : Sha256} {contentLength : ℤ} {digest : String}
    {bytes content : Bytes} {lengths : List ℕ} {failure : Option (ℕ×ObjectError)}
    (h : collectVerified sha256 contentLength digest bytes.length
      (intoStream bytes lengths failure) = .ok content) :
    content = bytes ∧ sha256Digest (sha256.digest bytes) = digest := by
  have hstream : intoStream bytes lengths failure =
      ContentVerification.streamOf (pieces lengths bytes) := by
    simp only [collectVerified] at h
    split at h
    · cases h
    split at h
    · cases h
    · obtain ⟨read,hread,_⟩ := bind_ok.mp h
      exact foldlM_intoStream (fun _ e => ⟨ContentVerification.mapReadError e,rfl⟩) hread
  rw [hstream] at h
  by_cases hsized : Sized contentLength bytes.length
  · rw [collectVerified_content sha256 digest hsized,flatten_pieces] at h
    split at h
    · rename_i hverified
      cases h
      exact ⟨rfl,hverified.2⟩
    · cases h
  · rw [collectVerified_unsized sha256 digest hsized] at h
    cases h

theorem read_ok {services : Services} {reader : GcsAcceptedSourceReader} {scope : Scope}
    {source : StoredAcceptedSource} {objects : SourceObjects} {reply : GetReply} {bytes : Bytes}
    (h : reader.read services scope source objects reply = .ok bytes) :
    ∃ found, object objects source.bucket source.objectName (some source.generation) =
      some found ∧ bytes = found.bytes ∧
        sha256Digest (services.sha256.digest bytes) = source.digest := by
  rw [GcsAcceptedSourceReader.read] at h
  split at h
  · cases h
  rename_i route hroute
  split at h
  · cases h
  rename_i digest hdigest
  split at h
  · cases h
  rename_i hlocated
  rw [not_or,not_not,not_not] at hlocated
  split at h
  · cases h
  split at h
  · cases h
  rename_i found stream hget
  split at h
  · cases h
  rw [mapError_ok] at h
  obtain ⟨hobject,lengths,failure,rfl⟩ := getOpts_ok hget
  obtain ⟨rfl,hverified⟩ := collect_ok h
  exact ⟨found,hlocated.1 ▸ hobject,rfl,hverified⟩

/-- What the columns of an accepted upload are read back as. -/
structure ReadBack (source : AcceptedSource) (contentType : String)
    (stored : StoredAcceptedSource) : Prop where
  bucket : stored.bucket = source.sourceBucket
  objectName : stored.objectName = source.sourceObjectName
  generation : stored.generation = source.sourceObjectVersion
  digest : stored.digest = source.sourceDigest
  contentLength : stored.contentLength = source.sourceContentLength
  contentType : stored.contentType = contentType
  geometries : stored.pageGeometries = source.parserInspection.pageGeometries

theorem decodeUnsigned_self {maximum n m : ℕ}
    (h : GeometryContract.decodeUnsigned maximum (.number n) = some m) : n ≤ maximum := by
  rw [GeometryContract.decodeUnsigned] at h
  split at h
  · assumption
  · cases h

theorem decodeGeometry_self {g found : PageGeometry}
    (h : GeometryContract.decodeGeometry (GeometryContract.encodeGeometry g) = some found) :
    found = g := by
  have hpage : g.page ≤ GeometryContract.u32Max := by
    obtain ⟨page,hpage,_⟩ := Option.bind_eq_some_iff.mp (show (do
      let page ← (some (Json.Value.number g.page)).bind
        (GeometryContract.decodeUnsigned GeometryContract.u32Max)
      let width ← (some (Json.Value.number g.width)).bind
        (GeometryContract.decodeUnsigned GeometryContract.u32Max)
      let height ← (some (Json.Value.number g.height)).bind
        (GeometryContract.decodeUnsigned GeometryContract.u32Max)
      Inspection.newPageGeometry page width height) = some found from h)
    exact decodeUnsigned_self hpage
  rw [GeometryContract.decodeGeometry_encode hpage,Option.some.injEq] at h
  exact h.symm

theorem decodeGeometries_self {pages found : List PageGeometry}
    (h : GeometryContract.decodeGeometries
      (.array (pages.map GeometryContract.encodeGeometry)) = some found) : found = pages := by
  have hall := Table.mapM_some_iff.mp h
  rw [List.forall₂_map_left_iff] at hall
  rw [← List.forall₂_eq_eq_eq]
  exact (hall.imp fun _ _ => decodeGeometry_self).flip

theorem stored_ok {source : AcceptedSource} {contentType : String} {columns : AcceptedColumns}
    {stored : StoredAcceptedSource} (hcolumns : acceptedColumns source contentType = some columns)
    (h : storedAcceptedSource columns = .ok stored) : ReadBack source contentType stored := by
  have hcolumn : CheckpointText.column ((Json.Value.array
      (source.parserInspection.pageGeometries.map GeometryContract.encodeGeometry)).text
        Json.compact) = some (.array
          (source.parserInspection.pageGeometries.map GeometryContract.encodeGeometry)) := by
    rw [CheckpointText.column,Json.parse_text Json.compact_blank,Option.map_some,
      GeometryContract.toJsonb_geometries]
  simp only [acceptedColumns,hcolumn,Option.map_some,Option.some.injEq] at hcolumns
  subst hcolumns
  rw [storedAcceptedSource] at h
  split at h
  · cases h
  rename_i read hread
  split at h
  · cases h
    obtain ⟨count,_,hread⟩ := Option.bind_eq_some_iff.mp hread
    obtain ⟨maximum,_,hread⟩ := Option.bind_eq_some_iff.mp hread
    obtain ⟨total,_,hread⟩ := Option.bind_eq_some_iff.mp hread
    obtain ⟨pages,hpages,hread⟩ := Option.bind_eq_some_iff.mp hread
    rw [Json.parse_text Json.spaced_blank,Option.bind_some] at hpages
    cases hread
    exact ⟨rfl,rfl,rfl,rfl,rfl,rfl,decodeGeometries_self hpages⟩
  · cases h

/-- The row of an accepted upload which is joined to the job. -/
structure Joined (s : Store) (scope : Scope) (jobId : JobId) (job : JobRow) (u : UploadRow) :
    Prop where
  jobRow : s.jobs.find? (isJob scope jobId) = some job
  uploadRow : s.uploads.find? (fun u => isUpload scope job.uploadId u && u.status == .accepted) =
    some u

theorem acceptedJob_some {s : Store} {scope : Scope} {jobId : JobId} {job : JobRow}
    {u : UploadRow} : acceptedJob s scope jobId = some (job,u) ↔ Joined s scope jobId job u := by
  rw [acceptedJob]
  constructor
  · intro h
    obtain ⟨found,hjob,h⟩ := Option.bind_eq_some_iff.mp h
    obtain ⟨upload,hupload,h⟩ := Option.bind_eq_some_iff.mp h
    cases h
    exact ⟨hjob,hupload⟩
  · rintro ⟨hjob,hupload⟩
    exact Option.bind_eq_some_iff.mpr ⟨job,hjob,Option.bind_eq_some_iff.mpr ⟨u,hupload,rfl⟩⟩

/-- The source of the page, read from the version which the accepted upload names. -/
structure ReadFrom (sha256 : Sha256) (objects : SourceObjects) (u : UploadRow) (page : ℕ)
    (accepted : AcceptedSource) (found : SourceObject) (source : AcceptedPageSource) : Prop where
  named : u.source = some accepted
  version : object objects accepted.sourceBucket accepted.sourceObjectName
    (some accepted.sourceObjectVersion) = some found
  bytes : source.bytes = found.bytes
  digest : sha256Digest (sha256.digest source.bytes) = accepted.sourceDigest
  length : (source.bytes.length : ℤ) = accepted.sourceContentLength
  contentType : source.contentType = u.expectedContentType
  number : 1 ≤ page ∧ source.geometry.page = page
  geometry : accepted.parserInspection.pageGeometries[page-1]? = some source.geometry

section Load
variable {loader : AcceptedPageSourceLoader} {s : Store} {objects : SourceObjects} {scope : Scope}
variable {jobId : JobId} {page : ℕ} {replies : Replies} {source : AcceptedPageSource}

theorem loadInner_ok (h : loader.loadInner s objects scope jobId page replies = .ok source) :
    ∃ job u accepted found, Joined s scope jobId job u ∧
      ReadFrom loader.services.sha256 objects u page accepted found source := by
  rw [AcceptedPageSourceLoader.loadInner] at h
  obtain ⟨loaded,hloaded,h⟩ := bind_ok.mp h
  rw [mapError_ok] at hloaded
  split at hloaded
  · rw [loadAcceptedSource] at hloaded
    split at hloaded
    · cases hloaded
      cases h
    rename_i job u hjoined
    split at hloaded
    · cases hloaded
    rename_i columns hcolumns
    obtain ⟨accepted,haccepted,hcolumns⟩ := Option.bind_eq_some_iff.mp hcolumns
    cases hstored : storedAcceptedSource columns with
    | error e =>
      rw [hstored] at hloaded
      cases hloaded
    | ok stored =>
      rw [hstored] at hloaded
      cases hloaded
      obtain ⟨geometry,hgeometry,h⟩ := bind_ok.mp h
      obtain ⟨bytes,hbytes,h⟩ := bind_ok.mp h
      split at h
      · cases h
      rename_i hlength
      cases h
      rw [mapError_ok] at hbytes
      have hback := stored_ok hcolumns hstored
      obtain ⟨found,hfound,hread,hdigest⟩ := read_ok hbytes
      obtain ⟨hpage,hget,hnumber⟩ := pageGeometry_ok hgeometry
      rw [hback.bucket,hback.objectName,hback.generation] at hfound
      exact ⟨job,u,accepted,found,acceptedJob_some.mp hjoined,haccepted,hfound,hread,
        hback.digest ▸ hdigest,hback.contentLength ▸ not_not.mp hlength,hback.contentType,
        ⟨hpage,hnumber⟩,hback.geometries ▸ hget⟩
  · cases hloaded

end Load

/-! ### The gate and the jobs -/

/-- Uploads are accepted through the gate alone. -/
def changesUploads : OutboxExhaustion.Action → Bool
  | .command _ (.upload _) => true
  | _ => false

inductive Action where
  | gate (a : Importer.Action)
  | job (a : OutboxExhaustion.Action) (h : changesUploads a = false)

def step (services : Services) (σ : System) : Action → System
  | .gate a => Importer.step services σ a
  | .job a _ => { σ with store := OutboxExhaustion.step σ.store a }

section Jobs
variable {s : Store}

theorem command_uploads (now : ℤ) (c : Commands.Command)
    (h : changesUploads (.command now c) = false) :
    (Commands.execute s now c).uploads = s.uploads ∧
      (Commands.execute s now c).uploadOutbox = s.uploadOutbox := by
  cases c with
  | upload action => cases h
  | create request =>
    simp only [Commands.execute,Jobs.create]
    split
    · exact ⟨rfl,rfl⟩
    · split
      · split <;> exact ⟨rfl,rfl⟩
      · split
        · exact ⟨rfl,rfl⟩
        · split <;> exact ⟨rfl,rfl⟩
  | cancel scope jobId =>
    simp only [Commands.execute,Jobs.cancel]
    split
    · exact ⟨rfl,rfl⟩
    · split
      · exact ⟨rfl,rfl⟩
      · split <;> exact ⟨rfl,rfl⟩
  | completeCancellation scope jobId =>
    simp only [Commands.execute,Jobs.completeCancellation]
    split
    · exact ⟨rfl,rfl⟩
    · split <;> exact ⟨rfl,rfl⟩
  | createPageWorkflow scope jobId workflow =>
    simp only [Commands.execute,PageWorkflowStore.createPageWorkflow]
    split
    · exact ⟨rfl,rfl⟩
    · split
      · split <;> exact ⟨rfl,rfl⟩
      · split
        · split <;> exact ⟨rfl,rfl⟩
        · exact ⟨rfl,rfl⟩
  | savePageWorkflow scope jobId revision workflow artifacts =>
    simp only [Commands.execute,PageWorkflowStore.savePageWorkflowWithArtifacts]
    split
    · exact ⟨rfl,rfl⟩
    · split
      · exact ⟨rfl,rfl⟩
      · split
        · exact ⟨rfl,rfl⟩
        · split
          · exact ⟨rfl,rfl⟩
          · split <;> exact ⟨rfl,rfl⟩
  | commitResult scope jobId command =>
    simp only [Commands.execute,Jobs.commitResult]
    split
    · exact ⟨rfl,rfl⟩
    · split
      · exact ⟨rfl,rfl⟩
      · split
        · exact ⟨rfl,rfl⟩
        · split
          · split
            · exact ⟨rfl,rfl⟩
            · split <;> exact ⟨rfl,rfl⟩
          · split
            · exact ⟨rfl,rfl⟩
            · split
              · exact ⟨rfl,rfl⟩
              · simp only [commit_ok,commitRow]
                split <;> exact ⟨rfl,rfl⟩

theorem job_uploads (hi : OutboxExhaustion.Inv s) {a : OutboxExhaustion.Action}
    (h : changesUploads a = false) :
    (OutboxExhaustion.step s a).uploads = s.uploads ∧
      (OutboxExhaustion.step s a).uploadOutbox = s.uploadOutbox := by
  cases a with
  | command now c => exact command_uploads now c h
  | claim now scope request =>
    rcases OutboxExhaustion.claim_cases hi.sourced now scope request with
      ⟨_,heq | heq⟩ | ⟨_,_,heq⟩ <;> rw [heq] <;> exact ⟨rfl,rfl⟩
  | claimWebhook now scope request =>
    rcases OutboxExhaustion.claimWebhook_cases s now scope request with heq | heq <;> rw [heq] <;>
      exact ⟨rfl,rfl⟩
  | publish now scope eventId owner =>
    rcases OutboxExhaustion.publish_cases s now scope eventId owner with ⟨_,heq⟩ | ⟨_,heq⟩ <;>
      rw [heq] <;> exact ⟨rfl,rfl⟩

theorem create_jobs (now : ℤ) (request : CreateJob) {job : JobRow} (hjob : job ∈ s.jobs) :
    job ∈ (commit s (Jobs.create s now request)).jobs := by
  rw [Jobs.create]
  split
  · exact hjob
  · split
    · split <;> exact hjob
    · split
      · exact hjob
      · split
        · exact hjob
        · exact List.mem_append_left _ hjob

/-- A job keeps its upload. -/
theorem job_kept (hi : OutboxExhaustion.Inv s) (a : OutboxExhaustion.Action) {job : JobRow}
    (hjob : job ∈ s.jobs) : ∃ job' ∈ (OutboxExhaustion.step s a).jobs,
      rowCommand job' = rowCommand job := by
  cases hcreates : JobRequests.createsJob a with
  | false =>
    have hmem := List.mem_map_of_mem (f := rowCommand) hjob
    rw [← JobRequests.other_kept hi hcreates] at hmem
    exact List.mem_map.mp hmem
  | true =>
    cases a with
    | command now c =>
      cases c with
      | create request => exact ⟨job,create_jobs now request hjob,rfl⟩
      | _ => cases hcreates
    | _ => cases hcreates

end Jobs

/-! ### What the gate has let through -/

/-- A call has passed the upload: the scanner found its content clean, the parser reported
on it, and the source is a copy of it. -/
structure Passed (services : Services) (σ : System) (u : UploadRow) (call : Importer.Call)
    (scan : CleanScan) (inspection : ParserInspectionReport) (source : PromotedSource) : Prop where
  made : call ∈ σ.calls
  returned : ∃ outcome, call.phase = .returned outcome
  upload : call.scope = u.scope ∧ call.uploadId = u.uploadId
  cleared : Cleared services σ.objects call u scan inspection source
  declared : source.digest = u.expectedDigest ∧ source.contentLength = u.expectedContentLength
  accepted : u.source = some (call.acceptance inspection source).source

structure Inv (services : Services) (σ : System) : Prop where
  gate : InspectionGate.Inv services σ
  jobs : OutboxExhaustion.Inv σ.store ∧ JobLifecycle.Lifecycle σ.store
  passed : ∀ u ∈ σ.store.uploads, u.status = .accepted →
    ∃ call scan inspection source, Passed services σ u call scan inspection source

/-- What stays as it is: versions, accepted uploads, the uploads of jobs and the calls which
have returned. -/
structure Later (σ σ' : System) : Prop where
  objects : Extends σ.objects σ'.objects
  accepted : ∀ u ∈ σ.store.uploads, u.status = .accepted → u ∈ σ'.store.uploads
  jobs : ∀ job ∈ σ.store.jobs, ∃ job' ∈ σ'.store.jobs, rowCommand job' = rowCommand job
  calls : ∀ call ∈ σ.calls, (∃ outcome, call.phase = .returned outcome) → call ∈ σ'.calls

theorem Later.refl (σ : System) : Later σ σ :=
  ⟨Extends.refl _,fun _ h _ => h,fun job h => ⟨job,h,rfl⟩,fun _ h _ => h⟩

theorem Later.trans {σ σ' σ'' : System} (h : Later σ σ') (h' : Later σ' σ'') : Later σ σ'' where
  objects := h.objects.trans h'.objects
  accepted u hu hstatus := h'.accepted u (h.accepted u hu hstatus) hstatus
  jobs job hjob := by
    obtain ⟨job',hjob',hsame⟩ := h.jobs job hjob
    obtain ⟨job'',hjob'',hsame'⟩ := h'.jobs job' hjob'
    exact ⟨job'',hjob'',hsame'.trans hsame⟩
  calls call hcall hreturned := h'.calls call (h.calls call hcall hreturned) hreturned

section Gate
variable {services : Services} {σ σ' : System}

theorem cleared_mono {objects objects' : SourceObjects} {call : Importer.Call} {u : UploadRow}
    {scan : CleanScan} {inspection : ParserInspectionReport} {source : PromotedSource}
    (h : Cleared services objects call u scan inspection source)
    (hextends : Extends objects objects') :
    Cleared services objects' call u scan inspection source := by
  obtain ⟨copy,hcopy,hbytes⟩ := h.promoted
  exact ⟨h.reports,h.recorded,object_extends hextends h.stored,h.received,h.digest,
    copy,object_extends hextends hcopy,hbytes⟩

theorem Passed.mono {u : UploadRow} {call : Importer.Call} {scan : CleanScan}
    {inspection : ParserInspectionReport} {source : PromotedSource}
    (h : Passed services σ u call scan inspection source) (hlater : Later σ σ') :
    Passed services σ' u call scan inspection source :=
  ⟨hlater.calls call h.made h.returned,h.returned,h.upload,
    cleared_mono h.cleared hlater.objects,h.declared,h.accepted⟩

/-- An action of the gate writes the store by one transaction on uploads, if it does. -/
theorem gate_store (σ : System) (a : Importer.Action) :
    (Importer.step services σ a).store = σ.store ∨
      ∃ b, (Importer.step services σ a).store = UploadScopes.step σ.store b := by
  cases a with
  | create now request => exact .inr ⟨.create now request,rfl⟩
  | record now nowUtc scope uploadId record =>
    exact .inr ⟨.record now nowUtc scope uploadId record,rfl⟩
  | write o => exact .inl rfl
  | process scope uploadId leaseOwner => exact .inl rfl
  | turn i answers =>
    rw [Importer.step]
    split
    · exact .inl rfl
    · rename_i call _
      refine (InspectionGate.turn_store answers).imp_right fun hturn => ?_
      obtain ⟨b,_,hb⟩ := hturn
      exact ⟨b,hb⟩

theorem gate_objects (σ : System) (a : Importer.Action) :
    Extends σ.objects (Importer.step services σ a).objects := by
  cases a with
  | write o =>
    rw [Importer.step]
    dsimp only
    split
    · exact extends_put σ.objects o
    · exact Extends.refl _
  | turn i answers =>
    rw [Importer.step]
    split
    · exact Extends.refl _
    · exact (InspectionGate.turn_creates answers).extends
  | _ => exact Extends.refl _

theorem turn_returned (answers : Importer.Answers) (s : Store) (objects : SourceObjects)
    {call : Importer.Call} (h : ∃ outcome, call.phase = .returned outcome) :
    (call.turn services answers s objects).2.2 = call := by
  obtain ⟨scope,uploadId,leaseOwner,phase,reports⟩ := call
  obtain ⟨outcome,rfl⟩ := h
  rfl

theorem gate_calls (σ : System) (a : Importer.Action) {call : Importer.Call}
    (hcall : call ∈ σ.calls) (hreturned : ∃ outcome, call.phase = .returned outcome) :
    call ∈ (Importer.step services σ a).calls := by
  cases a with
  | process scope uploadId leaseOwner => exact List.mem_append_left _ hcall
  | turn i answers =>
    rw [Importer.step]
    split
    · exact hcall
    · rename_i turning hturning
      obtain ⟨j,hj⟩ := List.mem_iff_getElem?.mp hcall
      refine List.mem_iff_getElem?.mpr ⟨j,?_⟩
      have hlt := (List.getElem?_eq_some_iff.mp hj).1
      by_cases hsame : i = j
      · subst hsame
        rw [hj,Option.some.injEq] at hturning
        subst hturning
        rw [List.getElem?_set_self hlt,turn_returned answers _ _ hreturned]
      · rw [List.getElem?_set_ne hsame,hj]
  | _ => exact hcall

theorem gate_later (h : Inv services σ) (a : Importer.Action) :
    Later σ (Importer.step services σ a) where
  objects := gate_objects σ a
  accepted u hu hstatus := by
    rcases gate_store σ a with hsame | ⟨b,hb⟩
    · exact hsame ▸ hu
    · rw [hb]
      exact UploadLifecycle.effect_terminal (UploadLifecycle.step_effect h.gate.sound.keys b) hu
        (by rw [hstatus]; rfl)
  jobs job hjob := by
    refine ⟨job,?_,rfl⟩
    rcases gate_store σ a with hsame | ⟨b,hb⟩
    · exact hsame ▸ hjob
    · rw [hb,(JobConsistency.uploads_frame σ.store b).1]
      exact hjob
  calls call hcall hreturned := gate_calls σ a hcall hreturned

/-- A row which a turn accepts is passed by the call whose turn it is. -/
theorem turn_passed (h : InspectionGate.Inv services σ) {i : ℕ} {answers : Importer.Answers}
    {u' : UploadRow} (hu' : u' ∈ (Importer.step services σ (.turn i answers)).store.uploads)
    (hstatus : u'.status = .accepted) : u' ∈ σ.store.uploads ∨
      ∃ call scan inspection source,
        Passed services (Importer.step services σ (.turn i answers)) u' call scan inspection
          source := by
  cases hcall : σ.calls[i]? with
  | none =>
    simp only [Importer.step,hcall] at hu'
    exact .inl hu'
  | some call =>
    have hnext : Importer.step services σ (.turn i answers) =
        ⟨(call.turn services answers σ.store σ.objects).1,
          (call.turn services answers σ.store σ.objects).2.1,
          σ.calls.set i (call.turn services answers σ.store σ.objects).2.2⟩ := by
      simp only [Importer.step,hcall]
    rw [hnext] at hu' ⊢
    rcases @InspectionGate.turn_store services σ.store σ.objects call answers with
      hsame | ⟨a,ha,hstep⟩
    · exact .inl (hsame ▸ hu')
    · dsimp only at hu'
      rw [hstep] at hu'
      rcases InspectionGate.accepted_row h.sound a hu' hstatus with
        hm | ⟨u,hu,now,accept,rfl,hacceptable,rfl⟩
      · exact .inl hm
      · obtain ⟨inspection,source,hphase,rfl,hscope,hid,rfl⟩ :=
          InspectionGate.transaction_accept ha
        obtain ⟨scan,hcleared⟩ := InspectionGate.accept_cleared h hcall hphase hu hid
        have hlt := (List.getElem?_eq_some_iff.mp hcall).1
        obtain ⟨scope,uploadId,leaseOwner,phase,reports⟩ := call
        obtain rfl : phase = .accepting inspection source := hphase
        refine .inr ⟨_,scan,inspection,source,List.mem_set hlt _,⟨_,rfl⟩,
          ⟨hscope.symm,hid.symm⟩,?_,?_,rfl⟩
        · exact ⟨hcleared.reports,hcleared.recorded,hcleared.stored,hcleared.received,
            hcleared.digest,hcleared.promoted⟩
        · simp only [acceptable,Bool.and_eq_true,beq_iff_eq] at hacceptable
          obtain ⟨v,hv,hdigest⟩ := Option.map_eq_some_iff.mp hacceptable.1.1.1.2
          obtain ⟨v',hv',hlength⟩ := Option.map_eq_some_iff.mp hacceptable.1.1.2
          rw [hv,Option.some.injEq] at hv'
          subst hv'
          have hdeclared := (h.sound.rows u hu).verified v hv
          exact ⟨hdigest.symm.trans hdeclared.1,hlength.symm.trans hdeclared.2⟩

theorem gate_inv (h : Inv services σ) (a : Importer.Action) :
    Inv services (Importer.step services σ a) where
  gate := InspectionGate.step_inv h.gate a
  jobs := by
    rcases gate_store σ a with hsame | ⟨b,hb⟩
    · exact hsame ▸ h.jobs
    · rw [hb]
      exact JobLifecycle.step_kept h.jobs (.command 0 (.upload b))
  passed u hu hstatus := by
    have hkept : u ∈ σ.store.uploads → ∃ call scan inspection source,
        Passed services (Importer.step services σ a) u call scan inspection source := by
      intro hold
      obtain ⟨call,scan,inspection,source,hpassed⟩ := h.passed u hold hstatus
      exact ⟨call,scan,inspection,source,hpassed.mono (gate_later h a)⟩
    cases a with
    | turn i answers => exact (turn_passed h.gate hu hstatus).elim hkept id
    | create now request =>
      exact hkept (InspectionGate.intake_kept h.gate.sound (.inl ⟨now,request,rfl⟩) hu
        (.inl hstatus))
    | record now nowUtc scope uploadId record =>
      exact hkept (InspectionGate.intake_kept h.gate.sound
        (.inr ⟨now,nowUtc,scope,uploadId,record,rfl⟩) hu (.inl hstatus))
    | write o => exact hkept hu
    | process scope uploadId leaseOwner => exact hkept hu

theorem job_later (h : Inv services σ) {a : OutboxExhaustion.Action}
    (ha : changesUploads a = false) :
    Later σ { σ with store := OutboxExhaustion.step σ.store a } where
  objects := Extends.refl _
  accepted u hu _ := by rwa [(job_uploads h.jobs.1 ha).1]
  jobs _ hjob := job_kept h.jobs.1 a hjob
  calls _ hcall _ := hcall

/-- Transactions on jobs leave the evidence of the gate alone. -/
theorem job_gate (h : InspectionGate.Inv services σ) {s : Store}
    (huploads : s.uploads = σ.store.uploads) (houtbox : s.uploadOutbox = σ.store.uploadOutbox) :
    InspectionGate.Inv services { σ with store := s } := by
  refine ⟨?_,h.versioned,fun call hcall => ?_⟩
  · have hcounts : ∀ u, UploadLifecycle.eventsOf s u = UploadLifecycle.eventsOf σ.store u := by
      intro u
      funext t
      rw [UploadLifecycle.eventsOf,UploadLifecycle.eventsOf,UploadLifecycle.eventCount,
        UploadLifecycle.eventCount,houtbox]
    refine ⟨?_,?_,?_⟩
    · rw [huploads]
      exact h.sound.keys
    · rw [huploads,houtbox]
      exact h.sound.known
    · intro u hu
      rw [huploads] at hu
      rw [hcounts]
      exact h.sound.rows u hu
  · refine (h.evidence call hcall).mono (Extends.refl _) fun upload hloaded => ?_
    obtain ⟨u,hu,hrest⟩ := hloaded
    exact ⟨u,huploads ▸ hu,hrest⟩

theorem step_later (h : Inv services σ) (a : Action) : Later σ (step services σ a) := by
  cases a with
  | gate a => exact gate_later h a
  | job a ha => exact job_later h ha

theorem step_inv (h : Inv services σ) (a : Action) : Inv services (step services σ a) := by
  cases a with
  | gate a => exact gate_inv h a
  | job a ha =>
    have huploads := job_uploads h.jobs.1 ha
    refine ⟨job_gate h.gate huploads.1 huploads.2,JobLifecycle.step_kept h.jobs a,?_⟩
    intro u hu hstatus
    rw [step,huploads.1] at hu
    obtain ⟨call,scan,inspection,source,hpassed⟩ := h.passed u hu hstatus
    exact ⟨call,scan,inspection,source,hpassed.mono (job_later h ha)⟩

theorem start_inv (services : Services) : Inv services Importer.start where
  gate := InspectionGate.inv_start services
  jobs := ⟨OutboxExhaustion.inv_empty,JobLifecycle.lifecycle_empty⟩
  passed _ hu := absurd hu List.not_mem_nil

theorem run_later (h : Inv services σ) (as : List Action) :
    Inv services (Transition.run (step services) σ as) ∧
      Later σ (Transition.run (step services) σ as) := by
  induction as generalizing σ with
  | nil => exact ⟨h,Later.refl σ⟩
  | cons a as ih =>
    obtain ⟨hinv,hlater⟩ := ih (step_inv h a)
    exact ⟨hinv,(step_later h a).trans hlater⟩

theorem joined_later (h' : Inv services σ') (hlater : Later σ σ')
    {scope : Scope} {jobId : JobId} {job job' : JobRow} {u u' : UploadRow}
    (hjoined : Joined σ.store scope jobId job u) (hjoined' : Joined σ'.store scope jobId job' u') :
    u' = u := by
  obtain ⟨hjob,hkey⟩ := Table.mem_of_find? hjoined.jobRow
  obtain ⟨hjob',hkey'⟩ := Table.mem_of_find? hjoined'.jobRow
  obtain ⟨hu,hukey⟩ := Table.mem_of_find? hjoined.uploadRow
  obtain ⟨hu',hukey'⟩ := Table.mem_of_find? hjoined'.uploadRow
  rw [Commands.isJob_iff] at hkey hkey'
  rw [Bool.and_eq_true,UploadScopes.isUpload_iff,beq_iff_eq] at hukey hukey'
  obtain ⟨other,hother,hsame⟩ := hlater.jobs job hjob
  have hid : other.jobId = job.jobId := congrArg CreateJob.jobId hsame
  have hrow : other = job' := Table.eq_of_key h'.jobs.2.jobKeys hother hjob'
    (hid.trans (hkey.2.trans hkey'.2.symm))
  have hupload : job'.uploadId = job.uploadId := hrow ▸ congrArg CreateJob.uploadId hsame
  exact Table.eq_of_key h'.gate.sound.keys hu' (hlater.accepted u hu hukey.2)
    (hukey'.1.2.trans (hupload.trans hukey.1.2.symm))

end Gate

/-! ### What pages are read from -/

/-- What the client declared, the scanner found clean and the parser reported on. -/
structure Inspected (sha256 : Sha256) (u : UploadRow) (page : ℕ) (scan : CleanScan)
    (inspection : ParserInspectionReport) (source : AcceptedPageSource) : Prop where
  bytes : source.bytes = scan.object.bytes ∨ Collision sha256 source.bytes scan.object.bytes
  digest : sha256Digest (sha256.digest source.bytes) = u.expectedDigest
  length : (source.bytes.length : ℤ) = u.expectedContentLength
  contentType : source.contentType = u.expectedContentType
  geometry : inspection.pages[page-1]? = some source.geometry ∧ source.geometry.page = page

theorem read_inspected {services : Services} {σ : System} {u : UploadRow} {call : Importer.Call}
    {scan : CleanScan} {inspection : ParserInspectionReport} {promoted : PromotedSource}
    (h : Passed services σ u call scan inspection promoted) {page : ℕ} {accepted : AcceptedSource}
    {found : SourceObject} {source : AcceptedPageSource}
    (hread : ReadFrom services.sha256 σ.objects u page accepted found source) :
    Inspected services.sha256 u page scan inspection source := by
  have haccepted := hread.named
  rw [h.accepted,Option.some.injEq] at haccepted
  subst haccepted
  obtain ⟨copy,hcopy,hbytes⟩ := h.cleared.promoted
  have hversion := hread.version
  simp only [Importer.Call.acceptance] at hversion
  rw [hcopy,Option.some.injEq] at hversion
  subst hversion
  rw [← hread.bytes] at hbytes
  exact ⟨hbytes,hread.digest.trans h.declared.1,hread.length.trans h.declared.2,hread.contentType,
    hread.geometry,hread.number.2⟩

/-- What two loads of a page return, of which one is made later. -/
theorem read_again {sha256 : Sha256} {objects objects' : SourceObjects} {u : UploadRow} {page : ℕ}
    {accepted accepted' : AcceptedSource} {found found' : SourceObject}
    {source source' : AcceptedPageSource} (hextends : Extends objects objects')
    (h : ReadFrom sha256 objects u page accepted found source)
    (h' : ReadFrom sha256 objects' u page accepted' found' source') : source' = source := by
  have haccepted := h'.named
  rw [h.named,Option.some.injEq] at haccepted
  subst haccepted
  have hversion := h'.version
  rw [object_extends hextends h.version,Option.some.injEq] at hversion
  subst hversion
  have hgeometry := h'.geometry
  rw [h.geometry,Option.some.injEq] at hgeometry
  obtain ⟨bytes,contentType,geometry⟩ := source
  obtain ⟨bytes',contentType',geometry'⟩ := source'
  obtain rfl : bytes' = bytes := h'.bytes.trans h.bytes.symm
  obtain rfl : contentType' = contentType := h'.contentType.trans h.contentType.symm
  obtain rfl : geometry = geometry' := hgeometry
  rfl

/-- Whatever a page is read from has passed the gate: it is what the scanner found clean and
the parser reported on, as the client declared it, and every later load of the page returns
the same. -/
theorem sources_inspected (loader : AcceptedPageSourceLoader) (as bs : List Action) {scope : Scope}
    {jobId : JobId} {page : ℕ} {replies : Replies} {source : AcceptedPageSource}
    (h : loader.loadInner (Transition.run (step loader.services) Importer.start as).store
      (Transition.run (step loader.services) Importer.start as).objects scope jobId page replies =
        .ok source) :
    let σ := Transition.run (step loader.services) Importer.start as
    let σ' := Transition.run (step loader.services) σ bs
    (∃ job u call scan inspection promoted, Joined σ.store scope jobId job u ∧
      Passed loader.services σ u call scan inspection promoted ∧
      Inspected loader.services.sha256 u page scan inspection source) ∧
    ∀ replies' source', loader.loadInner σ'.store σ'.objects scope jobId page replies' =
      .ok source' → source' = source := by
  intro σ σ'
  obtain ⟨hinv,_⟩ := run_later (start_inv loader.services) as
  obtain ⟨hinv',hlater⟩ := run_later hinv bs
  obtain ⟨job,u,accepted,found,hjoined,hread⟩ := loadInner_ok h
  constructor
  · obtain ⟨hu,hkey⟩ := Table.mem_of_find? hjoined.uploadRow
    rw [Bool.and_eq_true,beq_iff_eq] at hkey
    obtain ⟨call,scan,inspection,promoted,hpassed⟩ := hinv.passed u hu hkey.2
    exact ⟨job,u,call,scan,inspection,promoted,hjoined,hpassed,read_inspected hpassed hread⟩
  · intro replies' source' h'
    obtain ⟨job',u',accepted',found',hjoined',hread'⟩ := loadInner_ok h'
    have hsame := joined_later hinv' hlater hjoined hjoined'
    subst hsame
    exact read_again hlater.objects hread hread'

/-! An upload is inspected and accepted, and its only page is read for a job. -/

def onlyContent : Bytes := ascii "%PDF-1"

def onlySha256 : Sha256 := .buffering fun _ => Vector.replicate 32 0

def onlyDigest : String := sha256Digest (onlySha256.digest onlyContent)

def onlyName : String := sourceName default default

theorem onlyScanner_valid : 0 < 1000 ∧ 1000 < BigEndian.usizeBound := by decide

theorem onlyRoute_compatible : ∀ route ∈ [("quarantine-eu","documents-eu")],
    StorageLocations.promotionCompatible route.1 route.2 = true := by decide

theorem onlyRoute_valid : (!List.isEmpty [((default : ProductId),"documents-eu")] &&
    [((default : ProductId),"documents-eu")].all fun route => isBucketName route.2) = true := by
  decide

def onlyServices : Services where
  inspector := ⟨["quarantine-eu"],⟨1000,onlyScanner_valid.1,onlyScanner_valid.2⟩⟩
  reader := ⟨["quarantine-eu"]⟩
  promoter := ⟨[("quarantine-eu","documents-eu")],onlyRoute_compatible,List.nodup_singleton _,
    List.nodup_singleton _⟩
  isPath _ := true
  sha256 := onlySha256

def onlyLoader : AcceptedPageSourceLoader where
  services := onlyServices
  reader := ⟨[(default,"documents-eu")],onlyRoute_valid,List.nodup_singleton _⟩

theorem onlyGeometry_valid : 1 ≤ 10 ∧ 1 ≤ 20 ∧ 10*20 ≤ 100000000 := by decide

def onlyGeometry : PageGeometry := ⟨1,10,20,le_refl 1,onlyGeometry_valid⟩

def onlyAnswers : Importer.Answers where
  now := 2
  committed := true
  answered := true
  get := .served [] none
  connection := ⟨true,1000,true,ascii "stream: OK\x00"⟩
  parser _ _ := .ok ⟨1,200,200,[onlyGeometry]⟩
  stage := ⟨false,.served [] none,.answered ⟨true,none,some ⟨"documents-eu",
    destinationName default ((stripPrefix onlyDigest "sha256:").getD []),"7","6"⟩⟩,.failed⟩

def onlyUpload : CreateUpload where
  uploadId := default
  scope := default
  idempotencyKey := default
  requestDigest := default
  objectBucket := "quarantine-eu"
  objectName := onlyName
  expectedContentType := "application/pdf"
  expectedContentLength := 6
  expectedDigest := onlyDigest
  expiresAt := 10

def onlyRun : List Action :=
  [.gate (.create 0 onlyUpload),
    .gate (.write ⟨(.gcs "quarantine-eu".toList,onlyName),"1",onlyContent⟩),
    .gate (.record 1 1 default default ⟨"1","application/pdf",6,onlyDigest⟩),
    .gate (.process default default "worker")]++
  List.replicate 8 (.gate (.turn 0 onlyAnswers))++
  [.job (.command 3 (.create Commands.jobRequest)) rfl]

def onlySystem : System := Transition.run (step onlyServices) Importer.start onlyRun

def onlySource : AcceptedPageSource := ⟨onlyContent,"application/pdf",onlyGeometry⟩

theorem onlyPage_loaded : onlyLoader.loadInner onlySystem.store onlySystem.objects default default 1
    ⟨true,.served [2] none⟩ = .ok onlySource := by
  decide +kernel

theorem onlyPage_inspected : ∃ job u call scan inspection promoted,
    Joined onlySystem.store default default job u ∧
      Passed onlyServices onlySystem u call scan inspection promoted ∧
      Inspected onlySha256 u 1 scan inspection onlySource :=
  (sources_inspected onlyLoader onlyRun [] onlyPage_loaded).1

end DocumentIntelligence.PageSources
