import DocumentIntelligence.Jobs
import DocumentIntelligence.ResultAssembly
import DocumentIntelligence.StorageLocations

/-!
# Result artifacts

A result is written as an object which is named after the version of its document. The
object is only created, and what is read back has to be what was to be written. Then its
locator is committed.
-/

set_option autoImplicit false

namespace DocumentIntelligence.ResultArtifacts
open Identifiers hiding Error
open Schema Jobs ObjectStorage StorageLocations
open DocumentResults (DocumentResult)

inductive ResultArtifactWriteError where
  | invalid
  | conflict
  | unavailable
  deriving DecidableEq, Repr

inductive PublishResultError where
  | artifact (error : ResultArtifactWriteError)
  | store (error : Schema.Error)
  deriving DecidableEq, Repr

/-- `new` admits one route for each product, to distinct buckets. -/
structure GcsResultWriter where
  routes : List (ProductId × String)
  valid : (routes.all fun route => isBucketName route.2) = true
  distinct : (routes.map (·.1)).Nodup ∧ (routes.map (·.2)).Nodup

def GcsResultWriter.bucket (writer : GcsResultWriter) (productId : ProductId) : Option String :=
  (writer.routes.find? (·.1 == productId)).map (·.2)

/-- The digest without its name. -/
def versionDigest (version : DocumentVersion) : String :=
  String.ofList ((stripPrefix version.asStr "sha256:").getD [])

def objectName (scope : Scope) (jobId : JobId) (version : DocumentVersion) : String :=
  "products/" ++ scope.productId.asStr ++ "/tenants/" ++ scope.tenantId.asStr ++ "/results/" ++
    jobId.asStr ++ "/" ++ versionDigest version ++ ".json"

section Write
variable {V : Type} (formatF64 : Float → String) (formatValue : V → String)
  (sha256 : List UInt8 → Vector UInt8 32) (writer : GcsResultWriter) (scope : Scope)
  (jobId : JobId)

/-- The path and the bytes of the object to be written. -/
structure PreparedResultArtifact where
  path : ObjectPath
  bytes : List UInt8
  deriving DecidableEq

def prepareResultArtifact (result : DocumentResult V) :
    Except ResultArtifactWriteError PreparedResultArtifact :=
  match writer.bucket scope.productId with
  | none => .error .invalid
  | some bucket =>
    let bytes := ResultJson.toVec formatF64 formatValue result
    if bytes = [] ∨ ResultAssembly.maximumResultBytes < bytes.length then .error .invalid
    else .ok ⟨(bucket,objectName scope jobId result.documentVersion),bytes⟩

/-- The create-only write, to which the provider gives a version. -/
def putResult (prepared : PreparedResultArtifact) (version : Option String)
    (objects : StoredObjects) : StoredObjects :=
  ObjectStorage.create objects ⟨prepared.path,version,prepared.bytes⟩

/-- What was read back, against what was to be written. -/
def readBack (result : DocumentResult V) (prepared : PreparedResultArtifact) :
    Option StoredObject → Except ResultArtifactWriteError StoredResultLocator
  | none => .error .unavailable
  | some stored => match stored.version.filter validObjectVersion with
    | none => .error .unavailable
    | some generation =>
      if stored.bytes.length ≠ prepared.bytes.length then .error .conflict
      else if stored.bytes ≠ prepared.bytes ∨
          sha256Digest sha256 stored.bytes ≠ sha256Digest sha256 prepared.bytes then
        .error .conflict
      else .ok {
        documentId := result.documentId
        documentVersion := result.documentVersion
        objectBucket := prepared.path.1
        objectName := prepared.path.2
        objectVersion := generation
        objectDigest := sha256Digest sha256 prepared.bytes
        contentLength := prepared.bytes.length }

/-- `GcsResultWriter::write` with the provider's replies. -/
def write (reply : StorageReply) (version : Option String) (objects : StoredObjects)
    (result : DocumentResult V) :
    Except ResultArtifactWriteError StoredResultLocator × StoredObjects :=
  match prepareResultArtifact formatF64 formatValue writer scope jobId result with
  | .error e => (.error e, objects)
  | .ok prepared =>
    let written := putResult prepared version objects
    match reply with
    | .refused => (.error .unavailable, objects)
    | .lost => (.error .unavailable, written)
    | .answered => (readBack sha256 result prepared (current written prepared.path), written)

/-- The commit of `ResultPublisher::publish`. -/
def commitLocator (s : Store) (now : ℤ) (terminalState : JobState) (result : DocumentResult V)
    (locator : StoredResultLocator) : Except PublishResultError (CommitResultOutcome × Store) :=
  if locator.documentId ≠ result.documentId ∨ locator.documentVersion ≠ result.documentVersion then
    .error (.artifact .invalid)
  else match commitResult s now scope jobId ⟨locator,terminalState⟩ with
    | .error e => .error (.store e)
    | .ok committed => .ok committed

variable {formatF64 formatValue sha256 writer scope jobId}

/-- The object to which a locator points holds the result. -/
def Holds (formatF64 : Float → String) (formatValue : V → String)
    (sha256 : List UInt8 → Vector UInt8 32) (objects : StoredObjects)
    (locator : StoredResultLocator) (result : DocumentResult V) : Prop :=
  locator.documentId = result.documentId ∧ locator.documentVersion = result.documentVersion ∧
    locator.objectDigest = sha256Digest sha256 (ResultJson.toVec formatF64 formatValue result) ∧
    ∃ o ∈ objects, o.path = (locator.objectBucket,locator.objectName) ∧
      o.version = some locator.objectVersion ∧
      o.bytes = ResultJson.toVec formatF64 formatValue result

theorem prepare_ok {result : DocumentResult V} {prepared : PreparedResultArtifact}
    (h : prepareResultArtifact formatF64 formatValue writer scope jobId result = .ok prepared) :
    prepared.bytes = ResultJson.toVec formatF64 formatValue result := by
  rw [prepareResultArtifact] at h
  split at h
  · exact absurd h (by simp)
  · by_cases hsize : ResultJson.toVec formatF64 formatValue result = [] ∨
        ResultAssembly.maximumResultBytes < (ResultJson.toVec formatF64 formatValue result).length
    · rw [if_pos hsize] at h
      exact absurd h (by simp)
    · rw [if_neg hsize, Except.ok.injEq] at h
      rw [← h]

theorem readBack_ok {result : DocumentResult V} {prepared : PreparedResultArtifact}
    {objects : StoredObjects} {locator : StoredResultLocator}
    (hprepared : prepareResultArtifact formatF64 formatValue writer scope jobId result = .ok prepared)
    (h : readBack sha256 result prepared (current objects prepared.path) = .ok locator) :
    Holds formatF64 formatValue sha256 objects locator result := by
  have hbytes := prepare_ok hprepared
  cases hcurrent : current objects prepared.path with
  | none =>
    rw [hcurrent, readBack] at h
    exact absurd h (by simp)
  | some stored =>
    rw [hcurrent, readBack] at h
    cases hversion : stored.version.filter validObjectVersion with
    | none =>
      rw [hversion] at h
      exact absurd h (by simp)
    | some generation =>
      rw [hversion] at h
      dsimp only at h
      by_cases hlength : stored.bytes.length ≠ prepared.bytes.length
      · rw [if_pos hlength] at h
        exact absurd h (by simp)
      rw [if_neg hlength] at h
      by_cases hdiffer : stored.bytes ≠ prepared.bytes ∨
          sha256Digest sha256 stored.bytes ≠ sha256Digest sha256 prepared.bytes
      · rw [if_pos hdiffer] at h
        exact absurd h (by simp)
      rw [if_neg hdiffer, Except.ok.injEq] at h
      rw [not_or, not_not] at hdiffer
      subst locator
      refine ⟨rfl,rfl,by rw [hbytes],stored,current_mem hcurrent,?_,?_,?_⟩
      · exact current_path hcurrent
      · exact (Option.filter_eq_some_iff.mp hversion).1
      · exact hdiffer.1.trans hbytes

/-- Objects are only added, so what a locator points to stays. -/
theorem holds_of_subset {objects objects' : StoredObjects} (hsub : ∀ o ∈ objects, o ∈ objects')
    {locator : StoredResultLocator} {result : DocumentResult V}
    (h : Holds formatF64 formatValue sha256 objects locator result) :
    Holds formatF64 formatValue sha256 objects' locator result := by
  obtain ⟨hid,hversion,hdigest,o,ho,hrest⟩ := h
  exact ⟨hid,hversion,hdigest,o,hsub o ho,hrest⟩

theorem put_subset (prepared : PreparedResultArtifact) (version : Option String)
    (objects : StoredObjects) : ∀ o ∈ objects, o ∈ putResult prepared version objects := by
  intro o ho
  unfold putResult ObjectStorage.create
  split
  · exact ho
  · exact List.mem_cons_of_mem _ ho

end Write

end DocumentIntelligence.ResultArtifacts
