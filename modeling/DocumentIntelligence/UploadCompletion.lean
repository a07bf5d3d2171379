import DocumentIntelligence.PageSources

/-!
# Completed uploads

A caller says that an object is written, and the service reads the newest version of it and
records that version. Anyone may write the object again between the requests of a call, and
other calls run beside it. What an upload has recorded is a version with the content which
its reservation declares.
-/

set_option autoImplicit false

namespace DocumentIntelligence.UploadCompletion
open BigEndian ObjectStorage SourceReading Transition
open Identifiers hiding Error
open Schema Uploads
open ContentVerification (Sha256 ObjectError UploadArtifactError VerifiedUploadArtifact HasMagic
  mapObjectError sha256Digest verifyStream verifyStream_ok)
open JobRequests (uploadNotFound)
open ServedResults (ApiError)
open Table (bind_ok)
open UploadLifecycle (Sound UploadChange RowOk wasUploaded)
open WorkloadIdentity (TrustedIdentity)

/-! ### The check of the object -/

structure GcsUploadArtifactReader where
  stores : List String
  isPath : String → Bool
  sha256 : Sha256

/-- A store may not tell the version of an object. -/
def GcsUploadArtifactReader.verify (reader : GcsUploadArtifactReader) (upload : StoredUpload)
    (objects : SourceObjects) (versioned : Bool) (reply : GetReply) :
    Except UploadArtifactError VerifiedUploadArtifact :=
  if !reader.stores.contains upload.objectBucket then .error .unavailable
  else if !reader.isPath upload.objectName then .error .invalid
  else match getOpts objects upload.objectBucket upload.objectName none reply with
  | .error e => .error (mapObjectError e)
  | .ok (object,stream) =>
    if !versioned || !validObjectVersion object.version then .error .invalid
    else verifyStream reader.sha256 upload object.version object.bytes.length stream

/-! ### The handlers -/

structure UploadCompletionResponse where
  uploadId : UploadId
  status : String
  deriving DecidableEq, Repr

structure UploadStatusResponse where
  uploadId : UploadId
  status : String
  deriving DecidableEq, Repr

def uploadConflict (code message : String) : ApiError := ⟨409,code,message⟩

def uploadExpired : ApiError := uploadConflict "upload_expired" "upload reservation has expired"

def uploadNotCompletable : ApiError :=
  uploadConflict "upload_not_completable" "upload cannot be completed in its current state"

def uploadNotReady : ApiError :=
  uploadConflict "upload_not_ready" "uploaded object is not available"

def uploadVerificationFailed : ApiError :=
  ⟨422,"upload_verification_failed","uploaded object did not match its reservation"⟩

def uploadStatus : UploadState → String
  | .reserved => "reserved"
  | .uploaded => "uploaded"
  | .inspecting => "inspecting"
  | .accepted => "accepted"
  | .rejected => "rejected"
  | .expired => "expired"

/-- Where a call of `complete_upload` is. -/
inductive Phase where
  | finding
  | verifying (upload : StoredUpload)
  | recording (artifact : VerifiedUploadArtifact)
  | answered (reply : Except ApiError UploadCompletionResponse)
  deriving DecidableEq

structure Call where
  identity : TrustedIdentity
  uploadId : String
  phase : Phase
  deriving DecidableEq

def Call.scope (call : Call) : Scope := ⟨call.identity.productId,call.identity.tenantId⟩

/-- What one turn of a call meets: the store and the bucket answer as they do an importer. -/
structure Answers extends Importer.Answers where
  nowUtc : ℤ
  versioned : Bool

def found (uploadId : UploadId) (nowUtc : ℤ) : Except Schema.Error (Option StoredUpload) → Phase
  | .error _ => .answered (.error .unavailable)
  | .ok none => .answered (.error uploadNotFound)
  | .ok (some upload) => match upload.state with
    | .uploaded => .answered (.ok ⟨uploadId,"uploaded"⟩)
    | .reserved => if upload.expiresAt ≤ nowUtc then .answered (.error uploadExpired)
      else .verifying upload
    | _ => .answered (.error uploadNotCompletable)

def verified : Except UploadArtifactError VerifiedUploadArtifact → Phase
  | .error .notFound => .answered (.error uploadNotReady)
  | .error .invalid => .answered (.error uploadVerificationFailed)
  | .error .unavailable => .answered (.error .unavailable)
  | .ok artifact => .recording artifact

def recordUpload (artifact : VerifiedUploadArtifact) : RecordUpload where
  objectVersion := artifact.objectVersion
  verifiedContentType := artifact.contentType
  verifiedContentLength := artifact.contentLength
  verifiedDigest := artifact.digest

def recorded (uploadId : UploadId) : Except Schema.Error RecordUploadOutcome → Phase
  | .ok (.recorded _) | .ok (.existing _) => .answered (.ok ⟨uploadId,"uploaded"⟩)
  | .ok .expired => .answered (.error uploadExpired)
  | .ok .verificationMismatch => .answered (.error uploadVerificationFailed)
  | .ok .notRecordable => .answered (.error uploadNotCompletable)
  | .ok .notFound => .answered (.error uploadNotFound)
  | .error _ => .answered (.error .unavailable)

section Handlers
variable (reader : GcsUploadArtifactReader)

/-- `complete_upload`, up to its next request. -/
def Call.turn (call : Call) (answers : Answers) (s : Store) (objects : SourceObjects) :
    Store×Phase :=
  match UploadId.new call.uploadId with
  | .error _ => (s,.answered (.error uploadNotFound))
  | .ok uploadId => match call.phase with
    | .finding => (s,found uploadId answers.nowUtc
        (answers.query (findUpload s call.scope uploadId)))
    | .verifying upload => (s,verified (reader.verify upload objects answers.versioned answers.get))
    | .recording artifact =>
      let outcome := answers.transact s (recordUploaded s answers.now answers.nowUtc call.scope
        uploadId (recordUpload artifact))
      (outcome.1,recorded uploadId outcome.2)
    | .answered reply => (s,.answered reply)

def getUpload (s : Store) (answers : Answers) (identity : TrustedIdentity) (uploadId : String) :
    Except ApiError UploadStatusResponse :=
  match UploadId.new uploadId with
  | .error _ => .error uploadNotFound
  | .ok uploadId =>
    match answers.query (findUpload s ⟨identity.productId,identity.tenantId⟩ uploadId) with
    | .error _ => .error .unavailable
    | .ok none => .error uploadNotFound
    | .ok (some upload) => .ok ⟨upload.uploadId,uploadStatus upload.state⟩

/-! ### Calls and everything else -/

/-- Uploads are recorded by the handler alone. -/
def records : UploadScopes.Action → Bool
  | .record .. => true
  | _ => false

structure System where
  store : Store
  objects : SourceObjects
  calls : List Call

/-- Uploads are created and inspected, anyone writes objects, and calls begin and take their
turns. -/
inductive Action where
  | other (a : UploadScopes.Action) (h : records a = false)
  | write (o : SourceObject)
  | complete (identity : TrustedIdentity) (uploadId : String)
  | turn (i : ℕ) (answers : Answers)

def step (σ : System) : Action → System
  | .other a _ => { σ with store := UploadScopes.step σ.store a }
  | .write o => { σ with objects := put σ.objects o }
  | .complete identity uploadId => { σ with calls := σ.calls++[⟨identity,uploadId,.finding⟩] }
  | .turn i answers => match σ.calls[i]? with
    | none => σ
    | some call =>
      let turned := call.turn reader answers σ.store σ.objects
      ⟨turned.1,σ.objects,σ.calls.set i { call with phase := turned.2 }⟩

def start : System := ⟨empty,[],[]⟩

end Handlers

/-! ### What is verified -/

/-- The version has the content which the reservation of the upload declares. -/
structure Declared (sha256 : Sha256) (objects : SourceObjects) (u : UploadRow)
    (found : SourceObject) : Prop where
  object : object objects u.objectBucket u.objectName (some found.version) = some found
  version : validObjectVersion found.version = true
  contentLength : (found.bytes.length : ℤ) = u.expectedContentLength
  contentType : HasMagic u.expectedContentType found.bytes
  digest : sha256Digest (sha256.digest found.bytes) = u.expectedDigest

/-- What a reservation says stays, and so does the version which has been recorded. -/
structure Kept (u u' : UploadRow) : Prop where
  uploadId : u'.uploadId = u.uploadId
  scope : u'.scope = u.scope
  objectBucket : u'.objectBucket = u.objectBucket
  objectName : u'.objectName = u.objectName
  contentType : u'.expectedContentType = u.expectedContentType
  contentLength : u'.expectedContentLength = u.expectedContentLength
  digest : u'.expectedDigest = u.expectedDigest
  verified : u.verified.isSome = true → u'.verified = u.verified

theorem Kept.refl (u : UploadRow) : Kept u u := ⟨rfl,rfl,rfl,rfl,rfl,rfl,rfl,fun _ => rfl⟩

theorem Kept.trans {u u' u'' : UploadRow} (h : Kept u u') (h' : Kept u' u'') : Kept u u'' where
  uploadId := h'.uploadId.trans h.uploadId
  scope := h'.scope.trans h.scope
  objectBucket := h'.objectBucket.trans h.objectBucket
  objectName := h'.objectName.trans h.objectName
  contentType := h'.contentType.trans h.contentType
  contentLength := h'.contentLength.trans h.contentLength
  digest := h'.digest.trans h.digest
  verified := by
    intro hsome
    have hverified := h.verified hsome
    rw [h'.verified (by rw [hverified, hsome]), hverified]

section Verified
variable {reader : GcsUploadArtifactReader} {sha256 : Sha256} {objects objects' : SourceObjects}
  {u u' : UploadRow} {found : SourceObject}

theorem Declared.kept (h : Declared sha256 objects u found) (hkept : Kept u u') :
    Declared sha256 objects u' found where
  object := by
    rw [hkept.objectBucket, hkept.objectName]
    exact h.object
  version := h.version
  contentLength := by
    rw [hkept.contentLength]
    exact h.contentLength
  contentType := by
    rw [hkept.contentType]
    exact h.contentType
  digest := by
    rw [hkept.digest]
    exact h.digest

theorem Declared.mono (h : Declared sha256 objects u found) (hextends : Extends objects objects') :
    Declared sha256 objects' u found :=
  ⟨object_extends hextends h.object,h.version,h.contentLength,h.contentType,h.digest⟩

/-- The newest version is found by its name. -/
theorem object_newest {bucket name : String}
    (h : SourceReading.object objects bucket name none = some found) :
    SourceReading.object objects bucket name (some found.version) = some found := by
  obtain ⟨place,hplace,hcurrent⟩ := Option.bind_eq_some_iff.mp h
  exact Option.bind_eq_some_iff.mpr ⟨place,hplace,version_current hcurrent⟩

/-- A stream which is verified has not failed. -/
theorem verified_whole {upload : StoredUpload} {generation : String} {size : ℕ} {bytes : Bytes}
    {lengths : List ℕ} {failure : Option (ℕ×ObjectError)} {artifact : VerifiedUploadArtifact}
    (h : verifyStream sha256 upload generation size (intoStream bytes lengths failure) =
      .ok artifact) :
    intoStream bytes lengths failure = ContentVerification.streamOf (pieces lengths bytes) := by
  simp only [verifyStream] at h
  split at h
  · cases h
  split at h
  · cases h
  · obtain ⟨reading,hreading,_⟩ := bind_ok.mp h
    exact foldlM_intoStream (fun _ e => ⟨mapObjectError e,rfl⟩) hreading

/-- The reservation which a call has loaded is that of the row. -/
structure Reserves (u : UploadRow) (upload : StoredUpload) : Prop where
  objectBucket : upload.objectBucket = u.objectBucket
  objectName : upload.objectName = u.objectName
  contentType : upload.expectedContentType = u.expectedContentType
  contentLength : upload.expectedContentLength = u.expectedContentLength
  digest : upload.expectedDigest = u.expectedDigest

theorem Reserves.kept {upload : StoredUpload} (h : Reserves u upload) (hkept : Kept u u') :
    Reserves u' upload where
  objectBucket := h.objectBucket.trans hkept.objectBucket.symm
  objectName := h.objectName.trans hkept.objectName.symm
  contentType := h.contentType.trans hkept.contentType.symm
  contentLength := h.contentLength.trans hkept.contentLength.symm
  digest := h.digest.trans hkept.digest.symm

theorem verify_ok {upload : StoredUpload} {versioned : Bool} {reply : GetReply}
    {artifact : VerifiedUploadArtifact} (hreserves : Reserves u upload)
    (h : reader.verify upload objects versioned reply = .ok artifact) :
    ∃ found, Declared reader.sha256 objects u found ∧ artifact.objectVersion = found.version := by
  rw [GcsUploadArtifactReader.verify] at h
  split at h
  · cases h
  split at h
  · cases h
  split at h
  · cases h
  rename_i found stream hget
  obtain ⟨hobject,lengths,failure,rfl⟩ := getOpts_ok hget
  split at h
  · cases h
  rename_i hversion
  rw [Bool.or_eq_true, not_or, Bool.not_eq_true', Bool.not_eq_false, Bool.not_eq_true',
    Bool.not_eq_false] at hversion
  have hstream := verified_whole h
  rw [hstream] at h
  obtain ⟨hsized,_,hdigest,htype,hartifact⟩ := (verifyStream_ok reader.sha256).mp h
  rw [flatten_pieces] at hdigest htype
  refine ⟨found,⟨?_,hversion.2,?_,?_,?_⟩,by rw [hartifact]⟩
  · rw [← hreserves.objectBucket, ← hreserves.objectName]
    exact object_newest hobject
  · rw [hsized.1, hreserves.contentLength]
  · rw [← hreserves.contentType]
    exact htype
  · rw [hdigest, hreserves.digest]

end Verified

/-! ### Rows -/

/-- What a value which is computed and then read returns. -/
theorem map_ok {ε α β : Type} {x : Except ε α} {f : α → β} {b : β} (h : x.map f = .ok b) :
    ∃ a, x = .ok a ∧ f a = b := by
  cases x with
  | error e => cases h
  | ok a => exact ⟨a,rfl,Except.ok.inj h⟩

section Rows
variable {s : Store} {scope : Scope} {uploadId : UploadId}

/-- A change of a row is a recording or leaves the recorded version as it is. -/
theorem change_kept {events : UploadEventType → ℕ} {u u' : UploadRow} {a : UploadScopes.Action}
    {types : List UploadEventType} (hrow : RowOk events u) (h : UploadChange u a u' types) :
    Kept u u' ∧ (records a = false → u'.verified = u.verified) := by
  cases h with
  | recorded now nowUtc record hrecordable =>
    simp only [recordable, Bool.and_eq_true, beq_iff_eq] at hrecordable
    have hnone : u.verified.isSome = false := by
      rw [hrow.uploaded, hrecordable.1.1.1.1]
      rfl
    refine ⟨⟨rfl,rfl,rfl,rfl,rfl,rfl,rfl,?_⟩,fun h => by cases h⟩
    intro hsome
    rw [hnone] at hsome
    cases hsome
  | _ => exact ⟨⟨rfl,rfl,rfl,rfl,rfl,rfl,rfl,fun _ => rfl⟩,fun _ => rfl⟩

/-- The row of an upload. -/
structure RowOf (s : Store) (scope : Scope) (uploadId : UploadId) (u : UploadRow) : Prop where
  mem : u ∈ s.uploads
  scope : u.scope = scope
  uploadId : u.uploadId = uploadId

theorem row_kept (hs : Sound s) (a : UploadScopes.Action) {u : UploadRow}
    (h : RowOf s scope uploadId u) :
    ∃ u', RowOf (UploadScopes.step s a) scope uploadId u' ∧ Kept u u' := by
  obtain ⟨u',hu',rfl | ⟨types,hchange⟩⟩ := UploadLifecycle.step_keeps hs a h.mem
  · exact ⟨u',⟨hu',h.scope,h.uploadId⟩,Kept.refl u'⟩
  · have hkept := (change_kept (hs.rows u h.mem) hchange).1
    exact ⟨u',⟨hu',hkept.scope.trans h.scope,hkept.uploadId.trans h.uploadId⟩,hkept⟩

theorem storedUpload_ok {u : UploadRow} {upload : StoredUpload} (h : storedUpload u = .ok upload) :
    upload.state = u.status ∧ upload.uploadId = u.uploadId ∧ Reserves u upload := by
  rw [storedUpload] at h
  split at h
  · rw [Except.ok.injEq] at h
    rw [← h]
    exact ⟨rfl,rfl,⟨rfl,rfl,rfl,rfl,rfl⟩⟩
  · cases h

/-- A row is the one which its upload is found by. -/
theorem find_row (hs : Sound s) {u : UploadRow} (h : RowOf s scope uploadId u) :
    s.uploads.find? (isUpload scope uploadId) = some u := by
  refine Table.find?_eq_of_unique h.mem ((UploadScopes.isUpload_iff _ _ _).mpr
    ⟨h.scope,h.uploadId⟩) ?_
  intro x hx hfound
  exact Table.eq_of_key hs.keys hx h.mem
    (((UploadScopes.isUpload_iff _ _ _).mp hfound).2.trans h.uploadId.symm)

theorem row_of_find {u : UploadRow} (h : s.uploads.find? (isUpload scope uploadId) = some u) :
    RowOf s scope uploadId u := by
  obtain ⟨hu,hkey⟩ := Table.mem_of_find? h
  obtain ⟨hscope,hid⟩ := (UploadScopes.isUpload_iff _ _ _).mp hkey
  exact ⟨hu,hscope,hid⟩

theorem findUpload_some {upload : StoredUpload}
    (h : findUpload s scope uploadId = .ok (some upload)) :
    ∃ u, RowOf s scope uploadId u ∧ storedUpload u = .ok upload := by
  rw [findUpload] at h
  split at h
  · cases h
  · rename_i u hfind
    obtain ⟨stored,hstored,hsome⟩ := map_ok h
    rw [← Option.some.inj hsome]
    exact ⟨u,row_of_find hfind,hstored⟩

/-- An upload which is answered as recorded is. -/
theorem record_answered {now nowUtc : ℤ} {record : RecordUpload} {outcome : RecordUploadOutcome}
    {s' : Store} (hs : Sound s)
    (h : recordUploaded s now nowUtc scope uploadId record = .ok (outcome,s'))
    (houtcome : (∃ upload, outcome = .recorded upload) ∨ ∃ upload, outcome = .existing upload) :
    ∃ u, RowOf s' scope uploadId u ∧ u.verified.isSome = true := by
  rw [recordUploaded] at h
  split at h
  · cases h
  split at h
  · cases h
    simp at houtcome
  rename_i u hfind
  have hrow := row_of_find hfind
  split at h
  · obtain ⟨upload,_,hpair⟩ := map_ok h
    rw [← (Prod.mk.inj hpair).2]
    exact ⟨markUploaded now record u,⟨Table.mem_update_changed hrow.mem
      (Table.mem_of_find? hfind).2,hrow.scope,hrow.uploadId⟩,rfl⟩
  · split at h
    · rename_i hstatus
      split at h
      · obtain ⟨upload,_,hpair⟩ := map_ok h
        rw [← (Prod.mk.inj hpair).2]
        refine ⟨u,hrow,?_⟩
        rw [(hs.rows u hrow.mem).uploaded, hstatus]
        rfl
      · cases h
        simp at houtcome
    · cases h
      split at houtcome <;> simp at houtcome
    · cases h
      simp at houtcome

end Rows

/-! ### Invariants -/

/-- What a call goes by is about the row of its upload. -/
def PhaseOk (sha256 : Sha256) (s : Store) (objects : SourceObjects) (scope : Scope)
    (path : String) : Phase → Prop
  | .finding => True
  | .verifying upload => ∃ uploadId u, UploadId.new path = .ok uploadId ∧
      RowOf s scope uploadId u ∧ Reserves u upload
  | .recording artifact => ∃ uploadId u found, UploadId.new path = .ok uploadId ∧
      RowOf s scope uploadId u ∧ Declared sha256 objects u found ∧
      artifact.objectVersion = found.version
  | .answered (.ok response) => UploadId.new path = .ok response.uploadId ∧
      response.status = "uploaded" ∧
      ∃ u, RowOf s scope response.uploadId u ∧ u.verified.isSome = true
  | .answered (.error _) => True

structure Inv (sha256 : Sha256) (σ : System) : Prop where
  sound : Sound σ.store
  declared : ∀ u ∈ σ.store.uploads, ∀ v, u.verified = some v →
    ∃ found, Declared sha256 σ.objects u found ∧ v.objectVersion = found.version
  calls : ∀ call ∈ σ.calls, PhaseOk sha256 σ.store σ.objects call.scope call.uploadId call.phase

/-- No row is lost or forgets its version, and no version of an object is changed. -/
structure Later (s s' : Store) (objects objects' : SourceObjects) : Prop where
  rows : ∀ u ∈ s.uploads, ∃ u' ∈ s'.uploads, Kept u u'
  objects : Extends objects objects'

section Steps
variable {sha256 : Sha256} {s s' s'' : Store} {objects objects' objects'' : SourceObjects}

theorem Later.refl (s : Store) (objects : SourceObjects) : Later s s objects objects :=
  ⟨fun u hu => ⟨u,hu,Kept.refl u⟩,Extends.refl objects⟩

theorem Later.trans (h : Later s s' objects objects') (h' : Later s' s'' objects' objects'') :
    Later s s'' objects objects'' where
  rows := by
    intro u hu
    obtain ⟨u',hu',hkept⟩ := h.rows u hu
    obtain ⟨u'',hu'',hkept'⟩ := h'.rows u' hu'
    exact ⟨u'',hu'',hkept.trans hkept'⟩
  objects := h.objects.trans h'.objects

theorem Later.row (h : Later s s' objects objects') {scope : Scope} {uploadId : UploadId}
    {u : UploadRow} (hrow : RowOf s scope uploadId u) :
    ∃ u', RowOf s' scope uploadId u' ∧ Kept u u' := by
  obtain ⟨u',hu',hkept⟩ := h.rows u hrow.mem
  exact ⟨u',⟨hu',hkept.scope.trans hrow.scope,hkept.uploadId.trans hrow.uploadId⟩,hkept⟩

theorem write_later (s : Store) (objects : SourceObjects) (o : SourceObject) :
    Later s s objects (put objects o) :=
  ⟨(Later.refl s objects).rows,extends_put objects o⟩

theorem store_later (hs : Sound s) (a : UploadScopes.Action) :
    Later s (UploadScopes.step s a) objects objects where
  rows := by
    intro u hu
    obtain ⟨u',hrow,hkept⟩ := row_kept hs a ⟨hu,rfl,rfl⟩
    exact ⟨u',hrow.mem,hkept⟩
  objects := Extends.refl objects

theorem PhaseOk.later (hlater : Later s s' objects objects') {scope : Scope} {path : String}
    {phase : Phase} (h : PhaseOk sha256 s objects scope path phase) :
    PhaseOk sha256 s' objects' scope path phase := by
  cases phase with
  | finding => trivial
  | verifying upload =>
    obtain ⟨uploadId,u,hid,hrow,hreserves⟩ := h
    obtain ⟨u',hrow',hkept⟩ := hlater.row hrow
    exact ⟨uploadId,u',hid,hrow',hreserves.kept hkept⟩
  | recording artifact =>
    obtain ⟨uploadId,u,found,hid,hrow,hdeclared,hversion⟩ := h
    obtain ⟨u',hrow',hkept⟩ := hlater.row hrow
    exact ⟨uploadId,u',found,hid,hrow',(hdeclared.kept hkept).mono hlater.objects,hversion⟩
  | answered reply =>
    cases reply with
    | error e => trivial
    | ok response =>
      obtain ⟨hid,hstatus,u,hrow,hverified⟩ := h
      obtain ⟨u',hrow',hkept⟩ := hlater.row hrow
      exact ⟨hid,hstatus,u',hrow',by rw [hkept.verified hverified, hverified]⟩

/-- The rows which a transaction other than a recording leaves are declared. -/
theorem other_declared {σ : System} (h : Inv sha256 σ) {a : UploadScopes.Action}
    (ha : records a = false) {u' : UploadRow}
    (hu' : u' ∈ (UploadScopes.step σ.store a).uploads) {v : VerifiedObject}
    (hv : u'.verified = some v) :
    ∃ found, Declared sha256 σ.objects u' found ∧ v.objectVersion = found.version := by
  rcases UploadLifecycle.step_row h.sound a hu' with hold | ⟨now,request,_,rfl⟩ |
    ⟨u,hu,types,hchange⟩
  · exact h.declared u' hold v hv
  · cases hv
  · obtain ⟨hkept,hverified⟩ := change_kept (h.sound.rows u hu) hchange
    rw [hverified ha] at hv
    obtain ⟨found,hdeclared,hversion⟩ := h.declared u hu v hv
    exact ⟨found,hdeclared.kept hkept,hversion⟩

/-- A recording writes the version which the call has verified. -/
theorem record_declared {σ : System} (h : Inv sha256 σ) {scope : Scope} {uploadId : UploadId}
    {u₀ : UploadRow} {found : SourceObject} (hrow : RowOf σ.store scope uploadId u₀)
    (hdeclared : Declared sha256 σ.objects u₀ found) {now nowUtc : ℤ} {record : RecordUpload}
    (hrecord : record.objectVersion = found.version) {u' : UploadRow}
    (hu' : u' ∈ (UploadScopes.step σ.store (.record now nowUtc scope uploadId record)).uploads)
    {v : VerifiedObject} (hv : u'.verified = some v) :
    ∃ found, Declared sha256 σ.objects u' found ∧ v.objectVersion = found.version := by
  rcases UploadLifecycle.step_row h.sound _ hu' with hold | ⟨now,request,_,rfl⟩ |
    ⟨u,hu,types,hchange⟩
  · exact h.declared u' hold v hv
  · cases hv
  · have hkept := (change_kept (h.sound.rows u hu) hchange).1
    cases hchange
    have hsame : u₀ = u := Table.eq_of_key h.sound.keys hrow.mem hu hrow.uploadId
    rw [hsame] at hdeclared
    cases hv
    exact ⟨found,hdeclared.kept hkept,hrecord⟩

theorem query_ok {α : Type} {answers : Importer.Answers} {result : Except Schema.Error α} {a : α}
    (h : answers.query result = .ok a) : result = .ok a := by
  rw [Importer.Answers.query] at h
  split at h
  · exact h
  · cases h

/-- A transaction which is answered has been committed. -/
theorem transact_ok {α : Type} {answers : Importer.Answers} {t : Transaction α} {a : α}
    (h : (answers.transact s t).2 = .ok a) :
    ∃ s', t = .ok (a,s') ∧ (answers.transact s t).1 = s' := by
  rw [Importer.Answers.transact] at h ⊢
  split at h
  · rename_i hcommitted
    rw [if_pos hcommitted]
    simp only at h ⊢
    split at h
    · obtain ⟨pair,rfl,hfst⟩ := map_ok h
      exact ⟨pair.2,by rw [← hfst],rfl⟩
    · cases h
  · cases h

/-- The phase after a search is about the row which was found. -/
theorem found_phase (hs : Sound s) {scope : Scope} {path : String} {uploadId : UploadId}
    (hid : UploadId.new path = .ok uploadId) (answers : Answers) :
    PhaseOk sha256 s objects scope path
      (found uploadId answers.nowUtc (answers.query (findUpload s scope uploadId))) := by
  cases hquery : answers.query (findUpload s scope uploadId) with
  | error e => trivial
  | ok result =>
    cases result with
    | none => trivial
    | some upload =>
      obtain ⟨u,hrow,hstored⟩ := findUpload_some (query_ok hquery)
      obtain ⟨hstate,_,hreserves⟩ := storedUpload_ok hstored
      rw [found]
      cases hupload : upload.state with
      | reserved =>
        simp only
        split
        · trivial
        · exact ⟨uploadId,u,hid,hrow,hreserves⟩
      | uploaded =>
        refine ⟨hid,rfl,u,hrow,?_⟩
        rw [(hs.rows u hrow.mem).uploaded, ← hstate, hupload]
        rfl
      | _ => trivial

end Steps

section Runs
variable {reader : GcsUploadArtifactReader} {σ σ' : System}

/-- A turn records the upload of its call or leaves the store alone. -/
theorem turn_store (reader : GcsUploadArtifactReader) (call : Call) (answers : Answers) (s : Store)
    (objects : SourceObjects) :
    (call.turn reader answers s objects).1 = s ∨ ∃ uploadId artifact,
      UploadId.new call.uploadId = .ok uploadId ∧ call.phase = .recording artifact ∧
      (call.turn reader answers s objects).1 = UploadScopes.step s
        (.record answers.now answers.nowUtc call.scope uploadId (recordUpload artifact)) := by
  rw [Call.turn]
  split
  · exact Or.inl rfl
  rename_i uploadId hid
  split
  · exact Or.inl rfl
  · exact Or.inl rfl
  · rename_i artifact hphase
    exact (InspectionGate.transact_store answers.toAnswers s _).imp_right fun hcommit =>
      ⟨uploadId,artifact,hid,hphase,hcommit⟩
  · exact Or.inl rfl

theorem turn_later (h : Inv reader.sha256 σ) (call : Call) (answers : Answers) :
    Later σ.store (call.turn reader answers σ.store σ.objects).1 σ.objects σ.objects := by
  rcases turn_store reader call answers σ.store σ.objects with hsame |
    ⟨uploadId,artifact,_,_,hrecord⟩
  · rw [hsame]
    exact Later.refl _ _
  · rw [hrecord]
    exact store_later h.sound _

theorem turn_phase (h : Inv reader.sha256 σ) {call : Call} (hcall : call ∈ σ.calls)
    (answers : Answers) :
    PhaseOk reader.sha256 (call.turn reader answers σ.store σ.objects).1 σ.objects call.scope
      call.uploadId (call.turn reader answers σ.store σ.objects).2 := by
  have hbefore := h.calls call hcall
  cases hid : UploadId.new call.uploadId with
  | error e =>
    rw [Call.turn, hid]
    trivial
  | ok uploadId =>
    cases hphase : call.phase with
    | finding =>
      rw [Call.turn, hid, hphase]
      exact found_phase h.sound hid answers
    | verifying upload =>
      rw [hphase] at hbefore
      obtain ⟨_,u,_,hrow,hreserves⟩ := hbefore
      rw [Call.turn, hid, hphase]
      simp only
      cases hverify : reader.verify upload σ.objects answers.versioned answers.get with
      | error e => cases e <;> trivial
      | ok artifact =>
        obtain ⟨found,hdeclared,hversion⟩ := verify_ok hreserves hverify
        exact ⟨_,u,found,‹_›,hrow,hdeclared,hversion⟩
    | recording artifact =>
      rw [Call.turn, hid, hphase]
      simp only
      cases houtcome : (answers.transact σ.store (recordUploaded σ.store answers.now
          answers.nowUtc call.scope uploadId (recordUpload artifact))).2 with
      | error e => trivial
      | ok outcome =>
        obtain ⟨s',hrecorded,hstore⟩ := transact_ok houtcome
        rw [hstore]
        cases outcome with
        | recorded upload =>
          exact ⟨hid,rfl,record_answered h.sound hrecorded (.inl ⟨upload,rfl⟩)⟩
        | existing upload =>
          exact ⟨hid,rfl,record_answered h.sound hrecorded (.inr ⟨upload,rfl⟩)⟩
        | _ => trivial
    | answered reply =>
      rw [hphase] at hbefore
      rw [Call.turn, hid, hphase]
      exact hbefore

theorem turn_inv (h : Inv reader.sha256 σ) {i : ℕ} {call : Call} (hi : σ.calls[i]? = some call)
    (answers : Answers) :
    Inv reader.sha256 ⟨(call.turn reader answers σ.store σ.objects).1,σ.objects,σ.calls.set i
      { call with phase := (call.turn reader answers σ.store σ.objects).2 }⟩ := by
  have hcall := List.mem_of_getElem? hi
  refine ⟨?_,?_,?_⟩
  · rcases turn_store reader call answers σ.store σ.objects with hsame |
      ⟨uploadId,artifact,_,_,hrecord⟩
    · rw [hsame]
      exact h.sound
    · simp only [hrecord]
      exact UploadLifecycle.step_sound _ _ h.sound
  · intro u hu v hv
    rcases turn_store reader call answers σ.store σ.objects with hsame |
      ⟨uploadId,artifact,hid,hphase,hrecord⟩
    · simp only [hsame] at hu
      exact h.declared u hu v hv
    · have hbefore := h.calls call hcall
      rw [hphase] at hbefore
      obtain ⟨uploadId',u₀,found,hid',hrow,hdeclared,hversion⟩ := hbefore
      rw [hid, Except.ok.injEq] at hid'
      rw [← hid'] at hrow
      simp only [hrecord] at hu
      exact record_declared h hrow hdeclared hversion hu hv
  · intro other hother
    rcases List.mem_or_eq_of_mem_set hother with hold | rfl
    · exact (h.calls other hold).later (turn_later h call answers)
    · exact turn_phase h hcall answers

theorem step_inv (h : Inv reader.sha256 σ) (a : Action) : Inv reader.sha256 (step reader σ a) := by
  cases a with
  | other a ha =>
    exact ⟨UploadLifecycle.step_sound _ _ h.sound,fun u hu v hv => other_declared h ha hu hv,
      fun call hcall => (h.calls call hcall).later (store_later h.sound a)⟩
  | write o =>
    have hlater := write_later σ.store σ.objects o
    refine ⟨h.sound,?_,fun call hcall => (h.calls call hcall).later hlater⟩
    intro u hu v hv
    obtain ⟨found,hdeclared,hversion⟩ := h.declared u hu v hv
    exact ⟨found,hdeclared.mono hlater.objects,hversion⟩
  | complete identity uploadId =>
    refine ⟨h.sound,h.declared,?_⟩
    intro call hcall
    rcases List.mem_append.mp hcall with hold | hnew
    · exact h.calls call hold
    · rw [List.mem_singleton.mp hnew]
      trivial
  | turn i answers =>
    rw [step]
    cases hi : σ.calls[i]? with
    | none => exact h
    | some call => exact turn_inv h hi answers

theorem step_later (h : Inv reader.sha256 σ) (a : Action) :
    Later σ.store (step reader σ a).store σ.objects (step reader σ a).objects := by
  cases a with
  | other a ha => exact store_later h.sound a
  | write o => exact write_later σ.store σ.objects o
  | complete identity uploadId => exact Later.refl _ _
  | turn i answers =>
    rw [step]
    cases hi : σ.calls[i]? with
    | none => exact Later.refl _ _
    | some call => exact turn_later h call answers

theorem start_inv (sha256 : Sha256) : Inv sha256 start where
  sound := UploadLifecycle.sound_empty
  declared := fun _ h => absurd h List.not_mem_nil
  calls := fun _ h => absurd h List.not_mem_nil

theorem run_inv (h : Inv reader.sha256 σ) (as : List Action) :
    Inv reader.sha256 (run (step reader) σ as) :=
  run_invariant (I := Inv reader.sha256) (fun _ a h => step_inv h a) h as

theorem run_later (h : Inv reader.sha256 σ) (as : List Action) :
    Later σ.store (run (step reader) σ as).store σ.objects (run (step reader) σ as).objects := by
  induction as generalizing σ with
  | nil => exact Later.refl _ _
  | cons a as ih => exact (step_later h a).trans (ih (step_inv h a))

end Runs

/-! ### Completed uploads -/

/-- The upload has recorded this version, with the content which was declared. -/
structure Recorded (sha256 : Sha256) (σ : System) (scope : Scope) (uploadId : UploadId)
    (u : UploadRow) (found : SourceObject) : Prop where
  row : RowOf σ.store scope uploadId u
  version : u.verified.map (·.objectVersion) = some found.version
  declared : Declared sha256 σ.objects u found

/-- What a caller may be told about an upload which has been recorded. -/
structure Settled (reader : GcsUploadArtifactReader) (σ : System) (scope : Scope)
    (path : String) (uploadId : UploadId) : Prop where
  complete : ∀ call : Call, call.scope = scope → call.uploadId = path → call.phase = .finding →
    ∀ answers, call.turn reader answers σ.store σ.objects =
        (σ.store,.answered (.ok ⟨uploadId,"uploaded"⟩)) ∨
      call.turn reader answers σ.store σ.objects =
        (σ.store,.answered (.error uploadNotCompletable)) ∨
      call.turn reader answers σ.store σ.objects = (σ.store,.answered (.error .unavailable))
  status : ∀ identity : TrustedIdentity, (⟨identity.productId,identity.tenantId⟩ : Scope) = scope →
    ∀ answers, getUpload σ.store answers identity path = .error .unavailable ∨
      ∃ state, wasUploaded state = true ∧
        getUpload σ.store answers identity path = .ok ⟨uploadId,uploadStatus state⟩

section Completed
variable {reader : GcsUploadArtifactReader} {σ : System} {scope : Scope} {uploadId : UploadId}
  {u : UploadRow}

theorem recorded_of_verified (h : Inv reader.sha256 σ) (hrow : RowOf σ.store scope uploadId u)
    (hverified : u.verified.isSome = true) :
    ∃ found, Recorded reader.sha256 σ scope uploadId u found := by
  obtain ⟨v,hv⟩ := Option.isSome_iff_exists.mp hverified
  obtain ⟨found,hdeclared,hversion⟩ := h.declared u hrow.mem v hv
  exact ⟨found,hrow,by rw [hv, Option.map_some, hversion],hdeclared⟩

/-- A search for a recorded upload finds it as one, or is not answered. -/
theorem search_recorded (h : Inv reader.sha256 σ) (hrow : RowOf σ.store scope uploadId u)
    (hverified : u.verified.isSome = true) (answers : Answers) :
    (∃ e, answers.query (findUpload σ.store scope uploadId) = .error e) ∨ ∃ upload,
      answers.query (findUpload σ.store scope uploadId) = .ok (some upload) ∧
        upload.uploadId = uploadId ∧ wasUploaded upload.state = true := by
  cases hquery : answers.query (findUpload σ.store scope uploadId) with
  | error e => exact Or.inl ⟨e,rfl⟩
  | ok result =>
    have hfound := query_ok hquery
    rw [findUpload, find_row h.sound hrow] at hfound
    dsimp only at hfound
    obtain ⟨upload,hstored,hsome⟩ := map_ok hfound
    obtain ⟨hstate,hid,_⟩ := storedUpload_ok hstored
    refine Or.inr ⟨upload,congrArg Except.ok hsome.symm,hid.trans hrow.uploadId,?_⟩
    rw [hstate, ← (h.sound.rows u hrow.mem).uploaded, hverified]

theorem settled_of_verified (h : Inv reader.sha256 σ) {path : String}
    (hid : UploadId.new path = .ok uploadId) (hrow : RowOf σ.store scope uploadId u)
    (hverified : u.verified.isSome = true) : Settled reader σ scope path uploadId := by
  constructor
  · intro call hscope hpath hphase answers
    rw [Call.turn, hpath, hid, hphase, hscope]
    rcases search_recorded h hrow hverified answers with ⟨e,herror⟩ | ⟨upload,hupload,_,hstate⟩
    · simp only [herror]
      exact Or.inr (Or.inr rfl)
    · simp only [hupload, found]
      cases hcase : upload.state with
      | reserved =>
        rw [hcase] at hstate
        cases hstate
      | expired =>
        rw [hcase] at hstate
        cases hstate
      | uploaded => exact Or.inl rfl
      | _ => exact Or.inr (Or.inl rfl)
  · intro identity hscope answers
    simp only [getUpload, hid, hscope]
    rcases search_recorded h hrow hverified answers with ⟨e,herror⟩ | ⟨upload,hupload,huid,hstate⟩
    · rw [herror]
      exact Or.inl rfl
    · simp only [hupload, huid]
      exact Or.inr ⟨upload.state,hstate,rfl⟩

end Completed

/-- An upload which a caller was told to be uploaded has recorded a version of its object with
the content which its reservation declares, for ever, and no caller is told otherwise. -/
theorem completed_uploads (reader : GcsUploadArtifactReader) (as bs : List Action) {call : Call}
    {response : UploadCompletionResponse}
    (hcall : call ∈ (run (step reader) start as).calls)
    (hanswered : call.phase = .answered (.ok response)) :
    response.status = "uploaded" ∧ ∃ u found,
      Recorded reader.sha256 (run (step reader) start as) call.scope response.uploadId u found ∧
      ∃ u', Kept u u' ∧
        Recorded reader.sha256 (run (step reader) start (as++bs)) call.scope response.uploadId u'
          found ∧
        Settled reader (run (step reader) start (as++bs)) call.scope call.uploadId
          response.uploadId := by
  have hinv := run_inv (start_inv reader.sha256) as
  have hphase := hinv.calls call hcall
  rw [hanswered] at hphase
  obtain ⟨hid,hstatus,u,hrow,hverified⟩ := hphase
  obtain ⟨found,hrecorded⟩ := recorded_of_verified hinv hrow hverified
  have hlater := run_later hinv bs
  have hinv' := run_inv hinv bs
  rw [← run_append] at hlater hinv'
  obtain ⟨u',hrow',hkept⟩ := hlater.row hrow
  have hsame := hkept.verified hverified
  refine ⟨hstatus,u,found,hrecorded,u',hkept,⟨hrow',?_,?_⟩,?_⟩
  · rw [hsame]
    exact hrecorded.version
  · exact (hrecorded.declared.kept hkept).mono hlater.objects
  · exact settled_of_verified hinv' hid hrow' (by rw [hsame, hverified])

/-! An object is written and its upload completed, and the object is written again. -/

def onlyReader : GcsUploadArtifactReader :=
  ⟨["quarantine-eu"],fun _ => true,PageSources.onlySha256⟩

def onlyAnswers : Answers where
  toAnswers := PageSources.onlyAnswers
  nowUtc := 2
  versioned := true

def written (version : String) (bytes : Bytes) : SourceObject :=
  ⟨(.gcs "quarantine-eu".toList,PageSources.onlyName),version,bytes⟩

def completedRun : List Action :=
  [.other (.create 0 PageSources.onlyUpload) rfl,.write (written "1" PageSources.onlyContent),
    .complete ⟨default,default⟩ (default : UploadId).asStr]++List.replicate 3 (.turn 0 onlyAnswers)

def completedCall : Call :=
  ⟨⟨default,default⟩,(default : UploadId).asStr,.answered (.ok ⟨default,"uploaded"⟩)⟩

theorem completedRun_calls : (run (step onlyReader) start completedRun).calls =
    [completedCall] := by
  decide +kernel

theorem overwritten_upload : ∃ u found,
    Recorded PageSources.onlySha256 (run (step onlyReader) start completedRun) default default u
      found ∧ ∃ u', Recorded PageSources.onlySha256
        (run (step onlyReader) start (completedRun++[.write (written "2" [])])) default default u'
        found := by
  have hcall : completedCall ∈ (run (step onlyReader) start completedRun).calls := by
    rw [completedRun_calls]
    exact List.mem_singleton.mpr rfl
  obtain ⟨_,u,found,hrecorded,u',_,hlater,_⟩ := completed_uploads onlyReader completedRun
    [.write (written "2" [])] hcall rfl
  exact ⟨u,found,hrecorded,u',hlater⟩

end DocumentIntelligence.UploadCompletion
