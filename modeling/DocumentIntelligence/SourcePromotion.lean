import DocumentIntelligence.RequestSigning
import DocumentIntelligence.SourceReading

/-!
# The promotion of a source

A verified source goes from its quarantine to the bucket of its route: by a rewrite of
the version which the upload names, or by a read and a write which only creates. What
stands at the destination already is verified. A reply to a rewrite which no store gives
leaves the call waiting.
-/

set_option autoImplicit false

namespace DocumentIntelligence.SourcePromotion
open BigEndian ObjectStorage SourceReading
open Identifiers (Scope UploadId stripPrefix byteLength isLowerHex)
open Uploads (StoredUpload)
open Schema (validObjectVersion)
open StorageLocations (Location location promotionCompatible)
open RequestSigning (parseI64)
open ContentVerification (Sha256 sha256Digest ObjectError ObjectStream streamOf maximumUploadBytes
  collectVerified)
open Table (bind_ok)

inductive SourcePromotionError where
  | invalidConfiguration
  | invalidSource
  | destinationConflict
  | unavailable
  deriving DecidableEq, Repr

structure PromotedSource where
  bucket : String
  objectName : String
  generation : String
  digest : String
  contentLength : ℤ
  deriving DecidableEq, Repr

/-- The routes of the source buckets to their destinations. -/
structure GcsSourcePromoter where
  routes : List (String×String)
  compatible : ∀ route ∈ routes, promotionCompatible route.1 route.2 = true
  sources : (routes.map (·.1)).Nodup
  destinations : (routes.map (·.2)).Nodup

def sourceName (scope : Scope) (uploadId : UploadId) : String :=
  "products/"++scope.productId.asStr++"/tenants/"++scope.tenantId.asStr++"/quarantine/"++
    uploadId.asStr

def destinationName (scope : Scope) (digest : List Char) : String :=
  "products/"++scope.productId.asStr++"/tenants/"++scope.tenantId.asStr++"/documents/sha256/"++
    String.ofList digest

/-- What a promotion whose checks are passed works with. -/
structure Promotion where
  generation : String
  destinationBucket : String
  destinationName : String
  deriving DecidableEq, Repr

/-- The checks of `promote_inner`. -/
def GcsSourcePromoter.promotion (promoter : GcsSourcePromoter) (scope : Scope)
    (upload : StoredUpload) : Except SourcePromotionError Promotion :=
  match upload.objectVersion.filter validObjectVersion with
  | none => .error .invalidSource
  | some generation => match promoter.routes.find? (·.1 == upload.objectBucket) with
    | none => .error .invalidSource
    | some route => match (stripPrefix upload.expectedDigest "sha256:").filter fun digest =>
        byteLength digest == 64 && digest.all isLowerHex with
      | none => .error .invalidSource
      | some digest =>
        if upload.state ≠ .inspecting ∨
            upload.objectName ≠ sourceName scope upload.uploadId ∨
            ¬(1 ≤ upload.expectedContentLength ∧
              upload.expectedContentLength ≤ maximumUploadBytes) then .error .invalidSource
        else .ok ⟨generation,route.2,destinationName scope digest⟩

/-- A rewrite has so many calls left; a stream is read, then stored. -/
inductive Stage where
  | rewriting (left : ℕ)
  | reading
  | storing (bytes : Bytes)
  | verifying
  deriving DecidableEq, Repr

inductive StageResult where
  | next (stage : Stage)
  | ended (result : Except SourcePromotionError PromotedSource)

def maximumRewriteCalls : ℕ := 32

def sameProvider : Location → Location → Bool
  | .gcs _, .gcs _ | .s3 _, .s3 _ | .azure _ _, .azure _ _ => true
  | _, _ => false

def firstStage (upload : StoredUpload) (p : Promotion) : Except SourcePromotionError Stage :=
  match location upload.objectBucket, location p.destinationBucket with
  | some source, some destination =>
    if !sameProvider source destination then .error .invalidConfiguration
    else match source with
      | .gcs _ => .ok (.rewriting maximumRewriteCalls)
      | _ => .ok .reading
  | _, _ => .error .invalidConfiguration

/-! ### Rewriting -/

structure Resource where
  bucket : String
  name : String
  generation : String
  size : String
  deriving DecidableEq, Repr

structure RewriteResponse where
  done : Bool
  rewriteToken : Option String
  resource : Option Resource
  deriving DecidableEq, Repr

inductive RewriteReply where
  | noCredential
  | failed
  | preconditionFailed
  | rejected
  | answered (response : RewriteResponse)
  deriving DecidableEq, Repr

/-- Versions of one provider are numbers. -/
def numbered (o : SourceObject) : Bool :=
  match o.path.1 with
  | .gcs _ => (parseI64 o.version).map toString == some o.version
  | _ => true

/-- A completed rewrite has copied the version of this number to a destination which was
free. -/
def copyOf (objects : SourceObjects) (upload : StoredUpload) (p : Promotion)
    (number generation : ℤ) : Option SourceObject := do
  let source ← object objects upload.objectBucket upload.objectName (some (toString number))
  let destination ← location p.destinationBucket
  let copy : SourceObject :=
    ⟨(destination,p.destinationName),toString generation,source.bytes⟩
  if current objects copy.path = none ∧ numbered copy = true then some copy else none

def promotedResource (upload : StoredUpload) (p : Promotion) (resource : Resource)
    (generation : ℤ) : Except SourcePromotionError PromotedSource :=
  match parseI64 resource.size with
  | none => .error .unavailable
  | some length =>
    if resource.bucket.toList ≠
          (stripPrefix p.destinationBucket "gs://").getD p.destinationBucket.toList ∨
        resource.name ≠ p.destinationName ∨ length ≠ upload.expectedContentLength then
      .error .destinationConflict
    else .ok ⟨p.destinationBucket,resource.name,toString generation,upload.expectedDigest,length⟩

def rewriteResponse (upload : StoredUpload) (p : Promotion) (objects : SourceObjects)
    (left : ℕ) (number : ℤ) (response : RewriteResponse) : SourceObjects×StageResult :=
  if response.done then match response.resource with
    | none => (objects,.ended (.error .unavailable))
    | some resource => match (parseI64 resource.generation).filter (0 < ·) with
      | none => (objects,.ended (.error .unavailable))
      | some generation => match copyOf objects upload p number generation with
        | none => (objects,.next (.rewriting left))
        | some copy => (create objects copy,.ended (promotedResource upload p resource generation))
  else match response.rewriteToken.filter fun token => token != "" &&
      decide (token.utf8ByteSize ≤ 1024) with
    | none => (objects,.ended (.error .unavailable))
    | some _ =>
      if left ≤ 1 then (objects,.ended (.error .unavailable))
      else (objects,.next (.rewriting (left-1)))

def rewrite (upload : StoredUpload) (p : Promotion) (objects : SourceObjects) (left : ℕ)
    (reply : RewriteReply) : SourceObjects×StageResult :=
  if reply = .noCredential then (objects,.ended (.error .unavailable))
  else match parseI64 p.generation with
  | none => (objects,.ended (.error .invalidSource))
  | some number => match reply with
    | .noCredential | .failed => (objects,.ended (.error .unavailable))
    | .preconditionFailed => (objects,.next .verifying)
    | .rejected => (objects,.ended (.error .invalidSource))
    | .answered response => rewriteResponse upload p objects left number response

/-! ### Reading, storing and verifying -/

section Stream
variable (isPath : String → Bool) (sha256 : Sha256) (upload : StoredUpload) (p : Promotion)
  (objects : SourceObjects)

/-- The read of `promote_stream`. -/
def readSource (reply : GetReply) : StageResult :=
  if !isPath upload.objectName then .ended (.error .invalidSource)
  else match getOpts objects upload.objectBucket upload.objectName (some p.generation) reply with
  | .error _ => .ended (.error .unavailable)
  | .ok (found,stream) =>
    if found.version ≠ p.generation then .ended (.error .invalidSource)
    else match collectVerified sha256 upload.expectedContentLength upload.expectedDigest
        found.bytes.length stream with
      | .error .invalid => .ended (.error .invalidSource)
      | .error .unavailable => .ended (.error .unavailable)
      | .ok bytes =>
        if !isPath p.destinationName then .ended (.error .invalidSource) else .next (.storing bytes)

/-- The store gives the object a version, or the destination is taken. -/
inductive PutReply where
  | stored (version : String)
  | taken
  | failed
  deriving DecidableEq, Repr

def storeObject (bytes : Bytes) : PutReply → SourceObjects×StageResult
  | .failed => (objects,.ended (.error .unavailable))
  | .taken => (objects,.next .verifying)
  | .stored version =>
    let created := (location p.destinationBucket).elim objects fun place =>
      let o : SourceObject := ⟨(place,p.destinationName),version,bytes⟩
      if numbered o then create objects o else objects
    (created,.next .verifying)

def verifyChunk (expectedLength : ℕ) (state : sha256.Hasher×ℕ) :
    Except ObjectError Bytes → Except SourcePromotionError (sha256.Hasher×ℕ)
  | .error _ => .error .unavailable
  | .ok chunk =>
    let length := state.2+chunk.length
    if 2^64 ≤ length ∨ expectedLength < length then .error .destinationConflict
    else .ok (sha256.update state.1 chunk,length)

def verifyExisting (reply : GetReply) : Except SourcePromotionError PromotedSource :=
  if !isPath p.destinationName then .error .invalidSource
  else match getOpts objects p.destinationBucket p.destinationName none reply with
  | .error _ => .error .unavailable
  | .ok (found,stream) =>
    if !validObjectVersion found.version then .error .destinationConflict
    else if upload.expectedContentLength < 0 then .error .invalidSource
    else
      let expectedLength := upload.expectedContentLength.toNat
      if found.bytes.length ≠ expectedLength then .error .destinationConflict
      else do
        let (hasher,length) ← stream.foldlM (verifyChunk sha256 expectedLength) (sha256.new,0)
        if length ≠ expectedLength ∨
            sha256Digest (sha256.finalize hasher) ≠ upload.expectedDigest then
          .error .destinationConflict
        else .ok ⟨p.destinationBucket,p.destinationName,found.version,upload.expectedDigest,
          upload.expectedContentLength⟩

/-- The replies to the requests of a stage; the deadline of a promotion may pass. -/
structure StageReplies where
  expired : Bool
  get : GetReply
  rewrite : RewriteReply
  put : PutReply

def Stage.step (replies : StageReplies) (stage : Stage) : SourceObjects×StageResult :=
  if replies.expired then (objects,.ended (.error .unavailable))
  else match stage with
  | .rewriting left => rewrite upload p objects left replies.rewrite
  | .reading => (objects,readSource isPath sha256 upload p objects replies.get)
  | .storing bytes => storeObject p objects bytes replies.put
  | .verifying => (objects,.ended (verifyExisting isPath sha256 upload p objects replies.get))

end Stream

/-! ### Stages -/

/-- A rewrite begins for one provider only. -/
def Stage.Fits (upload : StoredUpload) : Stage → Prop
  | .rewriting _ => ∃ bucket, location upload.objectBucket = some (.gcs bucket)
  | _ => True

theorem firstStage_fits {upload : StoredUpload} {p : Promotion} {stage : Stage}
    (h : firstStage upload p = .ok stage) : stage.Fits upload := by
  rw [firstStage] at h
  split at h
  · rename_i source destination hsource _
    split at h
    · cases h
    split at h
    · rw [Except.ok.injEq] at h
      rw [← h]
      exact ⟨_,hsource⟩
    · rw [Except.ok.injEq] at h
      rw [← h]
      trivial
  · cases h

/-- A configured route always has a first stage. -/
theorem promotion_starts {promoter : GcsSourcePromoter} {scope : Scope} {upload : StoredUpload}
    {p : Promotion} (h : promoter.promotion scope upload = .ok p) :
    ∃ stage, firstStage upload p = .ok stage := by
  rw [GcsSourcePromoter.promotion] at h
  split at h
  · cases h
  split at h
  · cases h
  · rename_i route hroute
    split at h
    · cases h
    split at h
    · cases h
    · rw [Except.ok.injEq] at h
      have hcompatible := promoter.compatible route (List.mem_of_find?_eq_some hroute)
      have hfound := List.find?_some hroute
      have hbucket : route.1 = upload.objectBucket := eq_of_beq hfound
      rw [← h, firstStage, ← hbucket]
      rw [promotionCompatible] at hcompatible
      split at hcompatible
      · rename_i a b hsource hdestination
        rw [hsource, hdestination]
        exact ⟨_,rfl⟩
      · rename_i a b hsource hdestination
        rw [hsource, hdestination]
        exact ⟨_,rfl⟩
      · rename_i a c b d hsource hdestination
        rw [hsource, hdestination]
        exact ⟨_,rfl⟩
      · cases hcompatible

theorem promotion_generation {promoter : GcsSourcePromoter} {scope : Scope} {upload : StoredUpload}
    {p : Promotion} (h : promoter.promotion scope upload = .ok p) :
    upload.objectVersion = some p.generation := by
  rw [GcsSourcePromoter.promotion] at h
  split at h
  · cases h
  · rename_i generation hgeneration
    split at h
    · cases h
    split at h
    · cases h
    split at h
    · cases h
    · rw [Except.ok.injEq] at h
      rw [← h]
      exact (Option.filter_eq_some_iff.mp hgeneration).1

/-! ### What is promoted -/

/-- Paths and versions name objects, and the versions of one provider are numbers. -/
structure Versioned (objects : SourceObjects) : Prop where
  named : Named objects
  numbered : ∀ o ∈ objects, numbered o = true

theorem versioned_create {objects : SourceObjects} {o : SourceObject} (h : Versioned objects)
    (ho : numbered o = true) : Versioned (create objects o) := by
  constructor
  · exact named_create h.named
  · intro x hx
    rcases mem_create hx with rfl | hm
    · exact ho
    · exact h.numbered x hm

/-- Two contents with the digest of one. -/
def Collision (sha256 : Sha256) (bytes bytes' : Bytes) : Prop :=
  bytes ≠ bytes' ∧ sha256Digest (sha256.digest bytes) = sha256Digest (sha256.digest bytes')

/-- The promoted version is a copy of the content. -/
structure Promoted (sha256 : Sha256) (objects : SourceObjects) (upload : StoredUpload)
    (content : Bytes) (source : PromotedSource) : Prop where
  copy : ∃ found, object objects source.bucket source.objectName (some source.generation) =
    some found ∧ (found.bytes = content ∨ Collision sha256 found.bytes content)
  digest : source.digest = upload.expectedDigest
  contentLength : source.contentLength = upload.expectedContentLength

theorem Promoted.mono {sha256 : Sha256} {objects objects' : SourceObjects} {upload : StoredUpload}
    {content : Bytes} {source : PromotedSource} (h : Promoted sha256 objects upload content source)
    (hextends : Extends objects objects') : Promoted sha256 objects' upload content source := by
  obtain ⟨found,hfound,hbytes⟩ := h.copy
  exact ⟨⟨found,object_extends hextends hfound,hbytes⟩,h.digest,h.contentLength⟩

section Verify
variable {sha256 : Sha256} {expectedLength : ℕ}

theorem verify_chunks {chunks : List Bytes} {state state' : sha256.Hasher×ℕ}
    (h : (streamOf chunks).foldlM (verifyChunk sha256 expectedLength) state = .ok state') :
    state' = (sha256.update state.1 chunks.flatten,state.2+chunks.flatten.length) := by
  induction chunks generalizing state with
  | nil =>
    rw [List.flatten_nil, sha256.update_nil, List.length_nil]
    exact (Except.ok.inj h).symm
  | cons chunk chunks ih =>
    rw [ContentVerification.foldlM_streamOf] at h
    obtain ⟨next,hnext,hrest⟩ := bind_ok.mp h
    simp only [verifyChunk] at hnext
    split at hnext
    · cases hnext
    · rw [Except.ok.injEq] at hnext
      rw [ih hrest, ← hnext, List.flatten_cons, sha256.update_append, List.length_append,
        Nat.add_assoc]

theorem verifyExisting_ok {isPath : String → Bool} {upload : StoredUpload} {p : Promotion}
    {objects : SourceObjects} (hversioned : Versioned objects) {reply : GetReply}
    {source : PromotedSource} {content : Bytes}
    (hcontent : sha256Digest (sha256.digest content) = upload.expectedDigest)
    (h : verifyExisting isPath sha256 upload p objects reply = .ok source) :
    Promoted sha256 objects upload content source := by
  rw [verifyExisting] at h
  split at h
  · cases h
  split at h
  · cases h
  · rename_i found stream hget
    split at h
    · cases h
    split at h
    · cases h
    simp only at h
    split at h
    · cases h
    · obtain ⟨⟨hasher,length⟩,hread,hend⟩ := bind_ok.mp h
      obtain ⟨hobject,lengths,failure,rfl⟩ := getOpts_ok hget
      rw [foldlM_intoStream (fun _ e => ⟨.unavailable,rfl⟩) hread] at hread
      have hstate := verify_chunks hread
      rw [flatten_pieces, Prod.mk.injEq] at hstate
      split at hend
      · cases hend
      · rename_i hmatches
        rw [not_or, not_not, not_not, hstate.1] at hmatches
        rw [Except.ok.injEq] at hend
        rw [← hend]
        refine ⟨⟨found,?_,?_⟩,rfl,rfl⟩
        · obtain ⟨place,hplace,hcurrent⟩ := Option.bind_eq_some_iff.mp hobject
          refine Option.bind_eq_some_iff.mpr ⟨place,hplace,?_⟩
          have hnamed := hversioned.named found (current_mem hcurrent)
          rwa [current_path hcurrent] at hnamed
        · by_cases hsame : found.bytes = content
          · exact Or.inl hsame
          · exact Or.inr ⟨hsame,hmatches.2.trans hcontent.symm⟩

end Verify

section Step
variable {isPath : String → Bool} {sha256 : Sha256} {upload : StoredUpload} {p : Promotion}
  {objects objects' : SourceObjects} {result : StageResult}

theorem copyOf_some {number generation : ℤ} {copy : SourceObject}
    (h : copyOf objects upload p number generation = some copy) : ∃ source destination,
      object objects upload.objectBucket upload.objectName (some (toString number)) = some source ∧
      location p.destinationBucket = some destination ∧
      copy = ⟨(destination,p.destinationName),toString generation,source.bytes⟩ ∧
      current objects copy.path = none ∧ numbered copy = true := by
  obtain ⟨source,hsource,h⟩ := Option.bind_eq_some_iff.mp h
  obtain ⟨destination,hdestination,h⟩ := Option.bind_eq_some_iff.mp h
  simp only at h
  split at h
  · rename_i hfree
    rw [Option.some.injEq] at h
    rw [← h]
    exact ⟨source,destination,hsource,hdestination,rfl,hfree⟩
  · cases h

/-- The number of a pinned version names the version. -/
theorem number_names {found : SourceObject} (hversioned : Versioned objects)
    (hpinned : Pinned objects upload found)
    (hfits : ∃ bucket, location upload.objectBucket = some (.gcs bucket)) {number : ℤ}
    (hnumber : parseI64 found.version = some number) : toString number = found.version := by
  obtain ⟨bucket,hbucket⟩ := hfits
  obtain ⟨place,hplace,hversion⟩ := Option.bind_eq_some_iff.mp hpinned.object
  obtain ⟨hmem,hpath,_⟩ := version_mem hversion
  rw [hbucket, Option.some.injEq] at hplace
  have hnumbered := hversioned.numbered found hmem
  rw [numbered, hpath, ← hplace] at hnumbered
  simp only at hnumbered
  rw [hnumber, Option.map_some, beq_iff_eq, Option.some.injEq] at hnumbered
  exact hnumbered

/-- The objects are as they were, or one was created. -/
def Creates (objects objects' : SourceObjects) : Prop :=
  objects' = objects ∨ ∃ o, numbered o = true ∧ objects' = create objects o

theorem Creates.extends (h : Creates objects objects') : Extends objects objects' := by
  rcases h with rfl | ⟨o,_,rfl⟩
  · exact Extends.refl objects'
  · exact extends_create objects o

theorem Creates.versioned (h : Creates objects objects') (hversioned : Versioned objects) :
    Versioned objects' := by
  rcases h with rfl | ⟨o,ho,rfl⟩
  · exact hversioned
  · exact versioned_create hversioned ho

theorem rewriteResponse_creates (left : ℕ) (number : ℤ) (response : RewriteResponse) :
    Creates objects (rewriteResponse upload p objects left number response).1 := by
  rw [rewriteResponse]
  split
  · split
    · exact Or.inl rfl
    split
    · exact Or.inl rfl
    split
    · exact Or.inl rfl
    · rename_i copy hcopy
      obtain ⟨_,_,_,_,_,_,hnumbered⟩ := copyOf_some hcopy
      exact Or.inr ⟨copy,hnumbered,rfl⟩
  · split
    · exact Or.inl rfl
    split
    · exact Or.inl rfl
    · exact Or.inl rfl

theorem storeObject_creates (bytes : Bytes) (reply : PutReply) :
    Creates objects (storeObject p objects bytes reply).1 := by
  cases reply with
  | taken => exact Or.inl rfl
  | failed => exact Or.inl rfl
  | stored version =>
    rw [storeObject]
    cases location p.destinationBucket with
    | none => exact Or.inl rfl
    | some place =>
      simp only [Option.elim_some]
      split
      · rename_i hnumbered
        exact Or.inr ⟨_,hnumbered,rfl⟩
      · exact Or.inl rfl

/-- A step of a promotion changes no version. -/
theorem step_creates (replies : StageReplies) (stage : Stage) :
    Creates objects (stage.step isPath sha256 upload p objects replies).1 := by
  simp only [Stage.step]
  split
  · exact Or.inl rfl
  · cases stage with
    | rewriting left =>
      simp only [rewrite]
      split
      · exact Or.inl rfl
      split
      · exact Or.inl rfl
      · split
        all_goals first | exact Or.inl rfl | exact rewriteResponse_creates _ _ _
    | reading => exact Or.inl rfl
    | storing bytes => exact storeObject_creates bytes replies.put
    | verifying => exact Or.inl rfl

theorem rewriteResponse_next {left : ℕ} {number : ℤ} {response : RewriteResponse} {stage : Stage}
    (h : (rewriteResponse upload p objects left number response).2 = .next stage) :
    ∃ left', stage = .rewriting left' := by
  rw [rewriteResponse] at h
  split at h
  · split at h
    · cases h
    split at h
    · cases h
    split at h
    · cases h
      exact ⟨left,rfl⟩
    · cases h
  · split at h
    · cases h
    split at h
    · cases h
    · cases h
      exact ⟨left-1,rfl⟩

/-- Only a rewrite goes on with a rewrite. -/
theorem step_fits {replies : StageReplies} {stage stage' : Stage} (hfits : stage.Fits upload)
    (h : (stage.step isPath sha256 upload p objects replies).2 = .next stage') :
    stage'.Fits upload := by
  simp only [Stage.step] at h
  split at h
  · cases h
  · cases stage with
    | rewriting left =>
      simp only [rewrite] at h
      split at h
      · cases h
      split at h
      · cases h
      · split at h
        · cases h
        · cases h
        · cases h
          trivial
        · cases h
        · obtain ⟨left',rfl⟩ := rewriteResponse_next h
          exact hfits
    | reading =>
      simp only [readSource] at h
      split at h
      · cases h
      split at h
      · cases h
      split at h
      · cases h
      split at h
      · cases h
      · cases h
      split at h
      · cases h
      · cases h
        trivial
    | storing bytes =>
      simp only [storeObject] at h
      split at h
      · cases h
      · cases h
        trivial
      · cases h
        trivial
    | verifying => cases h

theorem promotedResource_ok {resource : Resource} {generation : ℤ} {source : PromotedSource}
    (h : promotedResource upload p resource generation = .ok source) :
    source = ⟨p.destinationBucket,p.destinationName,toString generation,upload.expectedDigest,
      upload.expectedContentLength⟩ := by
  rw [promotedResource] at h
  split at h
  · cases h
  split at h
  · cases h
  · rename_i hmatches
    rw [not_or, not_or, not_not, not_not, not_not] at hmatches
    rw [Except.ok.injEq] at h
    rw [← h, hmatches.2.1, hmatches.2.2]

/-- A rewrite which is done has copied the version of the number. -/
theorem rewriteResponse_promoted {left : ℕ} {number : ℤ} {response : RewriteResponse}
    {found : SourceObject} {source : PromotedSource}
    (hfound : object objects upload.objectBucket upload.objectName (some (toString number)) =
      some found)
    (h : (rewriteResponse upload p objects left number response).2 = .ended (.ok source)) :
    Promoted sha256 (rewriteResponse upload p objects left number response).1 upload found.bytes
      source := by
  rw [rewriteResponse] at h ⊢
  split at h
  · rename_i hdone
    rw [if_pos hdone]
    split at h
    · cases h
    rename_i resource hresource
    split at h
    · cases h
    rename_i generation hgeneration
    split at h
    · cases h
    · rename_i copy hcopy
      rw [StageResult.ended.injEq] at h
      obtain ⟨original,destination,horiginal,hdestination,rfl,hfree,_⟩ := copyOf_some hcopy
      rw [hfound, Option.some.injEq] at horiginal
      rw [promotedResource_ok h, horiginal]
      refine ⟨⟨⟨(destination,p.destinationName),toString generation,original.bytes⟩,
        Option.bind_eq_some_iff.mpr ⟨destination,hdestination,?_⟩,Or.inl rfl⟩,rfl,rfl⟩
      exact version_create hfree
  · split at h
    · cases h
    split at h
    · cases h
    · cases h

/-- What a promotion ends with is a copy of the version which the upload names. -/
theorem step_promoted {replies : StageReplies} {stage : Stage} {found : SourceObject}
    {source : PromotedSource} (hversioned : Versioned objects)
    (hpinned : Pinned objects upload found)
    (hgeneration : upload.objectVersion = some p.generation) (hfits : stage.Fits upload)
    (hdigest : sha256Digest (sha256.digest found.bytes) = upload.expectedDigest)
    (h : (stage.step isPath sha256 upload p objects replies).2 = .ended (.ok source)) :
    Promoted sha256 (stage.step isPath sha256 upload p objects replies).1 upload found.bytes
      source := by
  simp only [Stage.step] at h ⊢
  split at h
  · cases h
  · rename_i hlive
    rw [if_neg hlive]
    cases stage with
    | rewriting left =>
      simp only [rewrite] at h ⊢
      split at h
      · cases h
      rename_i hcredential
      rw [if_neg hcredential]
      split at h
      · cases h
      · rename_i number hnumber
        have hversion : p.generation = found.version :=
          Option.some.inj (hgeneration.symm.trans hpinned.version)
        have hnames := number_names hversioned hpinned hfits (hversion ▸ hnumber)
        split at h
        · cases h
        · cases h
        · cases h
        · cases h
        · exact rewriteResponse_promoted (hnames.symm ▸ hpinned.object) h
    | reading =>
      simp only [readSource] at h
      split at h
      · cases h
      split at h
      · cases h
      split at h
      · cases h
      split at h
      · cases h
      · cases h
      split at h
      · cases h
      · cases h
    | storing bytes =>
      simp only [storeObject] at h
      split at h
      · cases h
      · cases h
      · cases h
    | verifying =>
      rw [StageResult.ended.injEq] at h
      exact verifyExisting_ok hversioned hdigest h

end Step

end DocumentIntelligence.SourcePromotion
