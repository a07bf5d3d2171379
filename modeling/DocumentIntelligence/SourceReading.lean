import DocumentIntelligence.ContentVerification
import DocumentIntelligence.MalwareScan
import DocumentIntelligence.StorageLocations

/-!
# The source of an upload

The malware inspector and the document reader ask a bucket for the version of an object
which the upload names. An object comes in pieces, and its stream may fail; a version
without a failure has come whole.
-/

set_option autoImplicit false

namespace DocumentIntelligence.SourceReading
open BigEndian ObjectStorage
open Uploads (StoredUpload)
open Schema (validObjectVersion)
open StorageLocations (Location location)
open ContentVerification (Sha256 sha256Digest ObjectError ObjectStream streamOf maximumUploadBytes
  DocumentReadError mapReadError collectVerified collectChunk)
open MalwareScan (ClamdScanner Connection received contents)
open Table (bind_ok)

/-- A bucket of a provider and a name in it. -/
abbrev SourcePath := Location×String

abbrev SourceObject := Stored SourcePath String
abbrev SourceObjects := Objects SourcePath String

/-- A request is refused, or the object comes in pieces of these lengths, with a failure
after some of them. -/
inductive GetReply where
  | refused (error : ObjectError)
  | served (lengths : List ℕ) (failure : Option (ℕ×ObjectError))
  deriving DecidableEq, Repr

def pieces : List ℕ → Bytes → List Bytes
  | [], bytes => [bytes]
  | n::lengths, bytes => bytes.take n::pieces lengths (bytes.drop n)

def intoStream (bytes : Bytes) (lengths : List ℕ) : Option (ℕ×ObjectError) → ObjectStream
  | none => streamOf (pieces lengths bytes)
  | some (n,e) => streamOf ((pieces lengths bytes).take n)++[.error e]

def GetReply.result : GetReply → Option SourceObject →
    Except ObjectError (SourceObject×ObjectStream)
  | .refused e, _ => .error e
  | .served _ _, none => .error .notFound
  | .served lengths failure, some object => .ok (object,intoStream object.bytes lengths failure)

/-- A version of the object, or the newest one where none is named. -/
def object (objects : SourceObjects) (bucket name : String) (generation : Option String) :
    Option SourceObject :=
  (location bucket).bind fun place => match generation with
    | some generation => version objects (place,name) generation
    | none => current objects (place,name)

def getOpts (objects : SourceObjects) (bucket name : String) (generation : Option String)
    (reply : GetReply) : Except ObjectError (SourceObject×ObjectStream) :=
  reply.result (object objects bucket name generation)

/-! ### The malware inspector -/

inductive UploadInspectionError where
  | infected
  | invalid
  | unavailable
  deriving DecidableEq, Repr

def mapInspectionObjectError : ObjectError → UploadInspectionError
  | .notFound | .precondition => .invalid
  | .other => .unavailable

structure GcsUploadMalwareInspector where
  buckets : List String
  scanner : ClamdScanner

/-- An object which was found clean, with the frames which the scanner has received. -/
structure CleanScan where
  object : SourceObject
  received : Option (List Bytes)
  deriving DecidableEq, Repr

def scanSource (stream : ObjectStream) : MalwareScan.Source := stream.map Except.toOption

def GcsUploadMalwareInspector.inspect (isPath : String → Bool)
    (inspector : GcsUploadMalwareInspector) (upload : StoredUpload) (objects : SourceObjects)
    (reply : GetReply) (connection : Connection) : Except UploadInspectionError CleanScan :=
  if upload.state ≠ .inspecting then .error .invalid
  else match upload.objectVersion.filter validObjectVersion with
  | none => .error .invalid
  | some generation =>
    if !inspector.buckets.contains upload.objectBucket || !isPath upload.objectName then
      .error .invalid
    else match getOpts objects upload.objectBucket upload.objectName (some generation) reply with
    | .error e => .error (mapInspectionObjectError e)
    | .ok (object,stream) =>
      if upload.expectedContentLength < 0 then .error .invalid
      else if object.version ≠ generation ∨
          object.bytes.length ≠ upload.expectedContentLength.toNat ∨
          maximumUploadBytes < object.bytes.length then .error .invalid
      else
        let (outcome,sent) := inspector.scanner.scan connection (scanSource stream)
        match outcome with
        | .ok .clean => .ok ⟨object,received sent⟩
        | .ok .infected => .error .infected
        | .error .limitExceeded => .error .invalid
        | .error _ => .error .unavailable

/-! ### The document reader -/

structure GcsUploadDocumentReader where
  buckets : List String

/-- The content, with the object which was read. -/
def GcsUploadDocumentReader.read (isPath : String → Bool) (sha256 : Sha256)
    (reader : GcsUploadDocumentReader) (upload : StoredUpload) (objects : SourceObjects)
    (reply : GetReply) : Except DocumentReadError (SourceObject×Bytes) :=
  if upload.state ≠ .inspecting then .error .invalid
  else match upload.objectVersion.filter validObjectVersion with
  | none => .error .invalid
  | some generation =>
    if !reader.buckets.contains upload.objectBucket || !isPath upload.objectName then
      .error .invalid
    else match getOpts objects upload.objectBucket upload.objectName (some generation) reply with
    | .error e => .error (mapReadError e)
    | .ok (object,stream) =>
      if object.version ≠ generation then .error .invalid
      else (collectVerified sha256 upload.expectedContentLength upload.expectedDigest
        object.bytes.length stream).map fun bytes => (object,bytes)

/-! ### Streams of an object -/

theorem flatten_pieces (lengths : List ℕ) (bytes : Bytes) :
    (pieces lengths bytes).flatten = bytes := by
  induction lengths generalizing bytes with
  | nil => exact List.append_nil bytes
  | cons n lengths ih => rw [pieces, List.flatten_cons, ih, List.take_append_drop]

/-- A loop which an error ends has read a stream without a failure. -/
theorem foldlM_intoStream {α ε : Type} {f : α → Except ObjectError Bytes → Except ε α}
    (hf : ∀ a e, ∃ e', f a (.error e) = .error e') {bytes : Bytes} {lengths : List ℕ}
    {failure : Option (ℕ×ObjectError)} {a a' : α}
    (h : (intoStream bytes lengths failure).foldlM f a = .ok a') :
    intoStream bytes lengths failure = streamOf (pieces lengths bytes) := by
  cases failure with
  | none => rfl
  | some failure =>
    rw [intoStream, List.foldlM_append] at h
    obtain ⟨b,_,hlast⟩ := bind_ok.mp h
    obtain ⟨e',herror⟩ := hf b failure.2
    rw [List.foldlM_cons, herror] at hlast
    cases hlast

theorem contents_streamOf (chunks : List Bytes) :
    contents (scanSource (streamOf chunks)) = chunks.flatten := by
  induction chunks with
  | nil => rfl
  | cons chunk chunks ih =>
    rw [List.flatten_cons, ← ih]
    rfl

/-- A source without a failure is the whole object. -/
theorem contents_whole {bytes : Bytes} {lengths : List ℕ} {failure : Option (ℕ×ObjectError)}
    (h : none ∉ scanSource (intoStream bytes lengths failure)) :
    contents (scanSource (intoStream bytes lengths failure)) = bytes := by
  cases failure with
  | none => rw [intoStream, contents_streamOf, flatten_pieces]
  | some failure =>
    apply absurd _ h
    rw [intoStream, scanSource, List.map_append]
    exact List.mem_append_right _ List.mem_cons_self

theorem getOpts_ok {objects : SourceObjects} {bucket name : String} {generation : Option String}
    {reply : GetReply} {found : SourceObject} {stream : ObjectStream}
    (h : getOpts objects bucket name generation reply = .ok (found,stream)) :
    object objects bucket name generation = some found ∧
      ∃ lengths failure, stream = intoStream found.bytes lengths failure := by
  rw [getOpts] at h
  cases reply with
  | refused e => cases h
  | served lengths failure =>
    cases hobject : object objects bucket name generation with
    | none =>
      rw [hobject] at h
      cases h
    | some o =>
      rw [hobject, GetReply.result, Except.ok.injEq, Prod.mk.injEq] at h
      rw [← h.1, ← h.2]
      exact ⟨rfl,lengths,failure,rfl⟩

/-- The version of the object which the upload names. -/
structure Pinned (objects : SourceObjects) (upload : StoredUpload) (found : SourceObject) :
    Prop where
  version : upload.objectVersion = some found.version
  object : object objects upload.objectBucket upload.objectName (some found.version) = some found

/-- A version which a bucket has is not changed. -/
theorem object_extends {objects objects' : SourceObjects} (h : Extends objects objects')
    {bucket name generation : String} {found : SourceObject}
    (hobject : object objects bucket name (some generation) = some found) :
    object objects' bucket name (some generation) = some found := by
  obtain ⟨place,hplace,hversion⟩ := Option.bind_eq_some_iff.mp hobject
  exact Option.bind_eq_some_iff.mpr ⟨place,hplace,h _ _ _ hversion⟩

theorem Pinned.mono {objects objects' : SourceObjects} {upload : StoredUpload}
    {found : SourceObject} (h : Pinned objects upload found) (hextends : Extends objects objects') :
    Pinned objects' upload found :=
  ⟨h.version,object_extends hextends h.object⟩

theorem Pinned.unique {objects : SourceObjects} {upload : StoredUpload}
    {found found' : SourceObject} (h : Pinned objects upload found)
    (h' : Pinned objects upload found') : found = found' := by
  have hversion : found'.version = found.version :=
    Option.some.inj (h'.version.symm.trans h.version)
  have hobject := h'.object
  rw [hversion, h.object, Option.some.injEq] at hobject
  exact hobject

/-- What is collected of an object is all of it. -/
theorem collect_whole {sha256 : Sha256} {upload : StoredUpload} {size : ℕ} {bytes content : Bytes}
    {lengths : List ℕ} {failure : Option (ℕ×ObjectError)}
    (h : collectVerified sha256 upload.expectedContentLength upload.expectedDigest size
      (intoStream bytes lengths failure) = .ok content) :
    content = bytes ∧ sha256Digest (sha256.digest content) = upload.expectedDigest := by
  have hstream : intoStream bytes lengths failure = streamOf (pieces lengths bytes) := by
    simp only [collectVerified] at h
    split at h
    · cases h
    split at h
    · cases h
    · obtain ⟨read,hread,_⟩ := bind_ok.mp h
      exact foldlM_intoStream (fun _ e => ⟨mapReadError e,rfl⟩) hread
  rw [hstream] at h
  obtain ⟨_,_,hdigest,hcontent⟩ := (ContentVerification.collectVerified_ok sha256).mp h
  rw [← hcontent] at hdigest
  rw [flatten_pieces] at hcontent
  exact ⟨hcontent,hdigest⟩

/-! ### What is inspected and read -/

section Outcomes
variable {isPath : String → Bool} {upload : StoredUpload} {objects : SourceObjects}
  {reply : GetReply}

theorem scan_whole {scanner : ClamdScanner} {connection : Connection} {source : MalwareScan.Source}
    (h : (scanner.scan connection source).1 = .ok .clean) : none ∉ source ∧
      ∃ frames, received (scanner.scan connection source).2 = some frames ∧
        frames.flatten = contents source := by
  obtain ⟨frames,hsends⟩ := MalwareScan.sendChunks_sends scanner source 0 (Nat.zero_le _)
  by_cases haccepted : scanner.Accepted source
  · obtain ⟨hreceived,_⟩ := MalwareScan.scan_clean hsends haccepted h
    exact ⟨haccepted.1,frames,hreceived,(hsends.taken (MalwareScan.accepted_takes haccepted)).1⟩
  · obtain ⟨e,herror⟩ := (MalwareScan.scan_refused hsends haccepted connection).1
    rw [herror] at h
    cases h

/-- The scanner has had the whole of the version which the upload names. -/
theorem inspect_ok {inspector : GcsUploadMalwareInspector} {connection : Connection}
    {scan : CleanScan} (h : inspector.inspect isPath upload objects reply connection = .ok scan) :
    Pinned objects upload scan.object ∧
      ∃ frames, scan.received = some frames ∧ frames.flatten = scan.object.bytes := by
  rw [GcsUploadMalwareInspector.inspect] at h
  split at h
  · cases h
  split at h
  · cases h
  · rename_i generation hgeneration
    split at h
    · cases h
    split at h
    · cases h
    · rename_i found stream hget
      split at h
      · cases h
      split at h
      · cases h
      · rename_i hmatches
        rw [not_or, not_not] at hmatches
        obtain ⟨hobject,lengths,failure,rfl⟩ := getOpts_ok hget
        have hversion : upload.objectVersion = some generation :=
          (Option.filter_eq_some_iff.mp hgeneration).1
        simp only at h
        split at h
        · rename_i hclean
          rw [Except.ok.injEq] at h
          obtain ⟨hwhole,frames,hframes,hcontent⟩ := scan_whole hclean
          rw [← h]
          refine ⟨⟨?_,?_⟩,frames,hframes,?_⟩
          · rw [hmatches.1, hversion]
          · rw [hmatches.1, hobject]
          · rw [hcontent, contents_whole hwhole]
        all_goals cases h

/-- What is read is the version which the upload names, and it has the digest. -/
theorem read_ok {sha256 : Sha256} {reader : GcsUploadDocumentReader} {found : SourceObject}
    {bytes : Bytes} (h : reader.read isPath sha256 upload objects reply = .ok (found,bytes)) :
    Pinned objects upload found ∧ bytes = found.bytes ∧
      sha256Digest (sha256.digest bytes) = upload.expectedDigest := by
  rw [GcsUploadDocumentReader.read] at h
  split at h
  · cases h
  split at h
  · cases h
  · rename_i generation hgeneration
    split at h
    · cases h
    split at h
    · cases h
    · rename_i object stream hget
      split at h
      · cases h
      · rename_i hmatches
        rw [not_not] at hmatches
        obtain ⟨hobject,lengths,failure,rfl⟩ := getOpts_ok hget
        have hversion : upload.objectVersion = some generation :=
          (Option.filter_eq_some_iff.mp hgeneration).1
        cases hcollect : collectVerified sha256 upload.expectedContentLength upload.expectedDigest
            object.bytes.length (intoStream object.bytes lengths failure) with
        | error e =>
          rw [hcollect] at h
          cases h
        | ok content =>
          rw [hcollect, Except.map, Except.ok.injEq, Prod.mk.injEq] at h
          obtain ⟨rfl,rfl⟩ := h
          obtain ⟨hcontent,hdigest⟩ := collect_whole hcollect
          exact ⟨⟨hmatches.symm ▸ hversion,hmatches.symm ▸ hobject⟩,hcontent,hdigest⟩

end Outcomes

end DocumentIntelligence.SourceReading
