import DocumentIntelligence.DocumentPages
import DocumentIntelligence.ObjectStorage
import DocumentIntelligence.PageRunner
import DocumentIntelligence.StorageLocations

/-!
# Page artifacts

The processor of a page recognizes it and writes it as an object, whose name is
that of the attempt. The object is only created, never overwritten; what is then
read back has to be what was to be written.
-/

set_option autoImplicit false

namespace DocumentIntelligence.PageArtifacts
open Identifiers hiding Error
open Schema PageWorkflowStore PageRunner DocumentPages ObjectStorage StorageLocations
open PageCheckpoint (PageTask activityKey)
open Jobs (maximumResultBytes)

inductive PageArtifactWriteError where
  | invalid
  | conflict
  | unavailable
  deriving DecidableEq, Repr

inductive PageRecognitionError where
  | rateLimited
  | retryable
  | permanent
  deriving DecidableEq, Repr

/-- What an execution meets: the recognizer's answers, and for each task the
provider's replies and the version which it gives to an object written. -/
structure Services where
  recognize : PageTask → Except PageRecognitionError DocumentPage
  reply : PageTask → StorageReply
  version : PageTask → Option String

/-- `new` admits one route for each product, to distinct buckets. -/
structure GcsPageArtifactWriter where
  routes : List (ProductId × String)
  valid : (routes.all fun route => isBucketName route.2) = true
  distinct : (routes.map (·.1)).Nodup ∧ (routes.map (·.2)).Nodup

def GcsPageArtifactWriter.bucket (writer : GcsPageArtifactWriter) (productId : ProductId) :
    Option String :=
  (writer.routes.find? (·.1 == productId)).map (·.2)

def objectName (scope : Scope) (jobId : JobId) (page attempt : ℕ) : String :=
  "products/" ++ scope.productId.asStr ++ "/tenants/" ++ scope.tenantId.asStr ++ "/pages/" ++
    jobId.asStr ++ "/" ++ toString page ++ "/attempt-" ++ toString attempt ++ ".json"

section Write
variable (formatF64 : Float → String) (sha256 : List UInt8 → Vector UInt8 32)
  (writer : GcsPageArtifactWriter) (services : Services) (scope : Scope) (jobId : JobId)

/-- The end of `write_inner`: what was read back, against what was to be written. -/
def readBack (task : PageTask) (bucket : String) (bytes : List UInt8) :
    Option StoredObject → Except PageArtifactWriteError StoredPageArtifact
  | none => .error .unavailable
  | some stored => match stored.version.filter validObjectVersion with
    | none => .error .unavailable
    | some generation =>
      if stored.bytes.length ≠ bytes.length then .error .conflict
      else if stored.bytes ≠ bytes ∨
          sha256Digest sha256 stored.bytes ≠ sha256Digest sha256 bytes then .error .conflict
      else .ok {
        page := task.page
        attempt := task.attempt
        activityKey := task.activityKey
        objectBucket := bucket
        objectName := objectName scope jobId task.page task.attempt
        objectVersion := generation
        objectDigest := sha256Digest sha256 bytes
        contentLength := bytes.length }

def write (objects : StoredObjects) (task : PageTask) (page : DocumentPage) :
    Except PageArtifactWriteError StoredPageArtifact × StoredObjects :=
  if page.page ≠ task.page ∨ task.activityKey ≠ activityKey jobId task.page task.attempt then
    (.error .invalid, objects)
  else match writer.bucket scope.productId with
  | none => (.error .invalid, objects)
  | some bucket =>
    let bytes := toVec formatF64 page
    if bytes = [] ∨ maximumResultBytes < bytes.length then (.error .invalid, objects)
    else
      let path := (bucket,objectName scope jobId task.page task.attempt)
      let written := create objects ⟨path,services.version task,bytes⟩
      match services.reply task with
      | .refused => (.error .unavailable, objects)
      | .lost => (.error .unavailable, written)
      | .answered => (readBack sha256 scope jobId task bucket bytes (current written path), written)

def PageRecognitionError.processError : PageRecognitionError → PageProcessError
  | .retryable => .retryable
  | .rateLimited => .rateLimited
  | .permanent => .permanent

def PageArtifactWriteError.processError : PageArtifactWriteError → PageProcessError
  | .unavailable => .retryable
  | .invalid | .conflict => .permanent

/-- `ArtifactPageProcessor::process` -/
def process (objects : StoredObjects) (task : PageTask) : PageOutcome × StoredObjects :=
  if task.activityKey ≠ activityKey jobId task.page task.attempt then (.error .permanent, objects)
  else match services.recognize task with
  | .error e => (.error e.processError, objects)
  | .ok page =>
    if page.page ≠ task.page then (.error .permanent, objects)
    else match write formatF64 sha256 writer services scope jobId objects task page with
      | (.error e, objects) => (.error e.processError, objects)
      | (.ok artifact, objects) =>
        if artifact.page ≠ task.page ∨ artifact.attempt ≠ task.attempt ∨
            artifact.activityKey ≠ task.activityKey then (.error .permanent, objects)
        else (.ok artifact, objects)

end Write

/-! ### The artifacts -/

theorem activityKey_size (jobId : JobId) {page attempt : ℕ} (hpage : page ≤ 1000)
    (hattempt : attempt ≤ 1000) : (activityKey jobId page attempt).utf8ByteSize ≤ 160 := by
  have hjob := (validatedId_json jobId.valid (by decide)).2
  have hpage := Json.decimal_size hpage
  have hattempt := Json.decimal_size hattempt
  have hparts : "ocr-job-".utf8ByteSize = 8 ∧ "-page-".utf8ByteSize = 6 ∧
      "-attempt-".utf8ByteSize = 9 ∧ "job_".utf8ByteSize = 4 := by decide
  simp only [hparts] at hjob
  simp only [activityKey, String.utf8ByteSize_append, hparts]
  clear hparts
  omega

theorem objectName_size (scope : Scope) (jobId : JobId) {page attempt : ℕ} (hpage : page ≤ 1000)
    (hattempt : attempt ≤ 1000) : 1 ≤ (objectName scope jobId page attempt).utf8ByteSize ∧
      (objectName scope jobId page attempt).utf8ByteSize ≤ 1024 := by
  have hjob := (validatedId_json jobId.valid (by decide)).2
  have htenant := (validatedId_json scope.tenantId.valid (by decide)).2
  have hproduct := (productId_json scope.productId).2
  have hpage := Json.decimal_size hpage
  have hattempt := Json.decimal_size hattempt
  have hjobPrefix : "job_".utf8ByteSize = 4 := rfl
  have htenantPrefix : "ten_".utf8ByteSize = 4 := rfl
  have hsize : (objectName scope jobId page attempt).utf8ByteSize =
      9+scope.productId.asStr.utf8ByteSize+9+scope.tenantId.asStr.utf8ByteSize+7+
        jobId.asStr.utf8ByteSize+1+(toString page).utf8ByteSize+9+
        (toString attempt).utf8ByteSize+5 := by
    unfold objectName
    simp only [String.utf8ByteSize_append]
    rfl
  rw [hsize]
  omega

theorem activityKey_ne_empty (jobId : JobId) (page attempt : ℕ) :
    activityKey jobId page attempt ≠ "" := by
  intro hempty
  have hsize := congrArg String.utf8ByteSize hempty
  have hstart : "ocr-job-".utf8ByteSize = 8 := rfl
  simp only [activityKey, String.utf8ByteSize_append, hstart, String.utf8ByteSize_empty] at hsize
  omega

theorem ne_empty_of_size {value : String} (h : 1 ≤ value.utf8ByteSize) : value ≠ "" := by
  rintro rfl
  exact absurd h (by decide)

section Spec
variable {formatF64 : Float → String} {sha256 : List UInt8 → Vector UInt8 32}
  {writer : GcsPageArtifactWriter} {services : Services} {scope : Scope} {jobId : JobId}
  {objects : StoredObjects} {task : PageTask} {page : DocumentPage} {bucket : String}

theorem bucket_valid (h : writer.bucket scope.productId = some bucket) :
    isBucketName bucket = true := by
  obtain ⟨route,hfind,rfl⟩ := Option.map_eq_some_iff.mp h
  exact List.all_eq_true.mp writer.valid route (List.mem_of_find?_eq_some hfind)

/-- What the writer reads back it returns for the task. -/
theorem readBack_ok {bytes : List UInt8} {stored : Option StoredObject} {artifact : StoredPageArtifact}
    (h : readBack sha256 scope jobId task bucket bytes stored = .ok artifact) :
    ∃ generation, validObjectVersion generation = true ∧ artifact =
      ⟨task.page,task.attempt,task.activityKey,bucket,objectName scope jobId task.page task.attempt,
        generation,sha256Digest sha256 bytes,bytes.length⟩ := by
  unfold readBack at h
  cases stored with
  | none => cases h
  | some stored =>
    cases hversion : stored.version.filter validObjectVersion with
    | none => simp [hversion] at h
    | some generation =>
      simp only [hversion] at h
      split at h
      · cases h
      · split at h
        · cases h
        · rw [Except.ok.injEq] at h
          rw [Option.filter_eq_some_iff] at hversion
          exact ⟨generation,hversion.2,h.symm⟩

theorem write_ok {artifact : StoredPageArtifact}
    (h : (write formatF64 sha256 writer services scope jobId objects task page).1 = .ok artifact) :
    ∃ bucket generation bytes, writer.bucket scope.productId = some bucket ∧
      validObjectVersion generation = true ∧ bytes ≠ [] ∧ (bytes.length : ℤ) ≤ maximumResultBytes ∧
      artifact = ⟨task.page,task.attempt,task.activityKey,bucket,
        objectName scope jobId task.page task.attempt,generation,sha256Digest sha256 bytes,
        bytes.length⟩ := by
  unfold write at h
  split at h
  · cases h
  · cases hbucket : writer.bucket scope.productId with
    | none => simp [hbucket] at h
    | some bucket =>
      simp only [hbucket] at h
      split at h
      · cases h
      · rename_i hbytes
        push Not at hbytes
        cases hreply : services.reply task with
        | refused => simp [hreply] at h
        | lost => simp [hreply] at h
        | answered =>
          simp only [hreply] at h
          obtain ⟨generation,hvalid,heq⟩ := readBack_ok h
          exact ⟨bucket,generation,toVec formatF64 page,rfl,hvalid,hbytes.1,hbytes.2,heq⟩

/-- The artifacts of the processor pass the validation of the store. -/
theorem process_written (hclaimed : ClaimedTask jobId task) {artifact : StoredPageArtifact}
    (h : (process formatF64 sha256 writer services scope jobId objects task).1 = .ok artifact) :
    WrittenFor task artifact := by
  have hwrite : ∃ page,
      (write formatF64 sha256 writer services scope jobId objects task page).1 = .ok artifact := by
    unfold process at h
    split at h
    · cases h
    · cases hrecognized : services.recognize task with
      | error e => simp [hrecognized] at h
      | ok page =>
        simp only [hrecognized] at h
        split at h
        · cases h
        · refine ⟨page,?_⟩
          rcases hw : write formatF64 sha256 writer services scope jobId objects task page
            with ⟨e | a,objects'⟩
          · simp [hw] at h
          · simp only [hw] at h
            split at h
            · cases h
            · rw [Except.ok.injEq] at h
              rw [h]
  obtain ⟨page,hwrite⟩ := hwrite
  obtain ⟨bucket,generation,bytes,hbucket,hversion,hbytes,hlength,rfl⟩ := write_ok hwrite
  have hname := isBucketName_length (bucket_valid hbucket)
  have hpages : task.page ≤ 1000 := hclaimed.page.2
  have hattempts : task.attempt ≤ 10 := hclaimed.attempt.2
  have hkey := activityKey_size jobId hpages (hattempts.trans (by decide))
  have hobject := objectName_size scope jobId hpages (hattempts.trans (by decide))
  have hpos : 1 ≤ bytes.length := List.length_pos_iff.mpr hbytes
  have hbucketSize := Json.length_le_size bucket
  refine ⟨rfl,?_,hname.1⟩
  simp only [validatePageArtifact, Bool.and_eq_true, decide_eq_true_eq, hversion,
    validDigest, sha256Digest_valid, hclaimed.key, bne_iff_ne]
  refine ⟨⟨⟨⟨⟨⟨⟨⟨⟨hclaimed.page,hclaimed.attempt.1,hattempts⟩,?_⟩,hkey⟩,?_⟩,?_⟩,hobject.2⟩,trivial⟩,
    ?_⟩,trivial⟩
  · exact activityKey_ne_empty jobId task.page task.attempt
  · omega
  · exact ne_empty_of_size hobject.1
  · exact ⟨by omega,hlength⟩

end Spec

/-! ### The objects -/

section Effect
variable (formatF64 : Float → String) (sha256 : List UInt8 → Vector UInt8 32)
  (writer : GcsPageArtifactWriter) (services : Services) (scope : Scope) (jobId : JobId)
  (task : PageTask) {objects : StoredObjects}

/-- What an execution of a task does to the objects: nothing, or the creation of
the object of its attempt with the text of a page. -/
theorem process_objects (objects : StoredObjects) :
    (process formatF64 sha256 writer services scope jobId objects task).2 = objects ∨
      ∃ page bucket, services.recognize task = .ok page ∧ page.page = task.page ∧
        writer.bucket scope.productId = some bucket ∧ toVec formatF64 page ≠ [] ∧
        ((toVec formatF64 page).length : ℤ) ≤ maximumResultBytes ∧
        (process formatF64 sha256 writer services scope jobId objects task).2 = create objects
          ⟨(bucket,objectName scope jobId task.page task.attempt),services.version task,
            toVec formatF64 page⟩ := by
  unfold process
  split
  · exact Or.inl rfl
  · cases hrecognized : services.recognize task with
    | error e => exact Or.inl rfl
    | ok page =>
      simp only
      split
      · exact Or.inl rfl
      · rename_i hnumber
        have hwrite : (write formatF64 sha256 writer services scope jobId objects task page).2 =
              objects ∨ ∃ bucket, writer.bucket scope.productId = some bucket ∧
            toVec formatF64 page ≠ [] ∧
            ((toVec formatF64 page).length : ℤ) ≤ maximumResultBytes ∧
            (write formatF64 sha256 writer services scope jobId objects task page).2 =
              create objects ⟨(bucket,objectName scope jobId task.page task.attempt),
                services.version task,toVec formatF64 page⟩ := by
          unfold write
          split
          · exact Or.inl rfl
          · cases hbucket : writer.bucket scope.productId with
            | none => exact Or.inl rfl
            | some bucket =>
              simp only
              split
              · exact Or.inl rfl
              · rename_i hbytes
                push Not at hbytes
                cases services.reply task with
                | refused => exact Or.inl rfl
                | lost => exact Or.inr ⟨bucket,rfl,hbytes.1,hbytes.2,rfl⟩
                | answered => exact Or.inr ⟨bucket,rfl,hbytes.1,hbytes.2,rfl⟩
        have hsnd : (match write formatF64 sha256 writer services scope jobId objects task page with
            | (.error e, objects) => (.error e.processError, objects)
            | (.ok artifact, objects) =>
              if artifact.page ≠ task.page ∨ artifact.attempt ≠ task.attempt ∨
                  artifact.activityKey ≠ task.activityKey then (.error .permanent, objects)
              else (.ok artifact, objects) : PageOutcome × StoredObjects).2 =
            (write formatF64 sha256 writer services scope jobId objects task page).2 := by
          rcases write formatF64 sha256 writer services scope jobId objects task page
            with ⟨e | a,objects'⟩
          · rfl
          · simp only
            split <;> rfl
        rw [hsnd]
        rcases hwrite with hkept | ⟨bucket,hbucket,hne,hsize,hcreate⟩
        · exact Or.inl hkept
        · exact Or.inr ⟨page,bucket,rfl,not_not.mp hnumber,hbucket,hne,hsize,hcreate⟩

/-- Objects stay as they were written. -/
theorem process_keeps {path : ObjectPath} {o : StoredObject} (h : current objects path = some o) :
    current (process formatF64 sha256 writer services scope jobId objects task).2 path = some o := by
  rcases process_objects formatF64 sha256 writer services scope jobId task objects with heq | ⟨page,bucket,_,_,_,_,_,heq⟩
  · rw [heq, h]
  · rw [heq, current_create_of_some h]

/-- An object which an execution of a task created holds the page which was
recognized for the task. -/
theorem process_creates {path : ObjectPath} {o : StoredObject} (hnone : current objects path = none)
    (h : current (process formatF64 sha256 writer services scope jobId objects task).2 path = some o) :
    path.2 = objectName scope jobId task.page task.attempt ∧ ∃ page,
      services.recognize task = .ok page ∧ page.page = task.page ∧ o.bytes = toVec formatF64 page ∧
        o.bytes ≠ [] ∧ (o.bytes.length : ℤ) ≤ maximumResultBytes := by
  rcases process_objects formatF64 sha256 writer services scope jobId task objects with heq | ⟨page,bucket,hrecognized,hnumber,_,hne,hsize,heq⟩
  · rw [heq, hnone] at h
    cases h
  · rw [heq, current_create, hnone] at h
    split at h
    · rename_i hpath
      rw [Option.getD_none, Option.some.injEq] at h
      rw [← h, ← hpath]
      exact ⟨rfl,page,hrecognized,hnumber,rfl,hne,hsize⟩
    · cases h

end Effect

theorem objectName_page {scope : Scope} {jobId : JobId} {page page' attempt attempt' : ℕ}
    (h : objectName scope jobId page attempt = objectName scope jobId page' attempt') :
    page = page' := by
  unfold objectName at h
  simp only [String.append_assoc, String.append_right_inj] at h
  have hlist := congrArg String.toList h
  simp only [String.toList_append] at hlist
  exact PageCheckpoint.decimal_prefix rfl rfl hlist

/-- The recognizer's answer is the page of the task whose text the object holds. -/
def Reproduces (formatF64 : Float → String) (services : Services) (task : PageTask)
    (object : StoredObject) : Prop :=
  ∃ page, services.recognize task = .ok page ∧ page.page = task.page ∧
    toVec formatF64 page = object.bytes

section Replay
variable (formatF64 : Float → String) (sha256 : List UInt8 → Vector UInt8 32)
  {writer : GcsPageArtifactWriter} {services : Services} {scope : Scope} {jobId : JobId}
  {objects : StoredObjects} {task : PageTask} {bucket generation : String} {object : StoredObject}
  (hkey : task.activityKey = activityKey jobId task.page task.attempt)
  (hbucket : writer.bucket scope.productId = some bucket)
  (hobject : current objects (bucket,objectName scope jobId task.page task.attempt) = some object)
  (hsize : object.bytes ≠ [] ∧ (object.bytes.length : ℤ) ≤ maximumResultBytes)
  (hanswered : services.reply task = .answered)
  (hversion : object.version.filter validObjectVersion = some generation)
include hkey hbucket hobject hsize hanswered hversion

/-- Where the object of the attempt exists, the page in it is stored. -/
theorem write_same {page : DocumentPage} (hnumber : page.page = task.page)
    (hsame : toVec formatF64 page = object.bytes) : ∃ artifact,
      (write formatF64 sha256 writer services scope jobId objects task page).1 = .ok artifact ∧
        StoredPageArtifact.task artifact = task := by
  have hguard : ¬(page.page ≠ task.page ∨
      task.activityKey ≠ activityKey jobId task.page task.attempt) := by
    simp [hnumber, hkey]
  have hbytes : ¬(object.bytes = [] ∨ maximumResultBytes < object.bytes.length) := by
    simp [hsize.1, hsize.2]
  unfold write
  simp only [if_neg hguard, hbucket, hsame, if_neg hbytes, hanswered,
    current_create_of_some hobject, readBack, hversion, ne_eq, not_true_eq_false, if_false, or_self]
  exact ⟨_,rfl,rfl⟩

omit hsize in
/-- Every other page is a conflict, if it can be written at all. -/
theorem write_different {page : DocumentPage} (hnumber : page.page = task.page)
    (hdiffers : toVec formatF64 page ≠ object.bytes) : ∃ e,
      (write formatF64 sha256 writer services scope jobId objects task page).1 = .error e ∧
        e.processError = .permanent := by
  have hguard : ¬(page.page ≠ task.page ∨
      task.activityKey ≠ activityKey jobId task.page task.attempt) := by
    simp [hnumber, hkey]
  unfold write
  by_cases hbytes : toVec formatF64 page = [] ∨ maximumResultBytes < (toVec formatF64 page).length
  · simp only [if_neg hguard, hbucket, if_pos hbytes]
    exact ⟨_,rfl,rfl⟩
  · simp only [if_neg hguard, hbucket, if_neg hbytes, hanswered, current_create_of_some hobject,
      readBack, hversion]
    by_cases hlength : object.bytes.length ≠ (toVec formatF64 page).length
    · rw [if_pos hlength]
      exact ⟨_,rfl,rfl⟩
    · rw [if_neg hlength, if_pos (Or.inl hdiffers.symm)]
      exact ⟨_,rfl,rfl⟩

/-- An execution of an attempt whose object exists. -/
theorem process_existing :
    (Reproduces formatF64 services task object → ∃ artifact,
      (process formatF64 sha256 writer services scope jobId objects task).1 = .ok artifact ∧
        StoredPageArtifact.task artifact = task) ∧
    (¬Reproduces formatF64 services task object → ∃ e,
      (process formatF64 sha256 writer services scope jobId objects task).1 = .error e ∧
        ∀ page, services.recognize task = .ok page → e = .permanent) := by
  unfold process
  rw [if_neg (not_not.mpr hkey)]
  constructor
  · rintro ⟨page,hrecognized,hnumber,hsame⟩
    obtain ⟨artifact,hwrite,htask⟩ := write_same formatF64 sha256 hkey hbucket hobject hsize
      hanswered hversion hnumber hsame
    refine ⟨artifact,?_,htask⟩
    rcases hw : write formatF64 sha256 writer services scope jobId objects task page
      with ⟨e | a,objects'⟩
    · simp [hw] at hwrite
    · rw [hw] at hwrite
      obtain rfl := Except.ok.inj hwrite
      have hfields : ¬(a.page ≠ task.page ∨ a.attempt ≠ task.attempt ∨
          a.activityKey ≠ task.activityKey) := by
        simp [← htask, StoredPageArtifact.task]
      simp only [hrecognized, hnumber, ne_eq, not_true_eq_false, if_false, hw]
      rw [if_neg hfields]
  · intro hother
    cases hrecognized : services.recognize task with
    | error e => exact ⟨_,rfl,fun page h => by cases h⟩
    | ok page =>
      simp only
      by_cases hnumber : page.page = task.page
      · rw [if_neg (not_not.mpr hnumber)]
        obtain ⟨e,hwrite,hpermanent⟩ := write_different formatF64 sha256 hkey hbucket hobject
          hanswered hversion hnumber fun hsame => hother ⟨page,hrecognized,hnumber,hsame⟩
        rcases hw : write formatF64 sha256 writer services scope jobId objects task page
          with ⟨e' | a,objects'⟩
        · rw [hw] at hwrite
          obtain rfl := Except.error.inj hwrite
          exact ⟨_,rfl,fun _ _ => hpermanent⟩
        · simp [hw] at hwrite
      · rw [if_pos hnumber]
        exact ⟨_,rfl,fun _ _ => rfl⟩

end Replay

end DocumentIntelligence.PageArtifacts
