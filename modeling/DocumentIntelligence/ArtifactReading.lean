import DocumentIntelligence.Finalization
import DocumentIntelligence.PageArtifacts

/-!
# Reading of page artifacts

The finalizer reads the object of an artifact at the version which its locator names. An
artifact of the processor reads as the text of the page which was recognized, as long as
the versions of the objects are kept.
-/

set_option autoImplicit false

namespace DocumentIntelligence.ArtifactReading
open Identifiers hiding Error
open Schema PageWorkflowStore PageRunner ObjectStorage StorageLocations PageArtifacts
open DocumentPages (DocumentPage toVec toVec_pos)
open PageCheckpoint (PageTask)
open Finalization (PageArtifactReadError)
open ResultAssembly (maximumResultBytes)

/-- `new` admits distinct buckets. -/
structure GcsPageArtifactReader where
  buckets : List String
  valid : (!buckets.isEmpty && buckets.all isBucketName) = true
  distinct : buckets.Nodup

section Read
variable (sha256 : List UInt8 → Vector UInt8 32) (reader : GcsPageArtifactReader)

/-- `PageArtifactReader::read`; the names of artifacts are those of the writer, which are
paths. -/
def read (objects : StoredObjects) (reply : StorageReply) (artifact : StoredPageArtifact)
    (maximumBytes : ℕ) : Except PageArtifactReadError (List UInt8) :=
  if maximumBytes = 0 ∨ maximumResultBytes < maximumBytes then .error .invalid
  else if !reader.buckets.contains artifact.objectBucket then .error .invalid
  else if reply ≠ .answered then .error .unavailable
  else match version objects (artifact.objectBucket,artifact.objectName)
      (some artifact.objectVersion) with
  | none => .error .notFound
  | some result =>
    if artifact.contentLength < 0 then .error .invalid
    else if result.version ≠ some artifact.objectVersion ∨
        result.bytes.length ≠ artifact.contentLength.toNat ∨
        maximumBytes < result.bytes.length then .error .invalid
    else if sha256Digest sha256 result.bytes ≠ artifact.objectDigest then .error .invalid
    else .ok result.bytes

end Read

/-! ### Artifacts of the processor -/

section Written
variable (formatF64 : Float → String) (sha256 : List UInt8 → Vector UInt8 32)
  (writer : GcsPageArtifactWriter) (scope : Scope) (jobId : JobId)

/-- An execution of the processor on a claimed task wrote the artifact, and the versions
which there were then are kept. -/
def WrittenBy (objects : StoredObjects) (artifact : StoredPageArtifact) : Prop :=
  ∃ services earlier task written, ClaimedTask jobId task ∧
    process formatF64 sha256 writer services scope jobId earlier task = (.ok artifact,written) ∧
    Extends written objects

variable {formatF64 sha256 writer scope jobId}

/-- What is read back is the object which was to be written. -/
theorem readBack_stored {task : PageTask} {bucket : String} {bytes : List UInt8}
    {stored : Option StoredObject} {artifact : StoredPageArtifact}
    (h : readBack sha256 scope jobId task bucket bytes stored = .ok artifact) :
    ∃ o, stored = some o ∧ o.version = some artifact.objectVersion ∧ o.bytes = bytes := by
  cases stored with
  | none => cases h
  | some o =>
    rw [readBack] at h
    cases hversion : o.version.filter validObjectVersion with
    | none =>
      rw [hversion] at h
      exact absurd h (by simp)
    | some generation =>
      rw [hversion] at h
      dsimp only at h
      by_cases hlength : o.bytes.length ≠ bytes.length
      · rw [if_pos hlength] at h
        exact absurd h (by simp)
      rw [if_neg hlength] at h
      by_cases hdiffer : o.bytes ≠ bytes ∨ sha256Digest sha256 o.bytes ≠ sha256Digest sha256 bytes
      · rw [if_pos hdiffer] at h
        exact absurd h (by simp)
      rw [if_neg hdiffer, Except.ok.injEq] at h
      rw [not_or, not_not] at hdiffer
      subst artifact
      exact ⟨o,rfl,(Option.filter_eq_some_iff.mp hversion).1,hdiffer.1⟩

/-- The locator which the writer returns is that of the page's text. -/
theorem write_stored {services : Services} {objects written : StoredObjects} {task : PageTask}
    {page : DocumentPage} {artifact : StoredPageArtifact}
    (h : write formatF64 sha256 writer services scope jobId objects task page =
      (.ok artifact,written)) :
    page.page = artifact.page ∧ writer.bucket scope.productId = some artifact.objectBucket ∧
      artifact.contentLength = (toVec formatF64 page).length ∧
      (toVec formatF64 page).length ≤ maximumResultBytes ∧
      artifact.objectDigest = sha256Digest sha256 (toVec formatF64 page) ∧
      version written (artifact.objectBucket,artifact.objectName) (some artifact.objectVersion) =
        some ⟨(artifact.objectBucket,artifact.objectName),some artifact.objectVersion,
          toVec formatF64 page⟩ := by
  rw [write] at h
  by_cases hguard : page.page ≠ task.page ∨
      task.activityKey ≠ PageCheckpoint.activityKey jobId task.page task.attempt
  · rw [if_pos hguard] at h
    exact absurd h (by simp)
  rw [if_neg hguard] at h
  rw [not_or, not_not, not_not] at hguard
  cases hbucket : writer.bucket scope.productId with
  | none =>
    rw [hbucket] at h
    exact absurd h (by simp)
  | some bucket =>
    rw [hbucket] at h
    dsimp only at h
    by_cases hbytes : toVec formatF64 page = [] ∨
        Jobs.maximumResultBytes < (toVec formatF64 page).length
    · rw [if_pos hbytes] at h
      exact absurd h (by simp)
    rw [if_neg hbytes] at h
    rw [not_or, Int.not_lt] at hbytes
    cases hreply : services.reply task with
    | refused =>
      rw [hreply] at h
      exact absurd h (by simp)
    | lost =>
      rw [hreply] at h
      exact absurd h (by simp)
    | answered =>
      rw [hreply] at h
      dsimp only at h
      rw [Prod.mk.injEq] at h
      obtain ⟨hread,hwritten⟩ := h
      obtain ⟨o,hcurrent,hversion,hsame⟩ := readBack_stored hread
      obtain ⟨generation,_,hartifact⟩ := readBack_ok hread
      have hfound := version_current hcurrent
      have hpath := current_path hcurrent
      rw [hwritten] at hfound
      have hlimit : (toVec formatF64 page).length ≤ maximumResultBytes := by
        have hmaximum : Jobs.maximumResultBytes = (maximumResultBytes : ℤ) := rfl
        omega
      have hobject : o = ⟨(bucket,objectName scope jobId task.page task.attempt),
          some artifact.objectVersion,toVec formatF64 page⟩ := by
        rw [← hpath, ← hversion, ← hsame]
      rw [hversion, hobject] at hfound
      subst hartifact
      exact ⟨hguard.1,rfl,rfl,hlimit,rfl,hfound⟩

/-- The artifact which an execution returns is one which it wrote. -/
theorem process_write {services : Services} {objects written : StoredObjects} {task : PageTask}
    {artifact : StoredPageArtifact}
    (h : process formatF64 sha256 writer services scope jobId objects task =
      (.ok artifact,written)) :
    ∃ page, services.recognize task = .ok page ∧
      write formatF64 sha256 writer services scope jobId objects task page =
        (.ok artifact,written) := by
  rw [process] at h
  by_cases hkey : task.activityKey ≠ PageCheckpoint.activityKey jobId task.page task.attempt
  · rw [if_pos hkey] at h
    exact absurd h (by simp)
  rw [if_neg hkey] at h
  cases hrecognized : services.recognize task with
  | error e =>
    rw [hrecognized] at h
    exact absurd h (by simp)
  | ok page =>
    rw [hrecognized] at h
    dsimp only at h
    by_cases hnumber : page.page ≠ task.page
    · rw [if_pos hnumber] at h
      exact absurd h (by simp)
    rw [if_neg hnumber] at h
    refine ⟨page,rfl,?_⟩
    rcases hwrite : write formatF64 sha256 writer services scope jobId objects task page
      with ⟨e | a,objects'⟩
    · rw [hwrite] at h
      exact absurd h (by simp)
    · rw [hwrite] at h
      dsimp only at h
      by_cases hfields : a.page ≠ task.page ∨ a.attempt ≠ task.attempt ∨
          a.activityKey ≠ task.activityKey
      · rw [if_pos hfields] at h
        exact absurd h (by simp)
      · rw [if_neg hfields, Prod.mk.injEq, Except.ok.injEq] at h
        rw [h.1, h.2]

/-- An artifact of the processor passes the validation of the store, and its object reads as
the text of its page. -/
theorem written_reads {reader : GcsPageArtifactReader} {objects : StoredObjects}
    {artifact : StoredPageArtifact}
    (hbuckets : ∀ route ∈ writer.routes, route.2 ∈ reader.buckets)
    (h : WrittenBy formatF64 sha256 writer scope jobId objects artifact) :
    ∃ page : DocumentPage, page.page = artifact.page ∧ validatePageArtifact artifact = true ∧
      artifact.contentLength = (toVec formatF64 page).length ∧
      version objects (artifact.objectBucket,artifact.objectName) (some artifact.objectVersion) =
        some ⟨(artifact.objectBucket,artifact.objectName),some artifact.objectVersion,
          toVec formatF64 page⟩ ∧
      read sha256 reader objects .answered artifact maximumResultBytes =
        .ok (toVec formatF64 page) := by
  obtain ⟨services,earlier,task,written,hclaimed,hprocess,hextends⟩ := h
  obtain ⟨page,_,hwrite⟩ := process_write hprocess
  obtain ⟨hnumber,hbucket,hlength,hlimit,hdigest,hversion⟩ := write_stored hwrite
  have hvalid := (process_written hclaimed (congrArg Prod.fst hprocess)).valid
  have hstored := hextends _ _ _ hversion
  have hknown : reader.buckets.contains artifact.objectBucket = true := by
    obtain ⟨route,hroute,hname⟩ := Option.map_eq_some_iff.mp hbucket
    rw [List.contains_iff_mem, ← hname]
    exact hbuckets route (List.mem_of_find?_eq_some hroute)
  refine ⟨page,hnumber,hvalid,hlength,hstored,?_⟩
  have hmaximum : ¬(maximumResultBytes = 0 ∨ maximumResultBytes < maximumResultBytes) := by
    decide
  rw [read, if_neg hmaximum, hknown, hstored]
  simp [hlength, hdigest, Nat.not_lt.mpr hlimit]

end Written

end DocumentIntelligence.ArtifactReading
