import DocumentIntelligence.Transition
import DocumentIntelligence.Uploads

/-!
# Uploads waiting in a scope

An upload waits from its recording until its acceptance or rejection. The
directory flag of the scope has to be set for as long as one of its uploads
waits. The transactions which end a wait clear the flag without asking for the
other uploads of the scope, so the flag is right exactly along the runs where
every wait that ends is the last one of its scope.
-/

set_option autoImplicit false

namespace DocumentIntelligence.UploadScopes
open Identifiers hiding Error
open WorkScopes Schema Uploads Transition

inductive Action where
  | create (now : ℤ) (request : CreateUpload)
  | record (now nowUtc : ℤ) (scope : Scope) (uploadId : UploadId) (record : RecordUpload)
  | claim (now : ℤ) (scope : Scope) (uploadId : UploadId) (leaseOwner : String)
  | accept (now : ℤ) (scope : Scope) (uploadId : UploadId) (source : AcceptUpload)
  | reject (now : ℤ) (scope : Scope) (uploadId : UploadId) (leaseOwner : String)
      (reason : UploadRejectionReason)

def step (s : Store) : Action → Store
  | .create now request => commit s (createUpload s now request)
  | .record now nowUtc scope uploadId record =>
    commit s (recordUploaded s now nowUtc scope uploadId record)
  | .claim now scope uploadId owner => commit s (claimUploadInspection s now scope uploadId owner)
  | .accept now scope uploadId source => commit s (acceptUpload s now scope uploadId source)
  | .reject now scope uploadId owner reason =>
    commit s (rejectUpload s now scope uploadId owner reason)

def waiting (u : UploadRow) : Bool := u.status == .uploaded || u.status == .inspecting

/-- Every waiting upload belongs to a scope which the dispatcher can find. -/
def NoStrandedUpload (s : Store) : Prop :=
  ∀ u ∈ s.uploads, waiting u = true → Pending s.workScopes u.scope .upload

instance (s : Store) : Decidable (NoStrandedUpload s) :=
  inferInstanceAs (Decidable (∀ u ∈ s.uploads, _))

/-- The decision which the transaction takes on the row it finds. -/
def decides (s : Store) (scope : Scope) (uploadId : UploadId) (p : UploadRow → Bool) : Bool :=
  (s.uploads.find? (isUpload scope uploadId)).any p

/-- The upload whose wait a transaction ends, by acceptance, rejection or
exhausted inspection attempts. -/
def endsWait (s : Store) : Action → Option (Scope × UploadId)
  | .create _ _ | .record _ _ _ _ _ => none
  | .claim now scope uploadId owner =>
    if isValidLeaseOwner owner &&
      decides s scope uploadId (claimOutcome now owner · == .attemptsExhausted)
    then some (scope,uploadId) else none
  | .accept now scope uploadId source =>
    if validateAcceptedSource source && decides s scope uploadId (acceptable now source)
    then some (scope,uploadId) else none
  | .reject now scope uploadId owner _ =>
    if isValidLeaseOwner owner && decides s scope uploadId (rejectable now owner)
    then some (scope,uploadId) else none

/-- No upload of the scope waits, this one apart. -/
def LastWaiting (s : Store) (scope : Scope) (uploadId : UploadId) : Prop :=
  ∀ u ∈ s.uploads, u.scope = scope → waiting u = true → u.uploadId = uploadId

def EndsLastWait (s : Store) (a : Action) : Prop :=
  ∀ scope uploadId, endsWait s a = some (scope,uploadId) → LastWaiting s scope uploadId

theorem isUpload_iff (scope : Scope) (uploadId : UploadId) (u : UploadRow) :
    isUpload scope uploadId u = true ↔ u.scope = scope ∧ u.uploadId = uploadId := by
  simp [isUpload]

/-- Rewriting rows of a scope keeps every flag justified, if the flag of that
scope is set whenever a rewritten row waits. -/
theorem noStranded_update {s : Store} (hs : NoStrandedUpload s) {p : UploadRow → Bool}
    {f : UploadRow → UploadRow} {rows : List WorkScopeRow}
    (hkeep : ∀ u ∈ s.uploads, p u = false → waiting u = true →
      Pending s.workScopes u.scope .upload → Pending rows u.scope .upload)
    (hwrite : ∀ u ∈ s.uploads, p u = true → waiting (f u) = true →
      Pending rows (f u).scope .upload) :
    ∀ u ∈ Table.update p f s.uploads, waiting u = true → Pending rows u.scope .upload := by
  intro u hu hw
  rcases Table.mem_update_cases hu with ⟨hm,hp⟩ | ⟨x,hx,hp,rfl⟩
  · exact hkeep u hm hp hw (hs u hm hw)
  · exact hwrite x hx hp hw

/-- The shape of every transaction which ends a wait: the row stops waiting and
the flag of its scope is cleared. -/
theorem noStranded_clear_iff {s : Store} (hs : NoStrandedUpload s) (now : ℤ) (scope : Scope)
    (uploadId : UploadId) {f : UploadRow → UploadRow} (hf : ∀ u, waiting (f u) = false) :
    (∀ u ∈ Table.update (isUpload scope uploadId) f s.uploads, waiting u = true →
      Pending (setWorkScopePending now scope .upload false s.workScopes) u.scope .upload) ↔
    LastWaiting s scope uploadId := by
  constructor
  · intro h u hu hscope hw
    by_contra hne
    have hp : isUpload scope uploadId u = false := by
      apply Bool.eq_false_iff.mpr
      rw [Ne, isUpload_iff]
      exact fun hk => hne hk.2
    have hpending := h u (Table.mem_update_kept hu hp) hw
    rw [hscope] at hpending
    exact pending_set_false now scope .upload s.workScopes hpending
  · intro hlast
    apply noStranded_update hs
    · intro u hu hp hw hpending
      have hne : u.scope ≠ scope := by
        intro hscope
        rw [(isUpload_iff scope uploadId u).mpr ⟨hscope,hlast u hu hscope hw⟩] at hp
        cases hp
      exact (pending_set_other now false fun h => hne h.1.symm).mpr hpending
    · intro u _ _ hw
      rw [hf u] at hw
      cases hw

theorem accept_iff {s : Store} (hs : NoStrandedUpload s) (now : ℤ) (scope : Scope)
    (uploadId : UploadId) (source : AcceptUpload) :
    NoStrandedUpload (acceptRow s now scope uploadId source) ↔ LastWaiting s scope uploadId :=
  noStranded_clear_iff hs now scope uploadId fun _ => rfl

theorem reject_iff {s : Store} (hs : NoStrandedUpload s) (now : ℤ) (scope : Scope)
    (uploadId : UploadId) (reason : UploadRejectionReason) :
    NoStrandedUpload (rejectRow s now scope uploadId reason) ↔ LastWaiting s scope uploadId :=
  noStranded_clear_iff hs now scope uploadId fun _ => rfl

theorem record_noStranded {s : Store} (hs : NoStrandedUpload s) (now : ℤ) (scope : Scope)
    (uploadId : UploadId) (record : RecordUpload) :
    NoStrandedUpload (recordRow s now scope uploadId record) := by
  apply noStranded_update hs
  · intro u _ _ _ hpending
    exact pending_register_mono now scope u.scope .upload .upload hpending
  · intro u _ hp _
    have hscope : (markUploaded now record u).scope = scope := ((isUpload_iff _ _ u).mp hp).1
    rw [hscope]
    exact pending_register_self now scope .upload s.workScopes

theorem create_noStranded {s : Store} (hs : NoStrandedUpload s) (now : ℤ)
    (request : CreateUpload) :
    NoStrandedUpload { s with uploads := s.uploads++[request.row now] } := by
  intro u hu hw
  rcases List.mem_append.mp hu with hm | hm
  · exact hs u hm hw
  · rw [List.mem_singleton] at hm
    rw [hm] at hw
    cases hw

/-- A lease on the inspection is taken only from a row which already waits. -/
theorem claimed_waiting {now : ℤ} {owner : String} {u : UploadRow}
    (h : claimOutcome now owner u = .claimed) : waiting u = true := by
  cases hu : u.status <;> simp_all [claimOutcome, waiting]

theorem claim_noStranded {s : Store} (hs : NoStrandedUpload s) (now : ℤ) {scope : Scope}
    {uploadId : UploadId} {owner : String} {u : UploadRow}
    (hfind : s.uploads.find? (isUpload scope uploadId) = some u) (hw : waiting u = true) :
    NoStrandedUpload { s with
      uploads := Table.update (isUpload scope uploadId) (claimInspection now owner) s.uploads } := by
  obtain ⟨hm,hp⟩ := Table.mem_of_find? hfind
  apply noStranded_update hs
  · exact fun _ _ _ _ h => h
  · intro x _ hx _
    have hscope : (claimInspection now owner x).scope = u.scope :=
      ((isUpload_iff _ _ x).mp hx).1.trans ((isUpload_iff _ _ u).mp hp).1.symm
    rw [hscope]
    exact hs u hm hw

theorem renew_noStranded {s : Store} (hs : NoStrandedUpload s) (now : ℤ) (p : UploadRow → Bool) :
    NoStrandedUpload { s with uploads := Table.update p (renewInspection now) s.uploads } := by
  apply noStranded_update hs
  · exact fun _ _ _ _ h => h
  · exact fun u hu _ hw => hs u hu hw

theorem commit_map {α β : Type} (s : Store) (r : Except Schema.Error α) (f : α → β × Store)
    {s' : Store} (hf : ∀ a, (f a).2 = s') :
    commit s (r.map f) = s ∨ commit s (r.map f) = s' := by
  cases r with
  | error e => exact Or.inl rfl
  | ok a => exact Or.inr (hf a)

theorem create_step (s : Store) (now : ℤ) (request : CreateUpload) :
    step s (.create now request) = s ∨
      (∀ u ∈ s.uploads, u.uploadId ≠ request.uploadId) ∧
        step s (.create now request) = { s with uploads := s.uploads++[request.row now] } := by
  simp only [step, createUpload]
  split
  · exact Or.inl rfl
  · split
    · split
      · exact Or.inl rfl
      · exact Or.inl (or_self_iff.mp (commit_map s _ _ fun _ => rfl))
    · split
      · exact Or.inl rfl
      · rename_i hany
        have hfresh : ∀ u ∈ s.uploads, u.uploadId ≠ request.uploadId := by
          intro u hu hid
          apply hany
          exact List.any_eq_true.mpr ⟨u,hu,by simp [hid]⟩
        apply Or.imp_right fun h => ⟨hfresh,h⟩
        exact commit_map s _ _ fun _ => rfl

theorem record_step (s : Store) (now nowUtc : ℤ) (scope : Scope) (uploadId : UploadId)
    (record : RecordUpload) :
    step s (.record now nowUtc scope uploadId record) = s ∨
      step s (.record now nowUtc scope uploadId record) =
        recordRow s now scope uploadId record := by
  simp only [step, recordUploaded]
  split
  · exact Or.inl rfl
  · split
    · exact Or.inl rfl
    · split
      · exact commit_map s _ _ fun _ => rfl
      · split
        · split
          · exact Or.inl (or_self_iff.mp (commit_map s _ _ fun _ => rfl))
          · exact Or.inl rfl
        · exact Or.inl rfl
        · exact Or.inl rfl

theorem accept_step (s : Store) (now : ℤ) (scope : Scope) (uploadId : UploadId)
    (source : AcceptUpload) :
    step s (.accept now scope uploadId source) =
      if validateAcceptedSource source && decides s scope uploadId (acceptable now source)
      then acceptRow s now scope uploadId source else s := by
  cases hv : validateAcceptedSource source with
  | false => simp [step, acceptUpload, hv]
  | true =>
    cases hfind : s.uploads.find? (isUpload scope uploadId) with
    | none => simp [step, acceptUpload, decides, hv, hfind]
    | some u =>
      cases h : acceptable now source u with
      | true => simp [step, acceptUpload, decides, hv, hfind, h]
      | false =>
        by_cases hu : u.status = .accepted <;>
          simp [step, acceptUpload, decides, hv, hfind, h, hu]

theorem reject_step (s : Store) (now : ℤ) (scope : Scope) (uploadId : UploadId)
    (owner : String) (reason : UploadRejectionReason) :
    step s (.reject now scope uploadId owner reason) =
      if isValidLeaseOwner owner && decides s scope uploadId (rejectable now owner)
      then rejectRow s now scope uploadId reason else s := by
  cases hv : isValidLeaseOwner owner with
  | false => simp [step, rejectUpload, hv]
  | true =>
    cases hfind : s.uploads.find? (isUpload scope uploadId) with
    | none => simp [step, rejectUpload, decides, hv, hfind]
    | some u =>
      cases h : rejectable now owner u with
      | true => simp [step, rejectUpload, decides, hv, hfind, h]
      | false =>
        by_cases hu : u.status = .rejected <;>
          simp [step, rejectUpload, decides, hv, hfind, h, hu]

/-- A claim ends the wait of an exhausted row, or the flags stay justified. -/
theorem claim_step {s : Store} (hs : NoStrandedUpload s) (now : ℤ) (scope : Scope)
    (uploadId : UploadId) (owner : String) :
    (endsWait s (.claim now scope uploadId owner) = some (scope,uploadId) ∧
      step s (.claim now scope uploadId owner) =
        rejectRow s now scope uploadId .inspectionAttemptsExhausted) ∨
    (endsWait s (.claim now scope uploadId owner) = none ∧
      NoStrandedUpload (step s (.claim now scope uploadId owner))) := by
  cases hv : isValidLeaseOwner owner with
  | false => exact Or.inr ⟨by simp [endsWait, hv],by simpa [step, claimUploadInspection, hv] using hs⟩
  | true =>
    cases hfind : s.uploads.find? (isUpload scope uploadId) with
    | none =>
      right
      constructor
      · simp [endsWait, decides, hfind]
      · simpa [step, claimUploadInspection, hv, hfind] using hs
    | some u =>
      have hends : endsWait s (.claim now scope uploadId owner) =
          if claimOutcome now owner u = .attemptsExhausted then some (scope,uploadId) else none := by
        simp [endsWait, decides, hv, hfind]
      rw [hends]
      simp only [step, claimUploadInspection, hv, hfind]
      cases h : claimOutcome now owner u with
      | claimed => exact Or.inr ⟨by simp,claim_noStranded hs now hfind (claimed_waiting h)⟩
      | existing => exact Or.inr ⟨by simp,renew_noStranded hs now _⟩
      | attemptsExhausted => exact Or.inl ⟨by simp,by simp⟩
      | busy => exact Or.inr ⟨by simp,hs⟩
      | notInspectable => exact Or.inr ⟨by simp,hs⟩
      | notFound => exact Or.inr ⟨by simp,hs⟩

theorem endsLastWait_none {s : Store} {a : Action} (h : endsWait s a = none) :
    EndsLastWait s a := by
  intro scope uploadId hsome
  rw [h] at hsome
  cases hsome

theorem endsLastWait_some {s : Store} {a : Action} {scope : Scope} {uploadId : UploadId}
    (h : endsWait s a = some (scope,uploadId)) :
    EndsLastWait s a ↔ LastWaiting s scope uploadId := by
  constructor
  · exact fun hlast => hlast scope uploadId h
  · intro hlast scope' uploadId' h'
    rw [h] at h'
    cases h'
    exact hlast

theorem step_iff {s : Store} (a : Action) (hs : NoStrandedUpload s) :
    EndsLastWait s a ↔ NoStrandedUpload (step s a) := by
  cases a with
  | create now request =>
    apply iff_of_true (endsLastWait_none rfl)
    rcases create_step s now request with h | ⟨_,h⟩ <;> rw [h]
    · exact hs
    · exact create_noStranded hs now request
  | record now nowUtc scope uploadId record =>
    apply iff_of_true (endsLastWait_none rfl)
    rcases record_step s now nowUtc scope uploadId record with h | h <;> rw [h]
    · exact hs
    · exact record_noStranded hs now scope uploadId record
  | claim now scope uploadId owner =>
    rcases claim_step hs now scope uploadId owner with ⟨hends,hstep⟩ | ⟨hends,hstep⟩
    · rw [endsLastWait_some hends, hstep, reject_iff hs]
    · exact iff_of_true (endsLastWait_none hends) hstep
  | accept now scope uploadId source =>
    rw [accept_step]
    split
    · rename_i h
      rw [endsLastWait_some (by simp only [endsWait]; exact if_pos h), accept_iff hs]
    · rename_i h
      exact iff_of_true (endsLastWait_none (by simp only [endsWait]; exact if_neg h)) hs
  | reject now scope uploadId owner reason =>
    rw [reject_step]
    split
    · rename_i h
      rw [endsLastWait_some (by simp only [endsWait]; exact if_pos h), reject_iff hs]
    · rename_i h
      exact iff_of_true (endsLastWait_none (by simp only [endsWait]; exact if_neg h)) hs

/-- No upload is stranded in a run exactly when every wait that ends in it is
the last wait of its scope. -/
theorem noStranded_always_iff (as : List Action) :
    Always step NoStrandedUpload empty as ↔ Along step EndsLastWait empty as := by
  apply always_iff_along (I := fun _ => True)
  · exact fun _ _ _ => trivial
  · exact fun s a _ hs => step_iff a hs
  · trivial
  · intro u hu
    cases hu

def secondUpload : UploadId := ⟨"upl_b",by decide⟩

def reservation (uploadId : UploadId) (key : IdempotencyKey) : CreateUpload where
  uploadId := uploadId
  scope := default
  idempotencyKey := key
  requestDigest := default
  objectBucket := "quarantine"
  objectName := uploadId.asStr
  expectedContentType := "image/png"
  expectedContentLength := 1
  expectedDigest := (default : RequestDigest).asStr
  expiresAt := 100

def received : RecordUpload := ⟨"1","image/png",1,(default : RequestDigest).asStr⟩

def promoted : AcceptUpload :=
  ⟨"worker",{
    sourceBucket := "sources"
    sourceObjectName := "upl_a"
    sourceObjectVersion := "1"
    sourceDigest := (default : RequestDigest).asStr
    sourceContentLength := 1
    parserInspection := ⟨1,1,1,[⟨1,1,1,by decide,by decide⟩],"default","1"⟩ }⟩

/-- Two uploads of one scope are recorded; the first is inspected and accepted. -/
def strandingRun : List Action :=
  [.create 0 (reservation default default), .create 0 (reservation secondUpload ⟨"key-b",by decide⟩),
    .record 1 1 default default received, .record 1 1 default secondUpload received,
    .claim 2 default default "worker", .accept 3 default default promoted]

/-- The acceptance clears the flag while the second upload still waits. -/
theorem accept_strands_second : ¬Always step NoStrandedUpload empty strandingRun := by
  intro h
  have hlast : NoStrandedUpload (run step empty strandingRun) := always_run h
  revert hlast
  decide +kernel

end DocumentIntelligence.UploadScopes
