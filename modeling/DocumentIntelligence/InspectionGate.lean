import DocumentIntelligence.Importer
import DocumentIntelligence.UploadLifecycle

/-!
# The inspection gate

A call of the importer carries evidence from phase to phase, which no other step takes
away. An upload is accepted by a call whose evidence is complete, and rejected for the
reason of a failure or because its attempts are spent; a call which reports that a
service is unavailable has left its upload inspecting.
-/

set_option autoImplicit false

namespace DocumentIntelligence.InspectionGate
open BigEndian ObjectStorage SourceReading SourcePromotion Importer
open Identifiers (Scope UploadId)
open Schema hiding Error
open Uploads Transition
open ContentVerification (sha256Digest)
open GeometryContract (ParserInspectionReport)

/-! ### What a call goes by -/

/-- The upload is as the row has it, with the version which was recorded. -/
structure Names (u : UploadRow) (upload : StoredUpload) : Prop where
  bucket : upload.objectBucket = u.objectBucket
  name : upload.objectName = u.objectName
  contentType : upload.expectedContentType = u.expectedContentType
  contentLength : upload.expectedContentLength = u.expectedContentLength
  digest : upload.expectedDigest = u.expectedDigest
  version : upload.objectVersion = u.verified.map (·.objectVersion)

/-- The row of the upload is recorded. -/
def Loaded (s : Store) (scope : Scope) (uploadId : UploadId) (upload : StoredUpload) : Prop :=
  ∃ u ∈ s.uploads, u.scope = scope ∧ u.uploadId = uploadId ∧ u.verified.isSome = true ∧
    Names u upload

theorem names_storedUpload {u : UploadRow} {upload : StoredUpload}
    (h : storedUpload u = .ok upload) : Names u upload := by
  rw [storedUpload] at h
  split at h
  · rw [Except.ok.injEq] at h
    rw [← h]
    exact ⟨rfl,rfl,rfl,rfl,rfl,rfl⟩
  · cases h

theorem loadClaimedUpload_some {s : Store} (hs : UploadLifecycle.Sound s) {now : ℤ} {scope : Scope}
    {uploadId : UploadId} {leaseOwner : String} {upload : StoredUpload}
    (h : loadClaimedUpload s now scope uploadId leaseOwner = .ok (some upload)) :
    Loaded s scope uploadId upload := by
  rw [loadClaimedUpload] at h
  split at h
  · cases h
  simp only at h
  split at h
  · cases h
  · rename_i u hfind
    obtain ⟨hu,hclaimed⟩ := Table.mem_of_find? hfind
    simp only [Bool.and_eq_true, beq_iff_eq, UploadScopes.isUpload_iff] at hclaimed
    cases hstored : storedUpload u with
    | error e =>
      rw [hstored] at h
      cases h
    | ok found =>
      rw [hstored, Except.map, Except.ok.injEq, Option.some.injEq] at h
      rw [← h]
      have hverified : u.verified.isSome = true := by
        rw [(hs.rows u hu).uploaded, hclaimed.1.1.2]
        rfl
      exact ⟨u,hu,hclaimed.1.1.1.1,hclaimed.1.1.1.2,hverified,names_storedUpload hstored⟩

/-- What a recorded row names is not changed. -/
theorem change_names {events : UploadEventType → ℕ} {u u' : UploadRow} {a : UploadScopes.Action}
    {types : List UploadEventType} (hrow : UploadLifecycle.RowOk events u)
    (hverified : u.verified.isSome = true) (h : UploadLifecycle.UploadChange u a u' types)
    {upload : StoredUpload} (hnames : Names u upload) :
    u'.scope = u.scope ∧ u'.uploadId = u.uploadId ∧ u'.verified.isSome = true ∧
      Names u' upload := by
  obtain ⟨hbucket,hname,htype,hlength,hdigest,hversion⟩ := hnames
  cases h with
  | recorded now nowUtc record hrecordable =>
    simp only [recordable, Bool.and_eq_true, beq_iff_eq] at hrecordable
    rw [hrow.uploaded, hrecordable.1.1.1.1] at hverified
    cases hverified
  | claimed now owner hclaimed =>
    exact ⟨rfl,rfl,hverified,hbucket,hname,htype,hlength,hdigest,hversion⟩
  | renewed now owner hexisting =>
    exact ⟨rfl,rfl,hverified,hbucket,hname,htype,hlength,hdigest,hversion⟩
  | exhausted now owner hexhausted =>
    exact ⟨rfl,rfl,hverified,hbucket,hname,htype,hlength,hdigest,hversion⟩
  | accepted now accept hacceptable =>
    exact ⟨rfl,rfl,hverified,hbucket,hname,htype,hlength,hdigest,hversion⟩
  | rejected now owner reason hrejectable =>
    exact ⟨rfl,rfl,hverified,hbucket,hname,htype,hlength,hdigest,hversion⟩

theorem Loaded.step {s : Store} (hs : UploadLifecycle.Sound s) (a : UploadScopes.Action)
    {scope : Scope} {uploadId : UploadId} {upload : StoredUpload}
    (h : Loaded s scope uploadId upload) :
    Loaded (UploadScopes.step s a) scope uploadId upload := by
  obtain ⟨u,hu,hscope,hid,hverified,hnames⟩ := h
  obtain ⟨u',hu',rfl | ⟨types,hchange⟩⟩ := UploadLifecycle.step_keeps hs a hu
  · exact ⟨u',hu',hscope,hid,hverified,hnames⟩
  · obtain ⟨hscope',hid',hverified',hnames'⟩ :=
      change_names (hs.rows u hu) hverified hchange hnames
    exact ⟨u',hu',hscope'.trans hscope,hid'.trans hid,hverified',hnames'⟩

/-- The scanner has had the whole version which the upload names. -/
structure Scanned (objects : SourceObjects) (upload : StoredUpload) (scan : CleanScan) : Prop where
  pinned : Pinned objects upload scan.object
  received : ∃ frames, scan.received = some frames ∧ frames.flatten = scan.object.bytes

/-- A version which was scanned and has the digest of the upload. -/
structure Verified (services : Services) (s : Store) (objects : SourceObjects) (scope : Scope)
    (uploadId : UploadId) (upload : StoredUpload) (scan : CleanScan) : Prop where
  loaded : Loaded s scope uploadId upload
  scanned : Scanned objects upload scan
  digest : sha256Digest (services.sha256.digest scan.object.bytes) = upload.expectedDigest

/-- The reports of a call whose upload was read and parsed after a clean scan. -/
def parsedReports (upload : StoredUpload) (scan : CleanScan) (inspection : ParserInspectionReport) :
    List Report :=
  [.parsed scan.object.bytes upload.expectedContentType inspection,
    .read scan.object scan.object.bytes,.scanned scan]

section Evidence
variable (services : Services) (s : Store) (objects : SourceObjects) (call : Call)

/-- What holds of a call in a phase. -/
def Evidence : Phase → Prop
  | .claiming | .finding | .loading => call.reports = []
  | .scanning upload => Loaded s call.scope call.uploadId upload ∧ call.reports = []
  | .reading upload => ∃ scan, Loaded s call.scope call.uploadId upload ∧
      Scanned objects upload scan ∧ call.reports = [.scanned scan]
  | .parsing upload bytes => ∃ scan,
      Verified services s objects call.scope call.uploadId upload scan ∧ bytes = scan.object.bytes ∧
      call.reports = [.read scan.object scan.object.bytes,.scanned scan]
  | .promoting upload inspection => ∃ scan,
      Verified services s objects call.scope call.uploadId upload scan ∧
      call.reports = parsedReports upload scan inspection
  | .copying upload inspection p stage => ∃ scan,
      Verified services s objects call.scope call.uploadId upload scan ∧
      call.reports = parsedReports upload scan inspection ∧
      upload.objectVersion = some p.generation ∧ stage.Fits upload
  | .accepting inspection source => ∃ upload scan,
      Verified services s objects call.scope call.uploadId upload scan ∧
      Promoted services.sha256 objects upload scan.object.bytes source ∧
      call.reports = .promoted source::parsedReports upload scan inspection
  | .rejecting reason => ∃ failure reports, call.reports = .failed failure::reports ∧
      failure.reason = some reason
  | .returned _ => True

end Evidence

section Kept
variable {services : Services} {s s' : Store} {objects objects' : SourceObjects} {call : Call}

theorem Scanned.mono {upload : StoredUpload} {scan : CleanScan} (h : Scanned objects upload scan)
    (hextends : Extends objects objects') : Scanned objects' upload scan :=
  ⟨h.pinned.mono hextends,h.received⟩

theorem Verified.mono {scope : Scope} {uploadId : UploadId} {upload : StoredUpload}
    {scan : CleanScan} (h : Verified services s objects scope uploadId upload scan)
    (hextends : Extends objects objects')
    (hloaded : ∀ upload, Loaded s scope uploadId upload → Loaded s' scope uploadId upload) :
    Verified services s' objects' scope uploadId upload scan :=
  ⟨hloaded upload h.loaded,h.scanned.mono hextends,h.digest⟩

/-- What holds of a call is kept by what others do. -/
theorem Evidence.mono {phase : Phase} (h : Evidence services s objects call phase)
    (hextends : Extends objects objects')
    (hloaded : ∀ upload, Loaded s call.scope call.uploadId upload →
      Loaded s' call.scope call.uploadId upload) : Evidence services s' objects' call phase := by
  cases phase with
  | claiming => exact h
  | finding => exact h
  | loading => exact h
  | scanning upload => exact ⟨hloaded upload h.1,h.2⟩
  | reading upload =>
    obtain ⟨scan,hload,hscanned,hreports⟩ := h
    exact ⟨scan,hloaded upload hload,hscanned.mono hextends,hreports⟩
  | parsing upload bytes =>
    obtain ⟨scan,hverified,hbytes,hreports⟩ := h
    exact ⟨scan,hverified.mono hextends hloaded,hbytes,hreports⟩
  | promoting upload inspection =>
    obtain ⟨scan,hverified,hreports⟩ := h
    exact ⟨scan,hverified.mono hextends hloaded,hreports⟩
  | copying upload inspection p stage =>
    obtain ⟨scan,hverified,hreports,hgeneration,hfits⟩ := h
    exact ⟨scan,hverified.mono hextends hloaded,hreports,hgeneration,hfits⟩
  | accepting inspection source =>
    obtain ⟨upload,scan,hverified,hpromoted,hreports⟩ := h
    exact ⟨upload,scan,hverified.mono hextends hloaded,hpromoted.mono hextends,hreports⟩
  | rejecting reason => exact h
  | returned outcome => trivial

/-- A call which fails has the reason in its last report. -/
theorem fail_evidence (failure : Failure) :
    Evidence services s objects (call.fail failure) (call.fail failure).phase := by
  rw [Call.fail, Call.report]
  cases hreason : failure.reason with
  | none => trivial
  | some reason => exact ⟨failure,call.reports,rfl,hreason⟩

theorem served_evidence {α ε : Type} {failure : ε → Failure} {next : α → Call}
    {result : Except ε α}
    (h : ∀ a, result = .ok a → Evidence services s objects (next a) (next a).phase) :
    Evidence services s objects (call.served failure next result)
      (call.served failure next result).phase := by
  cases result with
  | ok a => exact h a rfl
  | error e => exact fail_evidence (failure e)

theorem promote_evidence {upload : StoredUpload} {inspection : ParserInspectionReport}
    (h : Evidence services s objects call (.promoting upload inspection)) :
    Evidence services s objects (call.promote services upload inspection)
      (call.promote services upload inspection).phase := by
  obtain ⟨scan,hverified,hreports⟩ := h
  apply served_evidence
  intro start hstart
  obtain ⟨p,hp,hstart⟩ := Table.bind_ok.mp hstart
  obtain ⟨stage,hstage,hstart⟩ := Table.bind_ok.mp hstart
  rw [Except.ok.injEq] at hstart
  rw [← hstart]
  exact ⟨scan,hverified,hreports,promotion_generation hp,firstStage_fits hstage⟩

theorem copied_evidence (hobjects : Versioned objects) (replies : StageReplies)
    {upload : StoredUpload} {inspection : ParserInspectionReport} {p : Promotion} {stage : Stage}
    (h : Evidence services s objects call (.copying upload inspection p stage)) :
    let result := stage.step services.isPath services.sha256 upload p objects replies
    Evidence services s result.1 (call.copied upload inspection p result.2)
      (call.copied upload inspection p result.2).phase := by
  intro result
  obtain ⟨scan,hverified,hreports,hgeneration,hfits⟩ := h
  have hextends : Extends objects result.1 := (step_creates replies stage).extends
  have hverified' := hverified.mono hextends fun _ => id
  cases hresult : result.2 with
  | next stage' =>
    exact ⟨scan,hverified',hreports,hgeneration,step_fits hfits hresult⟩
  | ended outcome =>
    apply served_evidence
    rintro source rfl
    exact ⟨upload,scan,hverified',step_promoted hobjects hverified.scanned.pinned hgeneration hfits
      hverified.digest hresult,congrArg (Report.promoted source::·) hreports⟩

theorem ask_evidence (hs : UploadLifecycle.Sound s) (hobjects : Versioned objects)
    (answers : Answers) (h : Evidence services s objects call call.phase) :
    let asked := call.ask services answers s objects
    Evidence services s asked.1 asked.2 asked.2.phase := by
  intro asked
  obtain ⟨scope,uploadId,leaseOwner,phase,reports⟩ := call
  cases phase with
  | finding => trivial
  | loading =>
    cases hload : answers.query (loadClaimedUpload s answers.now scope uploadId leaseOwner) with
    | error e =>
      simp only [asked, Call.ask, hload]
      trivial
    | ok upload =>
      cases upload with
      | none =>
        simp only [asked, Call.ask, hload]
        trivial
      | some upload =>
        simp only [asked, Call.ask, hload]
        rw [Answers.query] at hload
        split at hload
        · exact ⟨loadClaimedUpload_some hs hload,h⟩
        · cases hload
  | scanning upload =>
    apply served_evidence
    intro scan hscan
    obtain ⟨hpinned,hreceived⟩ := inspect_ok hscan
    exact ⟨scan,h.1,⟨hpinned,hreceived⟩,congrArg (Report.scanned scan::·) h.2⟩
  | reading upload =>
    obtain ⟨scan,hloaded,hscanned,hreports⟩ := h
    apply served_evidence
    rintro ⟨found,bytes⟩ hread
    obtain ⟨hpinned,rfl,hdigest⟩ := read_ok hread
    have hsame := hscanned.pinned.unique hpinned
    rw [← hsame] at hdigest
    refine ⟨scan,⟨hloaded,hscanned,hdigest⟩,congrArg Stored.bytes hsame.symm,?_⟩
    rw [hsame]
    exact congrArg (Report.read found found.bytes::·) hreports
  | parsing upload bytes =>
    obtain ⟨scan,hverified,rfl,hreports⟩ := h
    apply served_evidence
    intro inspection _
    exact ⟨scan,hverified,congrArg
      (Report.parsed scan.object.bytes upload.expectedContentType inspection::·) hreports⟩
  | promoting upload inspection => exact promote_evidence h
  | copying upload inspection p stage => exact copied_evidence hobjects answers.stage h
  | claiming => exact h
  | accepting inspection source => exact h
  | rejecting reason => exact h
  | returned outcome => exact h

theorem ask_creates (answers : Answers) :
    Creates objects (call.ask services answers s objects).1 := by
  obtain ⟨scope,uploadId,leaseOwner,phase,reports⟩ := call
  cases phase with
  | copying upload inspection p stage => exact step_creates answers.stage stage
  | _ => exact Or.inl rfl

/-- The transaction of a call's turn. -/
def transaction (answers : Answers) (call : Call) : Option UploadScopes.Action :=
  match call.phase with
  | .claiming => some (.claim answers.now call.scope call.uploadId call.leaseOwner)
  | .accepting inspection source =>
    some (.accept answers.now call.scope call.uploadId (call.acceptance inspection source))
  | .rejecting reason =>
    some (.reject answers.now call.scope call.uploadId call.leaseOwner reason)
  | _ => none

theorem transact_store {α : Type} (answers : Answers) (s : Store) (t : Transaction α) :
    (answers.transact s t).1 = s ∨ (answers.transact s t).1 = commit s t := by
  rw [Answers.transact]
  split
  · exact Or.inr rfl
  · exact Or.inl rfl

/-- A turn leaves the store alone, or it is the transaction of its phase. -/
theorem turn_store (answers : Answers) : (call.turn services answers s objects).1 = s ∨
    ∃ a, transaction answers call = some a ∧
      (call.turn services answers s objects).1 = UploadScopes.step s a := by
  obtain ⟨scope,uploadId,leaseOwner,phase,reports⟩ := call
  cases phase with
  | claiming =>
    exact (transact_store answers s _).imp_right fun hcommit => ⟨_,rfl,hcommit⟩
  | accepting inspection source =>
    exact (transact_store answers s _).imp_right fun hcommit => ⟨_,rfl,hcommit⟩
  | rejecting reason =>
    exact (transact_store answers s _).imp_right fun hcommit => ⟨_,rfl,hcommit⟩
  | _ => exact Or.inl rfl

theorem turn_creates (answers : Answers) :
    Creates objects (call.turn services answers s objects).2.1 := by
  obtain ⟨scope,uploadId,leaseOwner,phase,reports⟩ := call
  cases phase with
  | claiming => exact Or.inl rfl
  | accepting inspection source => exact Or.inl rfl
  | rejecting reason => exact Or.inl rfl
  | _ => exact ask_creates answers

theorem turn_evidence (hs : UploadLifecycle.Sound s) (hobjects : Versioned objects)
    (answers : Answers) (h : Evidence services s objects call call.phase) :
    let turned := call.turn services answers s objects
    Evidence services turned.1 turned.2.1 turned.2.2 turned.2.2.phase := by
  intro turned
  obtain ⟨scope,uploadId,leaseOwner,phase,reports⟩ := call
  cases phase with
  | claiming =>
    cases hclaim : (answers.transact s
        (claimUploadInspection s answers.now scope uploadId leaseOwner)).2 with
    | error e =>
      simp only [turned, Call.turn, hclaim]
      trivial
    | ok outcome =>
      simp only [turned, Call.turn, hclaim]
      cases outcome <;> first | exact h | trivial
  | accepting inspection source => trivial
  | rejecting reason => trivial
  | _ => exact ask_evidence hs hobjects answers h

end Kept

/-! ### The invariant -/

structure Inv (services : Services) (σ : System) : Prop where
  sound : UploadLifecycle.Sound σ.store
  versioned : Versioned σ.objects
  evidence : ∀ call ∈ σ.calls, Evidence services σ.store σ.objects call call.phase

theorem inv_start (services : Services) : Inv services start := by
  refine ⟨UploadLifecycle.sound_empty,⟨?_,?_⟩,?_⟩
  · exact fun o ho => absurd ho List.not_mem_nil
  · exact fun o ho => absurd ho List.not_mem_nil
  · exact fun call hcall => absurd hcall List.not_mem_nil

section Inv
variable {services : Services} {σ : System}

theorem Inv.store (h : Inv services σ) (a : UploadScopes.Action) :
    Inv services { σ with store := UploadScopes.step σ.store a } := by
  refine ⟨UploadLifecycle.step_sound σ.store a h.sound,h.versioned,?_⟩
  intro call hcall
  exact (h.evidence call hcall).mono (Extends.refl _) fun upload hloaded => hloaded.step h.sound a

theorem Inv.write (h : Inv services σ) (o : SourceObject) :
    Inv services { σ with objects := if numbered o then put σ.objects o else σ.objects } := by
  by_cases hnumbered : numbered o = true
  · rw [if_pos hnumbered]
    refine ⟨h.sound,⟨named_put h.versioned.named,?_⟩,?_⟩
    · intro x hx
      rcases mem_put hx with rfl | hm
      · exact hnumbered
      · exact h.versioned.numbered x hm
    · intro call hcall
      exact (h.evidence call hcall).mono (extends_put σ.objects o) fun _ => id
  · rw [if_neg hnumbered]
    exact h

theorem Inv.turn (h : Inv services σ) {call : Call} (hcall : call ∈ σ.calls) (i : ℕ)
    (answers : Answers) :
    let turned := call.turn services answers σ.store σ.objects
    Inv services ⟨turned.1,turned.2.1,σ.calls.set i turned.2.2⟩ := by
  intro turned
  have hcreates : Creates σ.objects turned.2.1 := turn_creates answers
  have hstore : turned.1 = σ.store ∨ ∃ a, transaction answers call = some a ∧
      turned.1 = UploadScopes.step σ.store a := turn_store answers
  have hsound : UploadLifecycle.Sound turned.1 := by
    rcases hstore with hsame | ⟨a,_,hstep⟩
    · exact hsame ▸ h.sound
    · exact hstep ▸ UploadLifecycle.step_sound σ.store a h.sound
  have hloaded : ∀ scope uploadId upload, Loaded σ.store scope uploadId upload →
      Loaded turned.1 scope uploadId upload := by
    intro scope uploadId upload hload
    rcases hstore with hsame | ⟨a,_,hstep⟩
    · exact hsame ▸ hload
    · exact hstep ▸ hload.step h.sound a
  refine ⟨hsound,hcreates.versioned h.versioned,?_⟩
  intro other hother
  rcases List.mem_or_eq_of_mem_set hother with hm | rfl
  · exact (h.evidence other hm).mono hcreates.extends (hloaded _ _)
  · exact turn_evidence h.sound h.versioned answers (h.evidence call hcall)

theorem step_inv (h : Inv services σ) (a : Action) : Inv services (step services σ a) := by
  cases a with
  | create now request => exact h.store (.create now request)
  | record now nowUtc scope uploadId record =>
    exact h.store (.record now nowUtc scope uploadId record)
  | write o => exact h.write o
  | process scope uploadId leaseOwner =>
    refine ⟨h.sound,h.versioned,?_⟩
    intro call hcall
    rcases List.mem_append.mp hcall with hm | hm
    · exact h.evidence call hm
    · rw [List.mem_singleton.mp hm]
      rfl
  | turn i answers =>
    simp only [step]
    cases hcall : σ.calls[i]? with
    | none => exact h
    | some call => exact h.turn (List.mem_of_getElem? hcall) i answers

end Inv

/-! ### The gate -/

/-- An acceptance writes a row which it may accept. -/
theorem accepted_row {s : Store} (hs : UploadLifecycle.Sound s) (a : UploadScopes.Action)
    {u' : UploadRow} (hu' : u' ∈ (UploadScopes.step s a).uploads)
    (hstatus : u'.status = .accepted) :
    u' ∈ s.uploads ∨ ∃ u ∈ s.uploads, ∃ now accept, a = .accept now u.scope u.uploadId accept ∧
      acceptable now accept u = true ∧ u' = markAccepted now accept u := by
  rcases UploadLifecycle.step_row hs a hu' with hm | ⟨now,request,_,rfl⟩ | ⟨u,hu,types,hchange⟩
  · exact Or.inl hm
  · cases hstatus
  · cases hchange with
    | recorded now nowUtc record hrecordable => cases hstatus
    | claimed now owner hclaimed => cases hstatus
    | renewed now owner hexisting =>
      have hinspecting := ((UploadLifecycle.claimOutcome_spec now owner u).2.1 hexisting).1
      exact absurd (hinspecting.symm.trans hstatus) nofun
    | exhausted now owner hexhausted => cases hstatus
    | accepted now accept hacceptable => exact Or.inr ⟨u,hu,now,accept,rfl,hacceptable,rfl⟩
    | rejected now owner reason hrejectable => cases hstatus

/-- A rejection writes a row which it may reject, or one whose attempts are spent. -/
theorem rejected_row {s : Store} (hs : UploadLifecycle.Sound s) (a : UploadScopes.Action)
    {u' : UploadRow} (hu' : u' ∈ (UploadScopes.step s a).uploads)
    (hstatus : u'.status = .rejected) :
    u' ∈ s.uploads ∨ ∃ u ∈ s.uploads,
      (∃ now owner reason, a = .reject now u.scope u.uploadId owner reason ∧
        rejectable now owner u = true ∧ u' = markRejected reason u) ∨
      ∃ now owner, a = .claim now u.scope u.uploadId owner ∧
        claimOutcome now owner u = .attemptsExhausted ∧
        u' = markRejected .inspectionAttemptsExhausted u := by
  rcases UploadLifecycle.step_row hs a hu' with hm | ⟨now,request,_,rfl⟩ | ⟨u,hu,types,hchange⟩
  · exact Or.inl hm
  · cases hstatus
  · cases hchange with
    | recorded now nowUtc record hrecordable => cases hstatus
    | claimed now owner hclaimed => cases hstatus
    | renewed now owner hexisting =>
      have hinspecting := ((UploadLifecycle.claimOutcome_spec now owner u).2.1 hexisting).1
      exact absurd (hinspecting.symm.trans hstatus) nofun
    | exhausted now owner hexhausted =>
      exact Or.inr ⟨u,hu,Or.inr ⟨now,owner,rfl,hexhausted,rfl⟩⟩
    | accepted now accept hacceptable => cases hstatus
    | rejected now owner reason hrejectable =>
      exact Or.inr ⟨u,hu,Or.inl ⟨now,owner,reason,rfl,hrejectable,rfl⟩⟩

/-- The services have all answered well, about the version which was recorded, and the
promoted version is a copy of it. -/
structure Cleared (services : Services) (objects : SourceObjects) (call : Call) (u : UploadRow)
    (scan : CleanScan) (inspection : ParserInspectionReport) (source : PromotedSource) : Prop where
  reports : call.reports = [.promoted source,
    .parsed scan.object.bytes u.expectedContentType inspection,
    .read scan.object scan.object.bytes,.scanned scan]
  recorded : u.verified.map (·.objectVersion) = some scan.object.version
  stored : object objects u.objectBucket u.objectName (some scan.object.version) =
    some scan.object
  received : ∃ frames, scan.received = some frames ∧ frames.flatten = scan.object.bytes
  digest : sha256Digest (services.sha256.digest scan.object.bytes) = u.expectedDigest
  promoted : ∃ copy, object objects source.bucket source.objectName (some source.generation) =
    some copy ∧ (copy.bytes = scan.object.bytes ∨
      Collision services.sha256 copy.bytes scan.object.bytes)

/-- A row of the call, whose lease it holds. -/
structure Held (σ : System) (i : ℕ) (now : ℤ) (call : Call) (u : UploadRow) : Prop where
  turns : σ.calls[i]? = some call
  row : u ∈ σ.store.uploads
  scope : u.scope = call.scope
  uploadId : u.uploadId = call.uploadId
  lease : UploadLifecycle.HoldsLease now call.leaseOwner u

inductive Accepts (services : Services) (σ : System) : Action → UploadRow → Prop
  | cleared (i : ℕ) (answers : Answers) (call : Call) (u : UploadRow) (scan : CleanScan)
      (inspection : ParserInspectionReport) (source : PromotedSource) :
      Held σ i answers.now call u → Cleared services σ.objects call u scan inspection source →
      Accepts services σ (.turn i answers)
        (markAccepted answers.now (call.acceptance inspection source) u)

inductive Rejects (σ : System) : Action → UploadRow → Prop
  | failed (i : ℕ) (answers : Answers) (call : Call) (u : UploadRow) (failure : Failure)
      (reports : List Report) (reason : UploadRejectionReason) :
      Held σ i answers.now call u → call.reports = .failed failure::reports →
      failure.reason = some reason → Rejects σ (.turn i answers) (markRejected reason u)
  | exhausted (i : ℕ) (answers : Answers) (u : UploadRow) : u ∈ σ.store.uploads →
      10 ≤ u.inspectionAttempts → leaseActive answers.now u = false →
      Rejects σ (.turn i answers) (markRejected .inspectionAttemptsExhausted u)

/-- A row is accepted by a call which is cleared, and rejected by a call which has
failed for the reason or by a claim of spent attempts. -/
structure Gated (services : Services) (σ : System) (a : Action) : Prop where
  accepted : ∀ u' ∈ (step services σ a).store.uploads, u'.status = .accepted →
    u' ∈ σ.store.uploads ∨ Accepts services σ a u'
  rejected : ∀ u' ∈ (step services σ a).store.uploads, u'.status = .rejected →
    u' ∈ σ.store.uploads ∨ Rejects σ a u'

section Gate
variable {services : Services} {σ : System}

theorem accept_cleared (h : Inv services σ) {i : ℕ} {call : Call} (hcall : σ.calls[i]? = some call)
    {inspection : ParserInspectionReport} {source : PromotedSource}
    (hphase : call.phase = .accepting inspection source) {u : UploadRow}
    (hu : u ∈ σ.store.uploads) (hid : u.uploadId = call.uploadId) :
    ∃ scan, Cleared services σ.objects call u scan inspection source := by
  have hevidence := h.evidence call (List.mem_of_getElem? hcall)
  rw [hphase] at hevidence
  obtain ⟨upload,scan,hverified,hpromoted,hreports⟩ := hevidence
  obtain ⟨x,hx,_,hxid,_,hnames⟩ := hverified.loaded
  have hsame : x = u := Table.eq_of_key h.sound.keys hx hu (hxid.trans hid.symm)
  rw [hsame] at hnames
  obtain ⟨hversion,hobject⟩ := hverified.scanned.pinned
  refine ⟨scan,?_,?_,?_,hverified.scanned.received,?_,hpromoted.copy⟩
  · rw [hreports, parsedReports, hnames.contentType]
  · rw [← hnames.version, hversion]
  · rw [← hnames.bucket, ← hnames.name, hobject]
  · rw [← hnames.digest, hverified.digest]

theorem transaction_accept {answers : Answers} {call : Call} {now : ℤ} {scope : Scope}
    {uploadId : UploadId} {accept : AcceptUpload}
    (h : transaction answers call = some (.accept now scope uploadId accept)) :
    ∃ inspection source, call.phase = .accepting inspection source ∧ now = answers.now ∧
      scope = call.scope ∧ uploadId = call.uploadId ∧
      accept = call.acceptance inspection source := by
  rw [transaction] at h
  split at h
  · cases h
  · rename_i inspection source hphase
    cases h
    exact ⟨inspection,source,hphase,rfl,rfl,rfl,rfl⟩
  · cases h
  · cases h

theorem transaction_reject {answers : Answers} {call : Call} {now : ℤ} {scope : Scope}
    {uploadId : UploadId} {owner : String} {reason : UploadRejectionReason}
    (h : transaction answers call = some (.reject now scope uploadId owner reason)) :
    call.phase = .rejecting reason ∧ now = answers.now ∧ scope = call.scope ∧
      uploadId = call.uploadId ∧ owner = call.leaseOwner := by
  rw [transaction] at h
  split at h
  · cases h
  · cases h
  · rename_i reason' hphase
    cases h
    exact ⟨hphase,rfl,rfl,rfl,rfl⟩
  · cases h

theorem transaction_claim {answers : Answers} {call : Call} {now : ℤ} {scope : Scope}
    {uploadId : UploadId} {owner : String}
    (h : transaction answers call = some (.claim now scope uploadId owner)) :
    now = answers.now := by
  rw [transaction] at h
  split at h
  · cases h
    rfl
  all_goals cases h

theorem turn_gated (h : Inv services σ) {i : ℕ} {call : Call} (hcall : σ.calls[i]? = some call)
    (answers : Answers) : Gated services σ (.turn i answers) := by
  have hnext : (step services σ (.turn i answers)).store =
      (call.turn services answers σ.store σ.objects).1 := by
    simp only [step, hcall]
  have hstore : (call.turn services answers σ.store σ.objects).1 = σ.store ∨
      ∃ a, transaction answers call = some a ∧
        (call.turn services answers σ.store σ.objects).1 = UploadScopes.step σ.store a :=
    turn_store answers
  rcases hstore with hsame | ⟨a,ha,hstep⟩
  · rw [hsame] at hnext
    exact ⟨fun u' hu' _ => Or.inl (hnext ▸ hu'),fun u' hu' _ => Or.inl (hnext ▸ hu')⟩
  rw [hstep] at hnext
  constructor
  · intro u' hu' hstatus
    rw [hnext] at hu'
    rcases accepted_row h.sound a hu' hstatus with hm | ⟨u,hu,now,accept,rfl,hacceptable,rfl⟩
    · exact Or.inl hm
    · obtain ⟨inspection,source,hphase,rfl,hscope,hid,rfl⟩ := transaction_accept ha
      obtain ⟨scan,hcleared⟩ := accept_cleared h hcall hphase hu hid
      simp only [acceptable, Bool.and_eq_true, beq_iff_eq] at hacceptable
      have hlease : UploadLifecycle.HoldsLease answers.now call.leaseOwner u :=
        ⟨hacceptable.1.2,UploadLifecycle.leaseActive_iff.mp hacceptable.2⟩
      exact Or.inr (.cleared i answers call u scan inspection source
        ⟨hcall,hu,hscope,hid,hlease⟩ hcleared)
  · intro u' hu' hstatus
    rw [hnext] at hu'
    rcases rejected_row h.sound a hu' hstatus with
      hm | ⟨u,hu,⟨now,owner,reason,rfl,hrejectable,rfl⟩ | ⟨now,owner,rfl,hexhausted,rfl⟩⟩
    · exact Or.inl hm
    · obtain ⟨hphase,rfl,hscope,hid,rfl⟩ := transaction_reject ha
      have hevidence := h.evidence call (List.mem_of_getElem? hcall)
      rw [hphase] at hevidence
      obtain ⟨failure,reports,hreports,hreason⟩ := hevidence
      simp only [rejectable, Bool.and_eq_true, beq_iff_eq] at hrejectable
      have hlease : UploadLifecycle.HoldsLease answers.now call.leaseOwner u :=
        ⟨hrejectable.1.2,UploadLifecycle.leaseActive_iff.mp hrejectable.2⟩
      exact Or.inr (.failed i answers call u failure reports reason
        ⟨hcall,hu,hscope,hid,hlease⟩ hreports hreason)
    · obtain rfl := transaction_claim ha
      obtain ⟨_,hexpired,hspent⟩ := (UploadLifecycle.claimOutcome_spec answers.now owner u).2.2
        hexhausted
      exact Or.inr (.exhausted i answers u hu hspent hexpired)

/-- Creating and recording end no inspection. -/
theorem intake_kept {s : Store} (hs : UploadLifecycle.Sound s) {a : UploadScopes.Action}
    (ha : (∃ now request, a = .create now request) ∨
      ∃ now nowUtc scope uploadId record, a = .record now nowUtc scope uploadId record)
    {u' : UploadRow} (hu' : u' ∈ (UploadScopes.step s a).uploads)
    (hstatus : u'.status = .accepted ∨ u'.status = .rejected) : u' ∈ s.uploads := by
  rcases hstatus with hstatus | hstatus
  · rcases accepted_row hs a hu' hstatus with hm | ⟨_,_,_,_,rfl,_,_⟩
    · exact hm
    · rcases ha with ⟨_,_,heq⟩ | ⟨_,_,_,_,_,heq⟩
      · cases heq
      · cases heq
  · rcases rejected_row hs a hu' hstatus with hm | ⟨_,_,⟨_,_,_,rfl,_,_⟩ | ⟨_,_,rfl,_,_⟩⟩
    · exact hm
    all_goals
      rcases ha with ⟨_,_,heq⟩ | ⟨_,_,_,_,_,heq⟩
      · cases heq
      · cases heq

/-- Nothing but a turn of a call ends an inspection. -/
theorem step_gated (h : Inv services σ) (a : Action) : Gated services σ a := by
  cases a with
  | create now request =>
    exact ⟨fun u' hu' hstatus => Or.inl (intake_kept h.sound (Or.inl ⟨now,request,rfl⟩) hu'
        (Or.inl hstatus)),
      fun u' hu' hstatus => Or.inl (intake_kept h.sound (Or.inl ⟨now,request,rfl⟩) hu'
        (Or.inr hstatus))⟩
  | record now nowUtc scope uploadId record =>
    exact ⟨fun u' hu' hstatus => Or.inl (intake_kept h.sound
        (Or.inr ⟨now,nowUtc,scope,uploadId,record,rfl⟩) hu' (Or.inl hstatus)),
      fun u' hu' hstatus => Or.inl (intake_kept h.sound
        (Or.inr ⟨now,nowUtc,scope,uploadId,record,rfl⟩) hu' (Or.inr hstatus))⟩
  | write o => exact ⟨fun u' hu' _ => Or.inl hu',fun u' hu' _ => Or.inl hu'⟩
  | process scope uploadId leaseOwner =>
    exact ⟨fun u' hu' _ => Or.inl hu',fun u' hu' _ => Or.inl hu'⟩
  | turn i answers =>
    cases hcall : σ.calls[i]? with
    | none =>
      have hsame : step services σ (.turn i answers) = σ := by simp only [step, hcall]
      exact ⟨fun u' hu' _ => Or.inl (hsame ▸ hu'),fun u' hu' _ => Or.inl (hsame ▸ hu')⟩
    | some call => exact turn_gated h hcall answers

end Gate

/-! ### Calls which report that a service is unavailable -/

/-- The call may still report that it is retryable. -/
def retries : Phase → Bool
  | .finding | .accepting _ _ | .rejecting _ => false
  | .returned (.ok .retryable) => true
  | .returned _ => false
  | _ => true

/-- A turn of the call leaves the row inspecting for its owner, without an event, when it
is the claim; another one leaves the store. -/
def Leaves (services : Services) (i : ℕ) (σ : System) (a : Action) : Prop :=
  ∀ answers call, a = .turn i answers → σ.calls[i]? = some call →
    (step services σ a).store.uploadOutbox = σ.store.uploadOutbox ∧
    (call.phase = .claiming → ∃ u ∈ (step services σ a).store.uploads, u.scope = call.scope ∧
      u.uploadId = call.uploadId ∧ u.status = .inspecting ∧
      u.inspectionLeaseOwner = some call.leaseOwner) ∧
    (call.phase ≠ .claiming → (step services σ a).store = σ.store)

section Retryable
variable {services : Services} {s : Store} {objects : SourceObjects} {call : Call}

theorem retries_map {α : Type} {f : α → ImportOutcome} (hf : ∀ a, f a ≠ .retryable)
    (result : Except Schema.Error α) : retries (.returned (result.map f)) = false := by
  cases result with
  | error e => rfl
  | ok a =>
    have hother := hf a
    rw [Except.map]
    cases houtcome : f a with
    | retryable => exact absurd houtcome hother
    | _ => rfl

theorem found_ne (upload : Option StoredUpload) : found upload ≠ .retryable := by
  cases upload with
  | none => nofun
  | some upload =>
    rw [found]
    cases upload.state <;> nofun

/-- A call which may still be retryable was so before its turn. -/
theorem turn_retries (answers : Answers)
    (h : retries (call.turn services answers s objects).2.2.phase = true) :
    retries call.phase = true := by
  obtain ⟨scope,uploadId,leaseOwner,phase,reports⟩ := call
  cases phase with
  | finding => exact absurd h (Bool.eq_false_iff.mp (retries_map found_ne _))
  | accepting inspection source =>
    have hne : ∀ outcome, accepted outcome ≠ .retryable := fun outcome => by
      cases outcome <;> nofun
    exact absurd h (Bool.eq_false_iff.mp (retries_map hne _))
  | rejecting reason =>
    have hne : ∀ outcome, rejected outcome ≠ .retryable := fun outcome => by
      cases outcome <;> nofun
    exact absurd h (Bool.eq_false_iff.mp (retries_map hne _))
  | returned outcome => exact h
  | _ => rfl

/-- A claim which goes on holds the row, and adds no event. -/
theorem claim_leaves {now : ℤ} {scope : Scope} {uploadId : UploadId} {owner : String}
    {outcome : ClaimUploadInspectionOutcome} {s' : Store}
    (h : claimUploadInspection s now scope uploadId owner = .ok (outcome,s'))
    (hretries : retries (claimed outcome) = true) :
    s'.uploadOutbox = s.uploadOutbox ∧ ∃ u ∈ s'.uploads, u.scope = scope ∧
      u.uploadId = uploadId ∧ u.status = .inspecting ∧ u.inspectionLeaseOwner = some owner := by
  rw [claimUploadInspection] at h
  split at h
  · cases h
  split at h
  · cases h
    cases hretries
  · rename_i u hfind
    obtain ⟨hu,hkey⟩ := Table.mem_of_find? hfind
    obtain ⟨hscope,hid⟩ := (UploadScopes.isUpload_iff _ _ _).mp hkey
    split at h
    · cases h
      exact ⟨rfl,_,Table.mem_update_changed hu hkey,hscope,hid,rfl,rfl⟩
    · rename_i hexisting
      cases h
      obtain ⟨hstatus,howner⟩ := (UploadLifecycle.claimOutcome_spec now owner u).2.1 hexisting
      have hselected :
          (isUpload scope uploadId u && u.inspectionLeaseOwner == some owner) = true := by
        rw [hkey, howner, beq_self_eq_true, Bool.and_self]
      exact ⟨rfl,_,Table.mem_update_changed hu hselected,hscope,hid,hstatus,howner⟩
    · cases h
      cases hretries
    · rename_i outcome' hnot hnot' hnot''
      cases h
      cases houtcome : claimOutcome now owner u <;> simp_all [claimed, retries]

theorem turn_leaves (answers : Answers)
    (h : retries (call.turn services answers s objects).2.2.phase = true) :
    let s' := (call.turn services answers s objects).1
    s'.uploadOutbox = s.uploadOutbox ∧
    (call.phase = .claiming → ∃ u ∈ s'.uploads, u.scope = call.scope ∧
      u.uploadId = call.uploadId ∧ u.status = .inspecting ∧
      u.inspectionLeaseOwner = some call.leaseOwner) ∧
    (call.phase ≠ .claiming → s' = s) := by
  intro s'
  have hretries := turn_retries answers h
  obtain ⟨scope,uploadId,leaseOwner,phase,reports⟩ := call
  cases phase with
  | claiming =>
    simp only [s', Call.turn, Answers.transact] at h ⊢
    cases hcommitted : answers.committed with
    | false =>
      rw [hcommitted] at h
      cases h
    | true =>
      rw [hcommitted] at h
      cases hanswered : answers.answered with
      | false =>
        rw [hanswered] at h
        cases h
      | true =>
        rw [hanswered] at h
        cases hclaim : claimUploadInspection s answers.now scope uploadId leaseOwner with
        | error e =>
          rw [hclaim] at h
          cases h
        | ok result =>
          obtain ⟨outcome,store⟩ := result
          rw [hclaim] at h
          obtain ⟨houtbox,hrow⟩ := claim_leaves hclaim h
          exact ⟨houtbox,fun _ => hrow,fun hne => absurd rfl hne⟩
  | accepting inspection source => cases hretries
  | rejecting reason => cases hretries
  | _ => exact ⟨rfl,nofun,fun _ => rfl⟩

/-- The call may still report that it is retryable, or it has not begun. -/
def Retries (i : ℕ) (σ : System) : Prop :=
  ∀ call, σ.calls[i]? = some call → retries call.phase = true

theorem step_retries {i : ℕ} {σ : System} (a : Action) (h : Retries i (step services σ a)) :
    Retries i σ := by
  intro call hcall
  have hlt : i < σ.calls.length := (List.getElem?_eq_some_iff.mp hcall).1
  cases a with
  | create now request => exact h call hcall
  | record now nowUtc scope uploadId record => exact h call hcall
  | write o => exact h call hcall
  | process scope uploadId leaseOwner =>
    apply h call
    simp only [step]
    rwa [List.getElem?_append_left hlt]
  | turn j answers =>
    simp only [Retries, step] at h
    cases hturn : σ.calls[j]? with
    | none =>
      rw [hturn] at h
      exact h call hcall
    | some other =>
      rw [hturn] at h
      by_cases hsame : j = i
      · rw [hsame, hcall, Option.some.injEq] at hturn
        rw [← hturn] at h
        exact turn_retries answers (h _ (by rw [hsame, List.getElem?_set_self hlt]))
      · exact h call (by simp only [List.getElem?_set_ne hsame, hcall])

theorem step_leaves {i : ℕ} {σ : System} (a : Action) (h : Retries i (step services σ a)) :
    Leaves services i σ a := by
  rintro answers call rfl hcall
  have hlt : i < σ.calls.length := (List.getElem?_eq_some_iff.mp hcall).1
  simp only [Retries, step, hcall] at h ⊢
  exact turn_leaves answers (h _ (List.getElem?_set_self hlt))

end Retryable

/-- Uploads are accepted and rejected through the gate, and a call which reports that a
service is unavailable has left its upload inspecting. -/
structure Safe (services : Services) (as : List Action) : Prop where
  gated : Along (step services) (Gated services) start as
  left : ∀ i call, (run (step services) start as).calls[i]? = some call →
    call.phase = .returned (.ok .retryable) → Along (step services) (Leaves services i) start as

theorem process_safe (services : Services) (as : List Action) : Safe services as := by
  constructor
  · have hinv : ∀ σ a, Inv services σ → Inv services (step services σ a) :=
      fun _ a h => step_inv h a
    exact along_of_invariant hinv (fun _ a h => step_gated h a) (inv_start services) as
  · intro i call hcall hphase
    have hretries : Retries i (run (step services) start as) := by
      intro call' hcall'
      rw [hcall, Option.some.injEq] at hcall'
      rw [← hcall', hphase]
      rfl
    exact along_of_run (fun _ a => step_retries a) (fun _ a => step_leaves a) hretries

end DocumentIntelligence.InspectionGate
