import DocumentIntelligence.TenantRows

/-!
# Tenant noninterference

Two databases with the same rows of a scope answer every operation of the scope alike. What
the operation changes of these rows it changes alike too, up to the identities which the
database hands out, and it changes no row of another scope.
-/

set_option autoImplicit false

namespace DocumentIntelligence.TenantNoninterference
open Identifiers hiding Error
open Schema Uploads Jobs NativePages
open TableParts TenantOperations TenantRows
open DocumentResults (BuiltPage)

def forgetDocument (next : ℕ) (row : NativeDocumentRow) : NativeDocumentRow :=
  { row with nativeDocumentId := forget next row.nativeDocumentId }

def forgetPage (next : ℕ) (row : NativePageRow) : NativePageRow :=
  { row with nativeDocumentId := forget next row.nativeDocumentId }

/-- The rows of a scope. -/
def rows (scope : Scope) (d : Database) : Database where
  store := storeRows scope d.store
  nativeDocuments := part (·.scope) scope d.nativeDocuments
  nativePages := part (·.scope) scope d.nativePages
  nextDocumentId := 0

/-- The identities which were handed out since `before` are made equal. -/
def forgetIdentities (before d : Database) : Database where
  store := forgetStore before.store d.store
  nativeDocuments := d.nativeDocuments.map (forgetDocument before.nextDocumentId)
  nativePages := d.nativePages.map (forgetPage before.nextDocumentId)
  nextDocumentId := d.nextDocumentId

/-- What the constraints of the schema say. Identities are positive and below the next one. -/
structure DatabaseConstrained (d : Database) : Prop where
  store : Constrained d.store
  documents : ∀ n ∈ d.nativeDocuments, ∃ job ∈ d.store.jobs, isJob n.scope n.jobId job = true
  documentIds : ∀ n ∈ d.nativeDocuments, 0 < n.nativeDocumentId ∧
    n.nativeDocumentId < d.nextDocumentId
  nextDocument : 0 < d.nextDocumentId
  pages : ∀ p ∈ d.nativePages, ∃ n ∈ d.nativeDocuments,
    n.nativeDocumentId = p.nativeDocumentId ∧ n.scope = p.scope

structure DatabaseMirrors (scope : Scope) (before whole mine : Database) : Prop where
  store : StoreMirrors scope before.store whole.store mine.store
  documents : Mirrors (·.scope) (forgetDocument before.nextDocumentId) scope
    before.nativeDocuments whole.nativeDocuments mine.nativeDocuments
  pages : Mirrors (·.scope) (forgetPage before.nextDocumentId) scope
    before.nativePages whole.nativePages mine.nativePages

/-! ### What mirrors are for -/

section Mirrors
variable {d d' m : Database} {scope : Scope}

theorem storeRows_mirrors {s s' m : Store} (h : StoreMirrors scope s s' m) :
    storeRows scope m = forgetStore s (storeRows scope s') := by
  simp only [storeRows, forgetStore, h.uploads.own, h.uploadOutbox.own, h.jobs.own, h.outbox.own,
    h.results.own, h.pageWorkflows.own, h.pageArtifacts.own, h.workScopes.own, List.map_id]

theorem storeRows_kept {s s' m : Store} (h : StoreMirrors scope s s' m) {other : Scope}
    (hother : other ≠ scope) : storeRows other s' = storeRows other s := by
  simp only [storeRows, h.uploads.kept other hother, h.uploadOutbox.kept other hother,
    h.jobs.kept other hother, h.outbox.kept other hother, h.results.kept other hother,
    h.pageWorkflows.kept other hother, h.pageArtifacts.kept other hother,
    h.workScopes.kept other hother]

theorem rows_mirrors (h : DatabaseMirrors scope d d' m) :
    rows scope m = forgetIdentities d (rows scope d') := by
  simp only [rows, forgetIdentities, storeRows_mirrors h.store, h.documents.own, h.pages.own]

theorem rows_kept (h : DatabaseMirrors scope d d' m) {other : Scope} (hother : other ≠ scope) :
    rows other d' = rows other d := by
  simp only [rows, storeRows_kept h.store hother, h.documents.kept other hother,
    h.pages.kept other hother]

theorem kept (h : DatabaseConstrained d) (scope : Scope) :
    DatabaseMirrors scope d d (rows scope d) where
  store := mirrors_kept h.store scope
  documents := mirrors_refl fun n hn =>
    congrArg (fun i => { n with nativeDocumentId := i }) (forget_old (h.documentIds n hn).2)
  pages := mirrors_refl fun p hp => by
    obtain ⟨n,hn,hid,_⟩ := h.pages p hp
    have hnext := (h.documentIds n hn).2
    exact congrArg (fun i => { p with nativeDocumentId := i }) (forget_old (hid ▸ hnext))

end Mirrors

/-! ### Native pages -/

section NativePages
variable {d d' m : Database} {scope : Scope} (codec : PageCodec)

theorem sourceUpload_rows (s : Store) (scope : Scope) (jobId : JobId) :
    sourceUpload (storeRows scope s) scope jobId = sourceUpload s scope jobId := by
  simp only [sourceUpload, find_job, find_isUpload]

theorem sourceDigest_rows (s : Store) (scope : Scope) (jobId : JobId) :
    sourceDigest (storeRows scope s) scope jobId = sourceDigest s scope jobId := by
  rw [NativePages.sourceDigest, sourceUpload_rows, NativePages.sourceDigest]

theorem isSourceDocument_rows (s : Store) (scope : Scope) (jobId : JobId) (profile : String) :
    isSourceDocument (storeRows scope s) scope jobId profile =
      isSourceDocument s scope jobId profile := by
  funext n
  rw [isSourceDocument, sourceDigest_rows, isSourceDocument]

theorem isNativeDocument_owner {jobId : JobId} {n : NativeDocumentRow}
    (h : isNativeDocument scope jobId n = true) : n.scope = scope := by
  rw [isNativeDocument, Bool.and_eq_true, beq_iff_eq, beq_iff_eq] at h
  exact h.2

theorem isSourceDocument_owner {s : Store} {jobId : JobId} {profile : String}
    {n : NativeDocumentRow} (h : isSourceDocument s scope jobId profile n = true) :
    n.scope = scope := by
  rw [isSourceDocument, Bool.and_eq_true, Bool.and_eq_true] at h
  exact isNativeDocument_owner h.1.1

/-- The identities which a transaction meets: those before it, and the next one. -/
structure Handed (next : ℕ) (d : Database) : Prop where
  documents : ∀ n ∈ d.nativeDocuments, 0 < n.nativeDocumentId ∧ n.nativeDocumentId ≤ next
  pages : ∀ p ∈ d.nativePages, 0 < p.nativeDocumentId ∧ p.nativeDocumentId ≤ next

theorem handed (h : DatabaseConstrained d) : Handed d.nextDocumentId d := by
  constructor
  · exact fun n hn => ⟨(h.documentIds n hn).1,(h.documentIds n hn).2.le⟩
  · intro p hp
    obtain ⟨n,hn,hid,_⟩ := h.pages p hp
    rw [← hid]
    exact ⟨(h.documentIds n hn).1,(h.documentIds n hn).2.le⟩

/-- A page still joins its document when the new identity is forgotten in both. -/
theorem forget_inj {next a b : ℕ} (ha : 0 < a ∧ a ≤ next) (hb : 0 < b ∧ b ≤ next) :
    (forget next a == forget next b) = (a == b) := by
  rw [Bool.eq_iff_iff, beq_iff_eq, beq_iff_eq, forget, forget]
  split <;> split <;> omega

/-- The identities have no part in the order of the pages. -/
theorem map_sorted (next : ℕ) (joined : List (NativeDocumentRow×NativePageRow)) :
    (joined.mergeSort fun a b => decide (a.2.pageNumber ≤ b.2.pageNumber)).map
        (Prod.map (forgetDocument next) (forgetPage next)) =
      (joined.map (Prod.map (forgetDocument next) (forgetPage next))).mergeSort
        fun a b => decide (a.2.pageNumber ≤ b.2.pageNumber) :=
  List.map_mergeSort fun _ _ _ _ => rfl

theorem nativeRows_mirrors (h : DatabaseMirrors scope d d' m) (hids : Handed d.nextDocumentId d')
    (hstore : d'.store = d.store) (hmine : m.store = storeRows scope d.store) (jobId : JobId)
    (profile : String) (digest : Option String) :
    nativeRows m.store m.nativeDocuments m.nativePages scope jobId profile digest =
      (nativeRows d'.store d'.nativeDocuments d'.nativePages scope jobId profile digest).map
        (Prod.map (forgetDocument d.nextDocumentId) (forgetPage d.nextDocumentId)) := by
  have hdocuments := h.documents.filter_eq
    (p := fun n => isSourceDocument d.store scope jobId profile n &&
      digest.all (· == n.sourceDigest))
    (q := fun n => isSourceDocument d.store scope jobId profile n &&
      digest.all (· == n.sourceDigest))
    (fun n hn => isSourceDocument_owner (Bool.and_eq_true _ _ ▸ hn).1)
    (fun n hn => isSourceDocument_owner (Bool.and_eq_true _ _ ▸ hn).1) fun _ _ => rfl
  rw [nativeRows, nativeRows, hmine, hstore, isSourceDocument_rows, hdocuments, List.flatMap_map,
    map_sorted, List.map_flatMap]
  congr 1
  apply List.flatMap_congr
  intro n hn
  obtain ⟨hmem,hsource⟩ := List.mem_filter.mp hn
  rw [Bool.and_eq_true] at hsource
  have hscope := isSourceDocument_owner hsource.1
  have hpages := h.pages.filter_eq
    (p := fun p => p.nativeDocumentId == n.nativeDocumentId && p.scope == n.scope)
    (q := fun p => p.nativeDocumentId == (forgetDocument d.nextDocumentId n).nativeDocumentId &&
      p.scope == (forgetDocument d.nextDocumentId n).scope)
    (fun p hp => by
      rw [Bool.and_eq_true, beq_iff_eq, beq_iff_eq] at hp
      exact hp.2.trans hscope)
    (fun p hp => by
      rw [Bool.and_eq_true, beq_iff_eq, beq_iff_eq] at hp
      exact hp.2.trans hscope)
    fun p hp => congrArg (· && p.scope == n.scope)
      (forget_inj (hids.pages p hp) (hids.documents n hmem))
  rw [hpages, List.map_map, List.map_map]
  rfl

theorem readRows_map (next total : ℕ) (pages : List BuiltPage) (count : ℕ)
    (joined : List (NativeDocumentRow×NativePageRow)) :
    readRows total pages count (joined.map (Prod.map (forgetDocument next) (forgetPage next))) =
      readRows total pages count joined := by
  induction joined generalizing pages count with
  | nil => rfl
  | cons row joined ih =>
    obtain ⟨n,p⟩ := row
    have hcount : (forgetDocument next n).pageCount = n.pageCount := rfl
    have hdata : (forgetPage next p).pageData = p.pageData := rfl
    simp only [List.map_cons, Prod.map_apply, readRows, hcount, hdata, ih]

theorem loadPages_mirrors (h : DatabaseMirrors scope d d' m) (hids : Handed d.nextDocumentId d')
    (hstore : d'.store = d.store) (hmine : m.store = storeRows scope d.store) (jobId : JobId)
    (profile : String) (digest : Option String) :
    TenantOperations.loadNativePages codec m scope jobId profile digest =
      TenantOperations.loadNativePages codec d' scope jobId profile digest := by
  simp only [TenantOperations.loadNativePages, loadPages,
    nativeRows_mirrors h hids hstore hmine, List.map_map]
  rw [readRows_map]
  rfl

theorem loadNativePage_rows (h : DatabaseConstrained d) (jobId : JobId) (profile : String)
    (page : ℕ) :
    TenantOperations.loadNativePage codec (rows scope d) scope jobId profile page =
      TenantOperations.loadNativePage codec d scope jobId profile page := by
  have hrows := nativeRows_mirrors (kept h scope) (handed h) rfl rfl jobId profile none
  simp only [TenantOperations.loadNativePage, hrows, List.find?_map]
  have hpage : ((fun row : NativeDocumentRow×NativePageRow => row.2.pageNumber == page) ∘
      Prod.map (forgetDocument d.nextDocumentId) (forgetPage d.nextDocumentId)) =
      fun row => row.2.pageNumber == page := rfl
  rw [hpage]
  cases (nativeRows d.store d.nativeDocuments d.nativePages scope jobId profile none).find?
      fun row => row.2.pageNumber == page with
  | none => rfl
  | some row => rfl

theorem loadNativeDurationMs_rows (jobId : JobId) (profile : String) :
    loadNativeDurationMs (rows scope d).store (rows scope d).nativeDocuments scope jobId profile =
      loadNativeDurationMs d.store d.nativeDocuments scope jobId profile := by
  have hfind : (rows scope d).nativeDocuments.find? (isSourceDocument d.store scope jobId profile) =
      d.nativeDocuments.find? (isSourceDocument d.store scope jobId profile) :=
    find?_part fun _ _ => isSourceDocument_owner
  rw [loadNativeDurationMs, loadNativeDurationMs, ← hfind]
  exact congrArg (fun p => ((rows scope d).nativeDocuments.find? p).map (·.durationMs))
    (isSourceDocument_rows d.store scope jobId profile)

theorem clearNativePages_mirrors (h : DatabaseConstrained d) (jobId : JobId) :
    DatabaseMirrors scope d (TenantOperations.clearNativePages d scope jobId)
      (TenantOperations.clearNativePages (rows scope d) scope jobId) := by
  have hkept := kept h scope
  constructor
  · exact hkept.store
  · apply hkept.documents.filter
    · intro n _ hn
      rw [Bool.not_eq_false'] at hn
      exact isNativeDocument_owner hn
    · exact fun _ _ _ => rfl
  · apply hkept.pages.filter
    · intro p _ hp
      rw [Bool.not_eq_false', List.any_eq_true] at hp
      obtain ⟨n,_,hn⟩ := hp
      rw [Bool.and_eq_true, Bool.and_eq_true, beq_iff_eq, beq_iff_eq] at hn
      exact hn.2.symm.trans (isNativeDocument_owner hn.1.1)
    · intro p hp _
      obtain ⟨old,hold,hid,_⟩ := h.pages p hp
      have hforget : (forgetPage d.nextDocumentId p).nativeDocumentId = p.nativeDocumentId :=
        forget_old (hid ▸ (h.documentIds old hold).2)
      have hany : ((rows scope d).nativeDocuments.any fun n => isNativeDocument scope jobId n &&
          n.nativeDocumentId == p.nativeDocumentId && n.scope == p.scope) =
          d.nativeDocuments.any fun n => isNativeDocument scope jobId n &&
            n.nativeDocumentId == p.nativeDocumentId && n.scope == p.scope := by
        apply any_part
        intro n _ hn
        rw [Bool.and_eq_true, Bool.and_eq_true] at hn
        exact isNativeDocument_owner hn.1.1
      rw [hforget, ← hany]
      rfl

theorem acceptedSource_rows (s : Store) (scope : Scope) (jobId : JobId) :
    acceptedSource (storeRows scope s) scope jobId = acceptedSource s scope jobId := by
  rw [acceptedSource, sourceUpload_rows, acceptedSource]

/-- A request which selects its source names a job of its scope. -/
theorem job_of_selects {s : Store} {request : SaveNativePages} (h : selects s request = true) :
    ∃ job, s.jobs.find? (isJob request.scope request.jobId) = some job := by
  rw [← Option.isSome_iff_exists, Option.isSome_iff_ne_none]
  intro hnone
  rw [selects, acceptedSource, sourceUpload, hnone] at h
  cases h

theorem pageRows_map (next : ℕ) (scope : Scope) (pages : List BuiltPage) :
    pages.mapM (pageRow codec 0 scope) =
      (pages.mapM (pageRow codec next scope)).map (List.map (forgetPage next)) := by
  induction pages with
  | nil => rfl
  | cons page pages ih =>
    rw [List.mapM_cons, List.mapM_cons, ih, pageRow, pageRow]
    cases storedPage codec page with
    | none => rfl
    | some data =>
      cases pages.mapM (pageRow codec next scope) with
      | none => rfl
      | some inserted =>
        have hrow : forgetPage next ⟨next,scope,page.page,data⟩ = ⟨0,scope,page.page,data⟩ :=
          congrArg (fun i => (⟨i,scope,page.page,data⟩ : NativePageRow)) (forget_new next)
        simp [hrow]

/-- The databases between the insert of a document and the load of its pages. -/
structure Inserted (scope : Scope) (d d' m : Database) : Prop where
  mirrors : DatabaseMirrors scope d d' m
  handed : Handed d.nextDocumentId d'
  store : d'.store = d.store
  mine : m.store = storeRows scope d.store

theorem newDocument_rows (d : Database) (now : ℤ) (request : SaveNativePages) :
    forgetDocument d.nextDocumentId (newDocument d.store d.nextDocumentId now request) =
      newDocument (storeRows request.scope d.store) 0 now request := by
  simp only [forgetDocument, newDocument, forget_new, elapsedMs, find_job]

theorem pageRows_owner {next : ℕ} {pages : List BuiltPage} {inserted : List NativePageRow}
    (h : pages.mapM (pageRow codec next scope) = some inserted) :
    ∀ p ∈ inserted, p.nativeDocumentId = next ∧ p.scope = scope := by
  have hrows := Table.mapM_some_iff.mp h
  induction hrows with
  | nil => exact fun p hp => absurd hp List.not_mem_nil
  | cons hrow hrest ih =>
    rw [pageRow, Option.map_eq_some_iff] at hrow
    obtain ⟨data,_,rfl⟩ := hrow
    intro p hp
    rcases List.mem_cons.mp hp with rfl | hp
    · exact ⟨rfl,rfl⟩
    · exact ih (Table.mapM_some_iff.mpr hrest) p hp

theorem inserted_rows (h : DatabaseConstrained d) (now : ℤ) (request : SaveNativePages)
    {inserted : List NativePageRow}
    (hrows : request.pages.mapM (pageRow codec d.nextDocumentId request.scope) = some inserted) :
    Inserted request.scope d
      { d with
        nativeDocuments := d.nativeDocuments++[newDocument d.store d.nextDocumentId now request]
        nativePages := d.nativePages++inserted
        nextDocumentId := d.nextDocumentId+1 }
      { rows request.scope d with
        nativeDocuments := (rows request.scope d).nativeDocuments++
          [newDocument (storeRows request.scope d.store) 0 now request]
        nativePages := (rows request.scope d).nativePages++
          inserted.map (forgetPage d.nextDocumentId)
        nextDocumentId := 1 } := by
  have hkept := kept h request.scope
  have howner := pageRows_owner codec hrows
  have hids := handed h
  constructor
  · constructor
    · exact hkept.store
    · exact hkept.documents.append rfl rfl (newDocument_rows d now request)
    · exact hkept.pages.append_all inserted (fun p hp => (howner p hp).2) fun p hp => (howner p hp).2
  · constructor
    · intro n hn
      rcases List.mem_append.mp hn with hold | hnew
      · exact hids.documents n hold
      · rw [List.mem_singleton.mp hnew]
        exact ⟨h.nextDocument,le_rfl⟩
    · intro p hp
      rcases List.mem_append.mp hp with hold | hnew
      · exact hids.pages p hold
      · rw [(howner p hnew).1]
        exact ⟨h.nextDocument,le_rfl⟩
  · rfl
  · rfl

theorem insertNativePages_follows (h : DatabaseConstrained d) (now : ℤ)
    (request : SaveNativePages) :
    Follows (Inserted request.scope d)
      ((insertNativePages codec d now request).map fun d' => ((),d'))
      ((insertNativePages codec (rows request.scope d) now request).map fun m => ((),m)) := by
  have hkept : Inserted request.scope d d (rows request.scope d) :=
    ⟨kept h request.scope,handed h,rfl,rfl⟩
  have hselects : selects (rows request.scope d).store request = selects d.store request := by
    rw [selects, rows, acceptedSource_rows, selects]
  simp only [insertNativePages, hselects]
  cases hselected : selects d.store request with
  | false => exact Follows.committed _ hkept
  | true =>
    obtain ⟨job,hjob⟩ := job_of_selects hselected
    have hany : (rows request.scope d).nativeDocuments.any (·.key == request.key) =
        d.nativeDocuments.any (·.key == request.key) := by
      apply any_part
      intro n hn hkey
      rw [beq_iff_eq, NativeDocumentRow.key, SaveNativePages.key, Prod.mk.injEq] at hkey
      exact h.store.job_scope hjob (hkey.1 ▸ h.documents n hn)
    simp only [hany, Bool.not_true, Bool.false_eq_true, if_false]
    cases documentShape request with
    | false => exact Follows.failed _
    | true =>
      cases d.nativeDocuments.any (·.key == request.key) with
      | true => exact Follows.committed _ hkept
      | false =>
        have hpages := pageRows_map codec d.nextDocumentId request.scope request.pages
        rw [show (rows request.scope d).nextDocumentId = 0 from rfl, hpages]
        cases hinserted : request.pages.mapM (pageRow codec d.nextDocumentId request.scope) with
        | none => exact Follows.failed _
        | some inserted =>
          exact Follows.committed _ (inserted_rows codec h now request hinserted)

theorem saveNativePages_follows (h : DatabaseConstrained d) (now : ℤ)
    (request : SaveNativePages) :
    Follows (DatabaseMirrors request.scope d) (TenantOperations.saveNativePages codec d now request)
      (TenantOperations.saveNativePages codec (rows request.scope d) now request) := by
  rw [TenantOperations.saveNativePages, TenantOperations.saveNativePages]
  apply Follows.ite (Follows.failed _)
  apply follows_bind (insertNativePages_follows codec h now request)
  intro whole mine hi
  have hload := loadPages_mirrors codec hi.mirrors hi.handed hi.store hi.mine request.jobId
    request.profile (some request.sourceDigest)
  rw [hload]
  cases TenantOperations.loadNativePages codec whole request.scope request.jobId
      request.profile (some request.sourceDigest) with
  | error e => exact Follows.failed _
  | ok loaded =>
    cases loaded with
    | none => exact Follows.failed _
    | some pages => exact Follows.committed _ hi.mirrors

end NativePages

/-! ### Operations -/

/-- The identity which an operation was given belongs to no other scope. -/
def Unshared {α : Type} (scope : Scope) (d : Database) : Operation α → Prop
  | .createUpload _ request =>
    ∀ u ∈ d.store.uploads, u.scope ≠ scope → u.uploadId ≠ request.uploadId
  | .create _ request => ∀ job ∈ d.store.jobs, job.scope ≠ scope → job.jobId ≠ request.jobId
  | _ => True

/-- The object of a created upload is none of another scope. -/
def Unoccupied {α : Type} (scope : Scope) (d : Database) : Operation α → Prop
  | .createUpload _ request => ∀ u ∈ d.store.uploads, u.scope ≠ scope →
      ¬(u.objectBucket = request.objectBucket ∧ u.objectName = request.objectName)
  | _ => True

section Operations
variable {d : Database} {scope : Scope} {α : Type}

theorem onStore_follows {t t' : Transaction α} (h : DatabaseConstrained d)
    (ht : Follows (StoreMirrors scope d.store) t t') :
    Follows (DatabaseMirrors scope d) (onStore d t) (onStore (rows scope d) t') := by
  cases ht with
  | failed e => exact Follows.failed e
  | committed outcome hs => exact Follows.committed outcome { kept h scope with store := hs }

theorem query_follows (h : DatabaseConstrained d) {result result' : Except Schema.Error α}
    (heq : result' = result) :
    Follows (DatabaseMirrors scope d) (query d result) (query (rows scope d) result') := by
  rw [heq]
  exact follows_map (kept h scope) result id

theorem run_follows (codec : PageCodec) (h : DatabaseConstrained d) (o : Operation α)
    (hunshared : Unshared scope d o) (hunoccupied : Unoccupied scope d o) :
    Follows (DatabaseMirrors scope d) (o.run codec scope d)
      (o.run codec scope (rows scope d)) := by
  have hs := h.store
  cases o with
  | createUpload now request =>
    apply onStore_follows h
    apply createUpload_follows hs now { request with scope }
    intro u hu hkey
    by_contra hother
    rw [Bool.or_eq_true, beq_iff_eq, Bool.and_eq_true, beq_iff_eq, beq_iff_eq] at hkey
    rcases hkey with hid | hlocation
    · exact hunshared u hu hother hid
    · exact hunoccupied u hu hother hlocation
  | create now request =>
    apply onStore_follows h
    apply create_follows hs now { request with scope }
    intro job hjob hid
    by_contra hother
    exact hunshared job hjob hother (beq_iff_eq.mp hid)
  | findUpload uploadId => exact query_follows h (findUpload_rows scope uploadId)
  | listReconcilableUploads now limit =>
    exact query_follows h (listReconcilableUploads_rows scope now limit)
  | loadClaimedUpload now uploadId leaseOwner =>
    exact query_follows h (loadClaimedUpload_rows scope now uploadId leaseOwner)
  | recordUploaded now nowUtc uploadId record =>
    exact onStore_follows h (recordUploaded_follows hs scope now nowUtc uploadId record)
  | acceptUpload now uploadId accept =>
    exact onStore_follows h (acceptUpload_follows hs scope now uploadId accept)
  | claimUploadInspection now uploadId leaseOwner =>
    exact onStore_follows h (claimUploadInspection_follows hs scope now uploadId leaseOwner)
  | rejectUpload now uploadId leaseOwner reason =>
    exact onStore_follows h (rejectUpload_follows hs scope now uploadId leaseOwner reason)
  | find jobId => exact query_follows h (congrArg Except.ok (find_rows scope jobId))
  | loadDocumentIdentity jobId => exact query_follows h (loadDocumentIdentity_rows scope jobId)
  | loadAcceptedSource jobId => exact query_follows h (loadAcceptedSource_rows scope jobId)
  | cancel now jobId => exact onStore_follows h (cancel_follows hs scope now jobId)
  | completeCancellation jobId =>
    exact onStore_follows h (completeCancellation_follows hs scope jobId)
  | findResult jobId => exact query_follows h (findResult_rows hs scope jobId)
  | commitResult now jobId command =>
    exact onStore_follows h (commitResult_follows hs scope now jobId command)
  | createPageWorkflow jobId workflow =>
    exact onStore_follows h (createPageWorkflow_follows hs scope jobId workflow)
  | loadPageWorkflow jobId =>
    exact query_follows h (congrArg Except.ok (loadPageWorkflow_rows scope jobId d.store))
  | loadPageArtifacts jobId => exact query_follows h (loadPageArtifacts_rows scope jobId d.store)
  | savePageWorkflow jobId expectedRevision workflow =>
    exact onStore_follows h
      (savePageWorkflowWithArtifacts_follows hs scope jobId expectedRevision workflow [])
  | savePageWorkflowWithArtifacts jobId expectedRevision workflow artifacts =>
    exact onStore_follows h
      (savePageWorkflowWithArtifacts_follows hs scope jobId expectedRevision workflow artifacts)
  | claimJobOutbox now claim => exact onStore_follows h (claimJobOutbox_follows hs scope now claim)
  | claimWebhookOutbox now claim =>
    exact onStore_follows h (claimWebhookOutbox_follows hs scope now claim)
  | publishJobOutbox now eventId leaseOwner =>
    exact onStore_follows h (publishJobOutbox_follows hs scope now eventId leaseOwner)
  | loadNativePage jobId profile page =>
    exact query_follows h (loadNativePage_rows codec h jobId profile page)
  | loadNativePages jobId profile =>
    exact query_follows h
      (loadPages_mirrors codec (kept h scope) (handed h) rfl rfl jobId profile none)
  | saveNativePages now request =>
    exact saveNativePages_follows codec h now { request with scope }
  | loadNativeDurationMs jobId profile =>
    exact query_follows h (congrArg Except.ok (loadNativeDurationMs_rows jobId profile))
  | clearNativePages jobId =>
    exact Follows.committed () (clearNativePages_mirrors h jobId)

end Operations

/-- The two runs of an operation of the scope. -/
theorem run_noninterfering {α : Type} (codec : PageCodec) (o : Operation α) {scope : Scope}
    {d₁ d₂ : Database} (h₁ : DatabaseConstrained d₁) (h₂ : DatabaseConstrained d₂)
    (hunshared₁ : Unshared scope d₁ o) (hunshared₂ : Unshared scope d₂ o)
    (hunoccupied₁ : Unoccupied scope d₁ o) (hunoccupied₂ : Unoccupied scope d₂ o)
    (hrows : rows scope d₁ = rows scope d₂) :
    (o.run codec scope d₁).map Prod.fst = (o.run codec scope d₂).map Prod.fst ∧
      forgetIdentities d₁ (rows scope (stateAfter d₁ (o.run codec scope d₁))) =
        forgetIdentities d₂ (rows scope (stateAfter d₂ (o.run codec scope d₂))) ∧
      ∀ other, other ≠ scope →
        rows other (stateAfter d₁ (o.run codec scope d₁)) = rows other d₁ ∧
          rows other (stateAfter d₂ (o.run codec scope d₂)) = rows other d₂ := by
  have hrun₁ := run_follows codec h₁ o hunshared₁ hunoccupied₁
  have hrun₂ := run_follows codec h₂ o hunshared₂ hunoccupied₂
  have hafter₁ := hrun₁.after (kept h₁ scope)
  have hafter₂ := hrun₂.after (kept h₂ scope)
  refine ⟨?_,?_,fun other hother => ⟨rows_kept hafter₁ hother,rows_kept hafter₂ hother⟩⟩
  · rw [hrun₁.outcome, hrun₂.outcome, hrows]
  · rw [← rows_mirrors hafter₁, ← rows_mirrors hafter₂, hrows]

def numbering : PageCodec := ⟨fun _ => "0",some,fun _ => 1⟩

def neighbour : Scope := ⟨default,⟨"ten_b",by decide⟩⟩

theorem neighbourUpload_valid : validatedId "upl_b" "upl_" = true := by decide

def neighbourUpload : UploadId := ⟨"upl_b",neighbourUpload_valid⟩

def reservation (scope : Scope) (uploadId : UploadId) (objectName : String) : CreateUpload where
  uploadId := uploadId
  scope := scope
  idempotencyKey := default
  requestDigest := default
  objectBucket := "quarantine"
  objectName := objectName
  expectedContentType := "image/png"
  expectedContentLength := 1
  expectedDigest := (default : RequestDigest).asStr
  expiresAt := 100

/-- A reserved upload of the scope. -/
def alone : Database :=
  ⟨{ empty with uploads := [(reservation default default "upl_a").row 0] },[],[],1⟩

/-- The same upload beside one of another tenant, with its event. -/
def shared : Database :=
  ⟨{ empty with
      uploads := [(reservation neighbour neighbourUpload "upl_b").row 0,
        (reservation default default "upl_a").row 0]
      uploadOutbox := [⟨1,neighbour,neighbourUpload,.received⟩]
      nextUploadEventId := 2 },[],[],1⟩

theorem alone_constrained : DatabaseConstrained alone where
  store := by constructor <;> decide
  documents := nofun
  documentIds := nofun
  nextDocument := by decide
  pages := nofun

theorem shared_constrained : DatabaseConstrained shared where
  store := by constructor <;> decide
  documents := nofun
  documentIds := nofun
  nextDocument := by decide
  pages := nofun

theorem alone_rows : rows default alone = rows default shared := rfl

/-- The recorded upload is handed event 1 in one database and event 2 in the other. -/
def receipt : Operation RecordUploadOutcome :=
  .recordUploaded 1 1 default ⟨"1","image/png",1,(default : RequestDigest).asStr⟩

theorem recordUploaded_noninterfering :
    (receipt.run numbering default alone).map Prod.fst =
        (receipt.run numbering default shared).map Prod.fst ∧
      forgetIdentities alone
          (rows default (stateAfter alone (receipt.run numbering default alone))) =
        forgetIdentities shared
          (rows default (stateAfter shared (receipt.run numbering default shared))) ∧
      ∀ other, other ≠ default →
        rows other (stateAfter alone (receipt.run numbering default alone)) = rows other alone ∧
          rows other (stateAfter shared (receipt.run numbering default shared)) =
            rows other shared :=
  run_noninterfering numbering receipt alone_constrained shared_constrained trivial trivial trivial
    trivial alone_rows

/-- A reservation at the object of the other tenant's upload. -/
def taken : Operation CreateUploadOutcome :=
  .createUpload 0 { reservation default ⟨"upl_c",by decide⟩ "upl_b" with
    idempotencyKey := ⟨"key-c",by decide⟩ }

/-- The location of an object is unique over all scopes, and so tells them apart. -/
theorem createUpload_interferes :
    ¬∀ (codec : PageCodec) (o : Operation CreateUploadOutcome) (scope : Scope) (d₁ d₂ : Database),
      DatabaseConstrained d₁ → DatabaseConstrained d₂ → Unshared scope d₁ o →
      Unshared scope d₂ o → rows scope d₁ = rows scope d₂ →
      (o.run codec scope d₁).map Prod.fst = (o.run codec scope d₂).map Prod.fst := by
  intro h
  have heq := h numbering taken default alone shared alone_constrained shared_constrained
    (by unfold Unshared taken; decide) (by unfold Unshared taken; decide) alone_rows
  have hok : ((taken.run numbering default alone).map Prod.fst).toOption.isSome = true := by
    decide +kernel
  have herror : ((taken.run numbering default shared).map Prod.fst).toOption.isSome = false := by
    decide +kernel
  rw [heq, herror] at hok
  cases hok

end DocumentIntelligence.TenantNoninterference
