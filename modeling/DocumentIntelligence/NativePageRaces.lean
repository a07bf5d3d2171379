import DocumentIntelligence.NativePages
import DocumentIntelligence.ReadCommitted
import DocumentIntelligence.Transition

/-!
# Concurrent saves of native pages

Saves executed statement by statement. The insert of a document waits for a document of the
same key which another save has inserted, and does nothing once that one is committed. The
jobs and their accepted uploads stand still.
-/

set_option autoImplicit false

namespace DocumentIntelligence.NativePageRaces
open Identifiers hiding Error
open Schema Uploads Jobs NativePages Transition
open DocumentResults (BuiltPage)
open ReadCommitted (Tx view holds Free setTx commitTx merge)
open ResultJson (readPage)

inductive Row where
  | document (row : NativeDocumentRow)
  | page (row : NativePageRow)

inductive Key where
  | document (key : DocumentKey)
  | page (documentId pageNumber : ℕ)
  deriving DecidableEq

def Row.key : Row → Key
  | .document row => .document row.key
  | .page row => .page row.nativeDocumentId row.pageNumber

def Row.document? : Row → Option NativeDocumentRow
  | .document row => some row
  | _ => none

def Row.page? : Row → Option NativePageRow
  | .page row => some row
  | _ => none

def documents (rows : List Row) : List NativeDocumentRow := rows.filterMap Row.document?
def pages (rows : List Row) : List NativePageRow := rows.filterMap Row.page?

/-- The statement which a save executes next. -/
inductive Statement where
  | insertDocument
  | insertPages (documentId : ℕ)
  | loadPages
  | finish (pages : List BuiltPage)

structure Program where
  request : SaveNativePages
  statement : Statement

/-- The reply to a commit may be lost. -/
inductive Outcome where
  | returned (pages : List BuiltPage)
  | lost
  | failed (error : Schema.Error)

def Outcome.committed : Outcome → Bool
  | .failed _ => false
  | _ => true

structure Report where
  request : SaveNativePages
  outcome : Outcome

/-- The reports stand in the order in which the saves ended. -/
structure World (n : ℕ) where
  db : ReadCommitted.World Row Program (Fin n)
  store : Store
  nextDocumentId : ℕ
  reports : List Report

inductive Action (n : ℕ) where
  | start (i : Fin n) (request : SaveNativePages)
  | exec (i : Fin n) (now : ℤ)
  | disconnect (i : Fin n)

section Exec
variable (codec : PageCodec) {n : ℕ} (w : World n) (i : Fin n) (tx : Tx Row Program)

abbrev rows : List Row := view Row.key w.db tx

def goto (s : Statement) : World n :=
  { w with db := setTx w.db i (some ⟨tx.writes,⟨tx.program.request,s⟩⟩) }

/-- Insert rows with new keys and go on. -/
def insert (new : List Row) (s : Statement) : World n :=
  { w with db := setTx w.db i (some ⟨tx.writes++new,⟨tx.program.request,s⟩⟩) }

def fail (e : Schema.Error) : World n :=
  { w with
    db := setTx w.db i none
    reports := w.reports++[⟨tx.program.request,.failed e⟩] }

def finish (outcome : Outcome) : World n :=
  { w with
    db := commitTx Row.key w.db i tx
    reports := w.reports++[⟨tx.program.request,outcome⟩] }

/-- `on conflict … do nothing`. The identity is drawn from a sequence. -/
def insertDocument (now : ℤ) : World n :=
  if !selects w.store tx.program.request then goto w i tx .loadPages
  else if !documentShape tx.program.request then fail w i tx .database
  else if (documents (rows w tx)).any (·.key == tx.program.request.key) then goto w i tx .loadPages
  else if Free Row.key w.db i (.document tx.program.request.key) then
    { insert w i tx [.document (newDocument w.store w.nextDocumentId now tx.program.request)]
        (.insertPages w.nextDocumentId) with nextDocumentId := w.nextDocumentId+1 }
  else w

/-- The identity is new and the numbers of the pages are distinct, so the keys are. -/
def insertPages (documentId : ℕ) : World n :=
  match tx.program.request.pages.mapM (pageRow codec documentId tx.program.request.scope) with
  | none => fail w i tx .database
  | some new => insert w i tx (new.map .page) .loadPages

def loadRows (rows : List Row) (s : Store) (scope : Scope) (jobId : JobId) (profile : String)
    (digest : Option String) : Except Schema.Error (Option (List BuiltPage)) :=
  NativePages.loadPages codec s (documents rows) (pages rows) scope jobId profile digest

def loadCanonical : World n :=
  match loadRows codec (rows w tx) w.store tx.program.request.scope tx.program.request.jobId
      tx.program.request.profile (some tx.program.request.sourceDigest) with
  | .error e => fail w i tx e
  | .ok none => fail w i tx .invalidStoredPageArtifact
  | .ok (some pages) => goto w i tx (.finish pages)

def exec (now : ℤ) : World n :=
  match tx.program.statement with
  | .insertDocument => insertDocument w i tx now
  | .insertPages documentId => insertPages codec w i tx documentId
  | .loadPages => loadCanonical codec w i tx
  | .finish pages => finish w i tx (.returned pages)

/-- The connection breaks; a commit which was sent takes effect. -/
def disconnect : World n :=
  match tx.program.statement with
  | .finish _ => finish w i tx .lost
  | _ => fail w i tx .database

/-- `load_native_pages`, whose transaction is one query. -/
def loadNativePages (scope : Scope) (jobId : JobId) (profile : String) :
    Except Schema.Error (Option (List BuiltPage)) :=
  loadRows codec w.db.committed w.store scope jobId profile none

end Exec

def step (codec : PageCodec) {n : ℕ} (w : World n) : Action n → World n
  | .start i request => match w.db.sessions i with
    | some _ => w
    | none =>
      if admissible codec request.pages then
        { w with db := setTx w.db i (some ⟨[],⟨request,.insertDocument⟩⟩) }
      else { w with reports := w.reports++[⟨request,.failed .invalidStoredPageArtifact⟩] }
  | .exec i now => match w.db.sessions i with
    | none => w
    | some tx => exec codec w i tx now
  | .disconnect i => match w.db.sessions i with
    | none => w
    | some tx => disconnect w i tx

def initial (n : ℕ) (store : Store) : World n := ⟨⟨[],fun _ => none⟩,store,1,[]⟩

/-- What any saves of any callers lead to. -/
def reached (codec : PageCodec) (n : ℕ) (store : Store) (as : List (Action n)) : World n :=
  run (step codec) (initial n store) as

/-! ### Rows -/

theorem mem_documents {rs : List Row} {row : NativeDocumentRow} :
    row ∈ documents rs ↔ .document row ∈ rs := by
  simp only [documents, List.mem_filterMap]
  constructor
  · rintro ⟨r,hr,heq⟩
    cases r <;> cases heq
    exact hr
  · exact fun h => ⟨.document row,h,rfl⟩

theorem mem_pages {rs : List Row} {row : NativePageRow} : row ∈ pages rs ↔ .page row ∈ rs := by
  simp only [pages, List.mem_filterMap]
  constructor
  · rintro ⟨r,hr,heq⟩
    cases r <;> cases heq
    exact hr
  · exact fun h => ⟨.page row,h,rfl⟩

@[simp] theorem documents_pages (rs : List NativePageRow) : documents (rs.map .page) = [] := by
  induction rs with
  | nil => rfl
  | cons r rs ih => exact ih

@[simp] theorem pages_pages (rs : List NativePageRow) : pages (rs.map .page) = rs := by
  induction rs with
  | nil => rfl
  | cons r rs ih => exact congrArg (r::·) ih

/-- The pages of a document. -/
def pagesOf (rs : List Row) (documentId : ℕ) : List NativePageRow :=
  (pages rs).filter (·.nativeDocumentId == documentId)

/-- The rows of a document and its pages, as a save writes them. -/
def family (d : NativeDocumentRow) (children : List NativePageRow) : List Row :=
  .document d::children.map .page

@[simp] theorem documents_family (d : NativeDocumentRow) (children : List NativePageRow) :
    documents (family d children) = [d] :=
  congrArg (d::·) (documents_pages children)

@[simp] theorem pages_family (d : NativeDocumentRow) (children : List NativePageRow) :
    pages (family d children) = children := pages_pages children

/-! ### What is written -/

/-- A document as the insert of a request writes it. -/
structure Header (store : Store) (request : SaveNativePages) (d : NativeDocumentRow) : Prop where
  scope : d.scope = request.scope
  key : d.key = request.key
  source : (acceptedSource store d.scope d.jobId).map (·.sourceDigest) = some d.sourceDigest

/-- All pages of a request, as the rows of a document. -/
def Complete (codec : PageCodec) (request : SaveNativePages) (d : NativeDocumentRow)
    (children : List NativePageRow) : Prop :=
  request.pages.mapM (pageRow codec d.nativeDocumentId d.scope) = some children

/-- What a load of the saved pages returns. -/
def readBack (codec : PageCodec) (pages : List BuiltPage) : Option (List BuiltPage) :=
  pages.mapM fun page => (storedPage codec page).bind readPage

section Written
variable {codec : PageCodec} {store : Store} {request : SaveNativePages} {d : NativeDocumentRow}
  {children : List NativePageRow}

theorem new_header {documentId : ℕ} {now : ℤ} (h : selects store request = true) :
    Header store request (newDocument store documentId now request) where
  scope := rfl
  key := rfl
  source := by
    rw [selects, Option.any_eq_true] at h
    obtain ⟨source,hsource,h⟩ := h
    rw [Bool.and_eq_true, beq_iff_eq] at h
    show (acceptedSource store request.scope request.jobId).map _ = some request.sourceDigest
    rw [hsource, Option.map_some, h.1]

theorem pageRow_some {documentId : ℕ} {scope : Scope} {page : BuiltPage} {row : NativePageRow}
    (h : pageRow codec documentId scope page = some row) :
    row.nativeDocumentId = documentId ∧ row.scope = scope ∧ row.pageNumber = page.page ∧
      storedPage codec page = some row.pageData := by
  obtain ⟨data,hdata,rfl⟩ := Option.map_eq_some_iff.mp h
  exact ⟨rfl,rfl,rfl,hdata⟩

theorem complete_mem (h : Complete codec request d children) {row : NativePageRow}
    (hrow : row ∈ children) :
    row.nativeDocumentId = d.nativeDocumentId ∧ row.scope = d.scope := by
  have hrows := Table.mapM_some_iff.mp h
  clear h
  generalize request.pages = saved at hrows
  induction hrows with
  | nil => cases hrow
  | cons hpage _ ih =>
    rcases List.mem_cons.mp hrow with rfl | hmem
    · obtain ⟨hid,hscope,_⟩ := pageRow_some hpage
      exact ⟨hid,hscope⟩
    · exact ih hmem

theorem complete_numbers (h : Complete codec request d children) :
    children.map (·.pageNumber) = request.pages.map (·.page) := by
  have hrows := Table.mapM_some_iff.mp h
  clear h
  generalize request.pages = saved at hrows ⊢
  induction hrows with
  | nil => rfl
  | cons hpage _ ih =>
    rw [List.map_cons, List.map_cons, (pageRow_some hpage).2.2.1, ih]

theorem numbered_pairwise {pages : List BuiltPage} (h : numbered pages = true) :
    (pages.map (·.page)).Pairwise (· ≤ ·) := by
  rw [List.pairwise_iff_getElem]
  intro i j hi hj hij
  rw [List.length_map] at hi hj
  have hpage : ∀ k (hk : k < pages.length), pages[k].page = k+1 := by
    intro k hk
    rw [numbered, List.all_eq_true] at h
    have hmem : (pages[k],k) ∈ pages.zipIdx := by
      rw [List.mem_zipIdx_iff_getElem?, List.getElem?_eq_getElem hk]
    exact beq_iff_eq.mp (h _ hmem)
  rw [List.getElem_map, List.getElem_map, hpage i hi, hpage j hj]
  omega

/-- What a load reads of all pages of a request. -/
theorem complete_read (hnumbered : numbered request.pages = true)
    (h : Complete codec request d children) {pages : List BuiltPage}
    (hread : List.Forall₂ (fun row page => readPage row.pageData = some page)
      ((children.filter (·.scope == d.scope)).mergeSort
        fun a b => decide (a.pageNumber ≤ b.pageNumber)) pages) :
    readBack codec request.pages = some pages := by
  have hall : children.filter (·.scope == d.scope) = children := by
    rw [List.filter_eq_self]
    exact fun row hrow => beq_iff_eq.mpr (complete_mem h hrow).2
  have hsorted : children.Pairwise fun a b => decide (a.pageNumber ≤ b.pageNumber) = true := by
    have hpairs := numbered_pairwise hnumbered
    rw [← complete_numbers h, List.pairwise_map] at hpairs
    exact hpairs.imp fun hle => decide_eq_true hle
  rw [hall, List.mergeSort_of_pairwise hsorted] at hread
  rw [readBack, Table.mapM_some_iff]
  have hrows := Table.mapM_some_iff.mp h
  clear h hall hsorted hnumbered
  generalize request.pages = saved at hrows ⊢
  induction hrows generalizing pages with
  | nil =>
    rw [List.forall₂_nil_left_iff.mp hread]
    exact List.Forall₂.nil
  | cons hpage _ ih =>
    obtain ⟨read,rest,hrow,hrest,rfl⟩ := List.forall₂_cons_left_iff.mp hread
    refine List.Forall₂.cons ?_ (ih hrest)
    rw [(pageRow_some hpage).2.2.2, Option.bind_some]
    exact hrow

end Written

/-! ### What is loaded -/

theorem source_key {s : Store} {scope : Scope} {jobId : JobId} {profile : String}
    {d : NativeDocumentRow} (h : isSourceDocument s scope jobId profile d = true) :
    d.jobId = jobId ∧ d.scope = scope ∧ d.processingProfile = profile ∧
      sourceDigest s scope jobId = some d.sourceDigest := by
  simp only [isSourceDocument, isNativeDocument, Bool.and_eq_true, beq_iff_eq] at h
  exact ⟨h.1.1.1,h.1.1.2,h.1.2,h.2⟩

/-- A load finds one document. -/
theorem loadRows_ok {codec : PageCodec} {rs : List Row} {s : Store} {scope : Scope} {jobId : JobId}
    {profile : String} {digest : Option String} {loaded : List BuiltPage}
    (hkeys : ((documents rs).map NativeDocumentRow.key).Nodup)
    (h : loadRows codec rs s scope jobId profile digest = .ok (some loaded)) :
    ∃ d ∈ documents rs, isSourceDocument s scope jobId profile d = true ∧
      digest.all (· == d.sourceDigest) = true ∧
      List.Forall₂ (fun row page => readPage row.pageData = some page)
        (((pagesOf rs d.nativeDocumentId).filter (·.scope == d.scope)).mergeSort
          fun a b => decide (a.pageNumber ≤ b.pageNumber)) loaded := by
  obtain ⟨hloaded,hread⟩ := loadPages_ok h
  rw [nativeRows] at hread
  by_cases hnone : ((documents rs).filter fun n =>
      isSourceDocument s scope jobId profile n && digest.all (· == n.sourceDigest)) = []
  · rw [hnone, List.flatMap_nil, List.mergeSort_nil, List.forall₂_nil_left_iff] at hread
    exact absurd hread hloaded
  obtain ⟨d,hd⟩ := List.exists_mem_of_ne_nil _ hnone
  obtain ⟨hmem,hd⟩ := List.mem_filter.mp hd
  have hone := Table.filter_one (p := fun n => isSourceDocument s scope jobId profile n &&
    digest.all (· == n.sourceDigest)) hkeys hmem hd (by
      intro e he hpe
      obtain ⟨hjob,_,hprofile,hdigest⟩ := source_key (Bool.and_eq_true_iff.mp hd).1
      obtain ⟨hejob,_,heprofile,hedigest⟩ := source_key (Bool.and_eq_true_iff.mp hpe).1
      rw [hedigest, Option.some.injEq] at hdigest
      rw [NativeDocumentRow.key, NativeDocumentRow.key, hejob, heprofile, hdigest, hjob, hprofile])
  rw [Bool.and_eq_true] at hd
  refine ⟨d,hmem,hd.1,hd.2,?_⟩
  rw [hone, List.flatMap_cons, List.flatMap_nil, List.append_nil,
    ← List.map_mergeSort (r := fun a b => decide (a.pageNumber ≤ b.pageNumber))
      (by intros; rfl), List.forall₂_map_left_iff] at hread
  rw [pagesOf, List.filter_filter]
  simpa only [Bool.and_comm] using hread

/-! ### Invariants -/

/-- The first save of a key which committed. -/
def first {n : ℕ} (w : World n) (key : DocumentKey) : Option Report :=
  w.reports.find? fun r => r.outcome.committed && r.request.key == key

/-- What the first committed save of the key of a request has saved. -/
def Canonical (codec : PageCodec) {n : ℕ} (w : World n) (request : SaveNativePages)
    (pages : List BuiltPage) : Prop :=
  ∃ report, first w request.key = some report ∧ report.request.scope = request.scope ∧
    readBack codec report.request.pages = some pages

def Apart (d e : NativeDocumentRow) : Prop :=
  e.key ≠ d.key ∧ e.nativeDocumentId ≠ d.nativeDocumentId

/-- A save has written this document and these pages. -/
structure Writes {n : ℕ} (w : World n) (tx : Tx Row Program) (d : NativeDocumentRow)
    (children : List NativePageRow) : Prop where
  rows : tx.writes = family d children
  header : Header w.store tx.program.request d
  known : d.nativeDocumentId < w.nextDocumentId

def StatementOk (codec : PageCodec) {n : ℕ} (w : World n) (tx : Tx Row Program) : Prop :=
  match tx.program.statement with
  | .insertDocument => tx.writes = []
  | .insertPages documentId => ∃ d, d.nativeDocumentId = documentId ∧ Writes w tx d []
  | .loadPages => tx.writes = [] ∨
      ∃ d children, Writes w tx d children ∧ Complete codec tx.program.request d children
  | .finish pages => (tx.writes = [] ∧ Canonical codec w tx.program.request pages) ∨
      ∃ d children, Writes w tx d children ∧ Complete codec tx.program.request d children ∧
        readBack codec tx.program.request.pages = some pages

/-- The committed documents have all their pages, of the first save which committed. -/
structure Stored (codec : PageCodec) {n : ℕ} (w : World n) : Prop where
  keys : ((documents w.db.committed).map NativeDocumentRow.key).Nodup
  known : ∀ d ∈ documents w.db.committed, d.nativeDocumentId < w.nextDocumentId
  parents : ∀ p ∈ pages w.db.committed, ∃ d ∈ documents w.db.committed,
    d.nativeDocumentId = p.nativeDocumentId
  saved : ∀ d ∈ documents w.db.committed, ∃ report, first w d.key = some report ∧
    Header w.store report.request d ∧ numbered report.request.pages = true ∧
    Complete codec report.request d (pagesOf w.db.committed d.nativeDocumentId)

structure Inv (codec : PageCodec) {n : ℕ} (w : World n) : Prop where
  stored : Stored codec w
  statements : ∀ i tx, w.db.sessions i = some tx →
    numbered tx.program.request.pages = true ∧ StatementOk codec w tx
  new : ∀ i tx, w.db.sessions i = some tx → ∀ d ∈ documents tx.writes,
    ∀ e ∈ documents w.db.committed, Apart d e
  exclusive : ∀ i j, i ≠ j → ∀ a b, w.db.sessions i = some a → w.db.sessions j = some b →
    ∀ d ∈ documents a.writes, ∀ e ∈ documents b.writes, Apart d e
  committed : ∀ report ∈ w.reports, report.outcome.committed = true →
    ∃ d ∈ documents w.db.committed, d.key = report.request.key ∧ d.scope = report.request.scope
  returned : ∀ report ∈ w.reports, ∀ pages, report.outcome = .returned pages →
    Canonical codec w report.request pages

section Steps
variable {codec : PageCodec} {n : ℕ} {w w' : World n} {i : Fin n} {tx : Tx Row Program}

/-- A save has written nothing, or a document with pages of its own. -/
theorem writes_cases (h : StatementOk codec w tx) : tx.writes = [] ∨
    ∃ d children, Writes w tx d children ∧
      ∀ p ∈ children, p.nativeDocumentId = d.nativeDocumentId := by
  unfold StatementOk at h
  split at h
  · exact Or.inl h
  · obtain ⟨d,_,hwrites⟩ := h
    exact Or.inr ⟨d,[],hwrites,fun p hp => absurd hp List.not_mem_nil⟩
  · rcases h with hnone | ⟨d,children,hwrites,hcomplete⟩
    · exact Or.inl hnone
    · exact Or.inr ⟨d,children,hwrites,fun p hp => (complete_mem hcomplete hp).1⟩
  · rcases h with ⟨hnone,_⟩ | ⟨d,children,hwrites,hcomplete,_⟩
    · exact Or.inl hnone
    · exact Or.inr ⟨d,children,hwrites,fun p hp => (complete_mem hcomplete hp).1⟩

/-- What a save sees are the committed rows and its own. -/
theorem rows_eq (h : Inv codec w) (htx : w.db.sessions i = some tx) :
    rows w tx = w.db.committed++tx.writes := by
  refine ReadCommitted.merge_new _ ?_
  intro r hr o ho
  rcases writes_cases (h.statements i tx htx).2 with hnone | ⟨d,children,hwrites,hchildren⟩
  · rw [hnone] at ho
    cases ho
  have hapart : ∀ e ∈ documents w.db.committed, Apart d e := by
    intro e he
    refine h.new i tx htx d ?_ e he
    rw [hwrites.rows, documents_family]
    exact List.mem_singleton.mpr rfl
  rw [hwrites.rows] at ho
  rcases List.mem_cons.mp ho with rfl | ho
  · cases r with
    | document e =>
      intro heq
      exact (hapart e (mem_documents.mpr hr)).1 (Key.document.inj heq).symm
    | page p => exact nofun
  · obtain ⟨c,hc,rfl⟩ := List.mem_map.mp ho
    cases r with
    | document e => exact nofun
    | page p =>
      intro heq
      obtain ⟨e,he,hid⟩ := h.stored.parents p (mem_pages.mpr hr)
      refine (hapart e he).2 ?_
      rw [hid, ← hchildren c hc]
      exact (Key.page.inj heq).1.symm

theorem canonical_mono (hfirst : ∀ key report, first w key = some report →
      first w' key = some report) {request : SaveNativePages} {pages : List BuiltPage}
    (h : Canonical codec w request pages) : Canonical codec w' request pages := by
  obtain ⟨report,hreport,hrest⟩ := h
  exact ⟨report,hfirst _ report hreport,hrest⟩

theorem writes_mono (hstore : w'.store = w.store) (hnext : w.nextDocumentId ≤ w'.nextDocumentId)
    {d : NativeDocumentRow} {children : List NativePageRow} (h : Writes w tx d children) :
    Writes w' tx d children :=
  ⟨h.rows,hstore ▸ h.header,h.known.trans_le hnext⟩

theorem statementOk_mono (hstore : w'.store = w.store)
    (hnext : w.nextDocumentId ≤ w'.nextDocumentId)
    (hfirst : ∀ key report, first w key = some report → first w' key = some report)
    (h : StatementOk codec w tx) : StatementOk codec w' tx := by
  unfold StatementOk at h ⊢
  split at h
  · exact h
  · obtain ⟨d,hid,hwrites⟩ := h
    exact ⟨d,hid,writes_mono hstore hnext hwrites⟩
  · refine h.imp_right ?_
    rintro ⟨d,children,hwrites,hcomplete⟩
    exact ⟨d,children,writes_mono hstore hnext hwrites,hcomplete⟩
  · refine h.imp (And.imp_right (canonical_mono hfirst)) ?_
    rintro ⟨d,children,hwrites,hrest⟩
    exact ⟨d,children,writes_mono hstore hnext hwrites,hrest⟩

theorem Apart.symm {d e : NativeDocumentRow} (h : Apart d e) : Apart e d := ⟨h.1.symm,h.2.symm⟩

theorem first_append {more : List Report} (hreports : w'.reports = w.reports++more) {key : DocumentKey}
    {report : Report} (h : first w key = some report) : first w' key = some report := by
  rw [first] at h
  rw [first, hreports, List.find?_append, h]
  rfl

/-- Nothing is committed or reported; one session is at its next statement. -/
theorem inv_setTx (h : Inv codec w) {next : Tx Row Program} {m : ℕ} (hm : w.nextDocumentId ≤ m)
    (hw' : w' = { w with db := setTx w.db i (some next), nextDocumentId := m })
    (hnumbered : numbered next.program.request.pages = true) (hok : StatementOk codec w' next)
    (hnew : ∀ d ∈ documents next.writes, (∀ e ∈ documents w.db.committed, Apart d e) ∧
      ∀ j, j ≠ i → ∀ b, w.db.sessions j = some b → ∀ e ∈ documents b.writes, Apart d e) :
    Inv codec w' := by
  have hfirst : ∀ key report, first w key = some report → first w' key = some report := by
    rw [hw']
    exact fun _ _ hreport => hreport
  have hstore : w'.store = w.store := by rw [hw']
  have hnext : w.nextDocumentId ≤ w'.nextDocumentId := by rw [hw']; exact hm
  have hdb : w'.db = setTx w.db i (some next) := by rw [hw']
  have hcommitted : w'.db.committed = w.db.committed := by rw [hdb]; rfl
  have hreports : w'.reports = w.reports := by rw [hw']
  constructor
  · constructor
    · rw [hcommitted]
      exact h.stored.keys
    · rw [hcommitted]
      exact fun d hd => (h.stored.known d hd).trans_le hnext
    · rw [hcommitted]
      exact h.stored.parents
    · rw [hcommitted, hstore]
      intro d hd
      obtain ⟨report,hreport,hrest⟩ := h.stored.saved d hd
      exact ⟨report,hfirst _ _ hreport,hrest⟩
  · intro j a ha
    rw [hdb] at ha
    rcases ReadCommitted.session_cases ha with ⟨_,heq⟩ | ⟨_,hold⟩
    · rw [← Option.some.inj heq]
      exact ⟨hnumbered,hok⟩
    · obtain ⟨hpages,hstatement⟩ := h.statements j a hold
      exact ⟨hpages,statementOk_mono hstore hnext hfirst hstatement⟩
  · intro j a ha d hd e he
    rw [hcommitted] at he
    rw [hdb] at ha
    rcases ReadCommitted.session_cases ha with ⟨_,heq⟩ | ⟨_,hold⟩
    · rw [← Option.some.inj heq] at hd
      exact (hnew d hd).1 e he
    · exact h.new j a hold d hd e he
  · intro j k hne a b ha hb d hd e he
    rw [hdb] at ha hb
    rcases ReadCommitted.session_cases ha with ⟨hj,hja⟩ | ⟨hj,hja⟩ <;>
      rcases ReadCommitted.session_cases hb with ⟨hk,hkb⟩ | ⟨hk,hkb⟩
    · exact absurd (hj.trans hk.symm) hne
    · rw [← Option.some.inj hja] at hd
      exact (hnew d hd).2 k hk b hkb e he
    · rw [← Option.some.inj hkb] at he
      exact ((hnew e he).2 j hj a hja d hd).symm
    · exact h.exclusive j k hne a b hja hkb d hd e he
  · rw [hreports, hcommitted]
    exact h.committed
  · rw [hreports]
    intro report hreport pages hreturned
    exact canonical_mono (w := w) hfirst (h.returned report hreport pages hreturned)

/-- A save goes on; it has written no further document. -/
theorem inv_continue (h : Inv codec w) (htx : w.db.sessions i = some tx) {new : List Row}
    (hnew : documents new = []) {s : Statement}
    (hok : StatementOk codec w ⟨tx.writes++new,⟨tx.program.request,s⟩⟩) :
    Inv codec (insert w i tx new s) := by
  refine inv_setTx h (Nat.le_refl _) rfl (h.statements i tx htx).1
    (statementOk_mono (w := w) rfl (Nat.le_refl _) (fun _ _ hreport => hreport) hok) ?_
  intro d hd
  have hold : d ∈ documents tx.writes := by
    rw [documents, List.filterMap_append] at hd
    rcases List.mem_append.mp hd with hold | hmem
    · exact hold
    · rw [show new.filterMap Row.document? = [] from hnew] at hmem
      cases hmem
  exact ⟨h.new i tx htx d hold,fun j hne b hb => h.exclusive i j hne.symm tx b htx hb d hold⟩

theorem goto_eq (w : World n) (i : Fin n) (tx : Tx Row Program) (s : Statement) :
    goto w i tx s = insert w i tx [] s := by
  rw [goto, insert, List.append_nil]

theorem inv_goto (h : Inv codec w) (htx : w.db.sessions i = some tx) {s : Statement}
    (hok : StatementOk codec w ⟨tx.writes,⟨tx.program.request,s⟩⟩) : Inv codec (goto w i tx s) := by
  rw [goto_eq]
  refine inv_continue h htx rfl ?_
  rw [List.append_nil]
  exact hok

/-- A session ends without a commit. -/
theorem inv_rollback (h : Inv codec w) (i : Fin n) :
    Inv codec { w with db := setTx w.db i none } := by
  have hold : ∀ j a, (setTx w.db i none).sessions j = some a → w.db.sessions j = some a := by
    intro j a ha
    rcases ReadCommitted.session_cases ha with ⟨_,hnone⟩ | ⟨_,hold⟩
    · cases hnone
    · exact hold
  constructor
  · exact ⟨h.stored.keys,h.stored.known,h.stored.parents,h.stored.saved⟩
  · intro j a ha
    obtain ⟨hpages,hstatement⟩ := h.statements j a (hold j a ha)
    exact ⟨hpages,statementOk_mono (w := w) rfl (Nat.le_refl _) (fun _ _ hreport => hreport) hstatement⟩
  · exact fun j a ha => h.new j a (hold j a ha)
  · exact fun j k hne a b ha hb => h.exclusive j k hne a b (hold j a ha) (hold k b hb)
  · exact h.committed
  · exact h.returned

theorem inv_failed (h : Inv codec w) (request : SaveNativePages) (e : Schema.Error) :
    Inv codec { w with reports := w.reports++[⟨request,.failed e⟩] } := by
  have hfirst : ∀ key report, first w key = some report →
      first { w with reports := w.reports++[⟨request,.failed e⟩] } key = some report :=
    fun _ _ => first_append rfl
  constructor
  · refine ⟨h.stored.keys,h.stored.known,h.stored.parents,?_⟩
    intro d hd
    obtain ⟨report,hreport,hrest⟩ := h.stored.saved d hd
    exact ⟨report,hfirst _ _ hreport,hrest⟩
  · intro j a ha
    obtain ⟨hpages,hstatement⟩ := h.statements j a ha
    exact ⟨hpages,statementOk_mono (w := w) rfl (Nat.le_refl _) hfirst hstatement⟩
  · exact h.new
  · exact h.exclusive
  · intro report hreport hyes
    rcases List.mem_append.mp hreport with hold | hnew
    · exact h.committed report hold hyes
    · rw [List.mem_singleton.mp hnew] at hyes
      cases hyes
  · intro report hreport pages hreturned
    rcases List.mem_append.mp hreport with hold | hnew
    · exact canonical_mono (w := w) hfirst (h.returned report hold pages hreturned)
    · rw [List.mem_singleton.mp hnew] at hreturned
      cases hreturned

theorem inv_fail (h : Inv codec w) (i : Fin n) (tx : Tx Row Program) (e : Schema.Error) :
    Inv codec (fail w i tx e) :=
  inv_failed (inv_rollback h i) tx.program.request e

/-! A commit. -/

theorem first_some {key : DocumentKey} {report : Report} (h : first w key = some report) :
    report ∈ w.reports ∧ report.outcome.committed = true ∧ report.request.key = key := by
  obtain ⟨hmem,hyes⟩ := Table.mem_of_find? h
  rw [Bool.and_eq_true, beq_iff_eq] at hyes
  exact ⟨hmem,hyes⟩

theorem finish_committed (h : Inv codec w) (htx : w.db.sessions i = some tx) (outcome : Outcome) :
    (finish w i tx outcome).db.committed = w.db.committed++tx.writes := rows_eq h htx

/-- The rest of the invariant, from what a commit has stored. -/
theorem inv_commit (h : Inv codec w) (htx : w.db.sessions i = some tx) {outcome : Outcome}
    (hstored : Stored codec (finish w i tx outcome))
    (hdocument : ∃ d ∈ documents (finish w i tx outcome).db.committed,
      d.key = tx.program.request.key ∧ d.scope = tx.program.request.scope)
    (hreturned : ∀ pages, outcome = .returned pages →
      Canonical codec (finish w i tx outcome) tx.program.request pages) :
    Inv codec (finish w i tx outcome) := by
  have hfirst : ∀ key report, first w key = some report →
      first (finish w i tx outcome) key = some report := fun _ _ => first_append rfl
  have hdocuments : documents (finish w i tx outcome).db.committed =
      documents w.db.committed++documents tx.writes := by
    rw [finish_committed h htx, documents, List.filterMap_append]
    rfl
  constructor
  · exact hstored
  · intro j a ha
    obtain ⟨hpages,hstatement⟩ := h.statements j a (ReadCommitted.session_commit ha).2
    exact ⟨hpages,statementOk_mono (w := w) rfl (Nat.le_refl _) hfirst hstatement⟩
  · intro j a ha d hd e he
    obtain ⟨hne,hold⟩ := ReadCommitted.session_commit ha
    rw [hdocuments] at he
    rcases List.mem_append.mp he with he | he
    · exact h.new j a hold d hd e he
    · exact h.exclusive j i hne a tx hold htx d hd e he
  · intro j k hne a b ha hb
    exact h.exclusive j k hne a b (ReadCommitted.session_commit ha).2
      (ReadCommitted.session_commit hb).2
  · intro report hreport hyes
    rcases List.mem_append.mp hreport with hold | hnew
    · obtain ⟨d,hd,hrest⟩ := h.committed report hold hyes
      refine ⟨d,?_,hrest⟩
      rw [hdocuments]
      exact List.mem_append_left _ hd
    · rw [List.mem_singleton.mp hnew]
      exact hdocument
  · intro report hreport pages hpages
    rcases List.mem_append.mp hreport with hold | hnew
    · exact canonical_mono (w := w) hfirst (h.returned report hold pages hpages)
    · rw [List.mem_singleton.mp hnew] at hpages ⊢
      exact hreturned pages hpages

/-- The commit of a save which found a committed document. -/
theorem inv_finish_reads (h : Inv codec w) (htx : w.db.sessions i = some tx) {outcome : Outcome}
    {loaded : List BuiltPage} (hwrites : tx.writes = [])
    (hcanonical : Canonical codec w tx.program.request loaded)
    (hreturned : ∀ pages, outcome = .returned pages → pages = loaded) :
    Inv codec (finish w i tx outcome) := by
  have hfirst : ∀ key report, first w key = some report →
      first (finish w i tx outcome) key = some report := fun _ _ => first_append rfl
  have hcommitted : (finish w i tx outcome).db.committed = w.db.committed := by
    rw [finish_committed h htx, hwrites, List.append_nil]
  refine inv_commit h htx ?_ ?_ ?_
  · constructor
    · rw [hcommitted]
      exact h.stored.keys
    · rw [hcommitted]
      exact h.stored.known
    · rw [hcommitted]
      exact h.stored.parents
    · rw [hcommitted]
      intro d hd
      obtain ⟨report,hreport,hrest⟩ := h.stored.saved d hd
      exact ⟨report,hfirst _ _ hreport,hrest⟩
  · obtain ⟨report,hreport,hscope,_⟩ := hcanonical
    obtain ⟨hmem,hyes,hkey⟩ := first_some hreport
    obtain ⟨d,hd,hdkey,hdscope⟩ := h.committed report hmem hyes
    rw [hcommitted]
    exact ⟨d,hd,hdkey.trans hkey,hdscope.trans hscope⟩
  · intro pages hpages
    rw [hreturned pages hpages]
    exact canonical_mono hfirst hcanonical

theorem pagesOf_append (rs new : List Row) (documentId : ℕ) :
    pagesOf (rs++new) documentId = pagesOf rs documentId++pagesOf new documentId := by
  rw [pagesOf, pages, List.filterMap_append, List.filter_append]
  rfl

theorem pagesOf_family {d : NativeDocumentRow} {children : List NativePageRow}
    (h : ∀ p ∈ children, p.nativeDocumentId = d.nativeDocumentId) :
    pagesOf (family d children) d.nativeDocumentId = children := by
  rw [pagesOf, pages_family, List.filter_eq_self]
  exact fun p hp => beq_iff_eq.mpr (h p hp)

theorem pagesOf_other {d : NativeDocumentRow} {children : List NativePageRow} {documentId : ℕ}
    (h : ∀ p ∈ children, p.nativeDocumentId = d.nativeDocumentId)
    (hne : documentId ≠ d.nativeDocumentId) : pagesOf (family d children) documentId = [] := by
  rw [pagesOf, pages_family, List.filter_eq_nil_iff]
  intro p hp
  rw [h p hp, beq_iff_eq]
  exact hne.symm

/-- No committed page is one of a document which is not committed yet. -/
theorem pagesOf_new (h : Stored codec w) {d : NativeDocumentRow}
    (hnew : ∀ e ∈ documents w.db.committed, Apart d e) :
    pagesOf w.db.committed d.nativeDocumentId = [] := by
  rw [pagesOf, List.filter_eq_nil_iff]
  intro p hp
  obtain ⟨e,he,hid⟩ := h.parents p hp
  rw [← hid, beq_iff_eq]
  exact (hnew e he).2

/-- The first commit of a key. -/
theorem inv_finish_writes (h : Inv codec w) (htx : w.db.sessions i = some tx) {outcome : Outcome}
    (hyes : outcome.committed = true) {d : NativeDocumentRow} {children : List NativePageRow}
    (hwrites : Writes w tx d children) (hcomplete : Complete codec tx.program.request d children)
    {loaded : List BuiltPage} (hread : readBack codec tx.program.request.pages = some loaded)
    (hreturned : ∀ pages, outcome = .returned pages → pages = loaded) :
    Inv codec (finish w i tx outcome) := by
  have hchildren := fun p (hp : p ∈ children) => (complete_mem hcomplete hp).1
  have hnew : ∀ e ∈ documents w.db.committed, Apart d e := by
    intro e he
    refine h.new i tx htx d ?_ e he
    rw [hwrites.rows, documents_family]
    exact List.mem_singleton.mpr rfl
  have hold : ∀ key report, first w key = some report →
      first (finish w i tx outcome) key = some report := fun _ _ => first_append rfl
  have hfirst : first (finish w i tx outcome) d.key = some ⟨tx.program.request,outcome⟩ := by
    have hnone : first w d.key = none := by
      cases hreport : first w d.key with
      | none => rfl
      | some report =>
        obtain ⟨hmem,hreported,hkey⟩ := first_some hreport
        obtain ⟨e,he,hekey,_⟩ := h.committed report hmem hreported
        exact absurd (hekey.trans hkey) (hnew e he).1
    rw [first] at hnone
    rw [first, finish, List.find?_append, hnone, List.find?_cons_of_pos]
    · rfl
    · rw [hyes, Bool.true_and, beq_iff_eq]
      exact hwrites.header.key.symm
  have hcommitted : (finish w i tx outcome).db.committed = w.db.committed++family d children := by
    rw [finish_committed h htx, hwrites.rows]
  have hdocuments : documents (finish w i tx outcome).db.committed =
      documents w.db.committed++[d] := by
    rw [hcommitted, documents, List.filterMap_append]
    exact congrArg (_++·) (documents_family d children)
  have hmem : d ∈ documents (finish w i tx outcome).db.committed := by
    rw [hdocuments]
    exact List.mem_append_right _ List.mem_cons_self
  refine inv_commit h htx ?_ ⟨d,hmem,hwrites.header.key,hwrites.header.scope⟩ ?_
  · constructor
    · rw [hdocuments, List.map_append, List.nodup_append]
      refine ⟨h.stored.keys,by simp,?_⟩
      intro a ha b hb
      obtain ⟨e,he,rfl⟩ := List.mem_map.mp ha
      rw [List.map_singleton, List.mem_singleton] at hb
      rw [hb]
      exact (hnew e he).1
    · rw [hdocuments]
      intro e he
      rcases List.mem_append.mp he with he | he
      · exact h.stored.known e he
      · rw [List.mem_singleton.mp he]
        exact hwrites.known
    · intro p hp
      rw [hcommitted, pages, List.filterMap_append] at hp
      rcases List.mem_append.mp hp with hp | hp
      · obtain ⟨e,he,hid⟩ := h.stored.parents p hp
        exact ⟨e,by rw [hdocuments]; exact List.mem_append_left _ he,hid⟩
      · rw [show (family d children).filterMap Row.page? = children from pages_family d children] at hp
        exact ⟨d,hmem,(hchildren p hp).symm⟩
    · rw [hdocuments]
      intro e he
      rw [hcommitted, pagesOf_append]
      rcases List.mem_append.mp he with he | he
      · obtain ⟨report,hreport,hheader,hnumbered,hpages⟩ := h.stored.saved e he
        rw [pagesOf_other hchildren (hnew e he).2, List.append_nil]
        exact ⟨report,hold _ _ hreport,hheader,hnumbered,hpages⟩
      · rw [List.mem_singleton.mp he, pagesOf_new h.stored hnew, pagesOf_family hchildren,
          List.nil_append]
        exact ⟨_,hfirst,hwrites.header,(h.statements i tx htx).1,hcomplete⟩
  · intro pages hpages
    rw [hreturned pages hpages]
    exact ⟨_,hwrites.header.key ▸ hfirst,rfl,hread⟩

theorem inv_finish (h : Inv codec w) (htx : w.db.sessions i = some tx) {loaded : List BuiltPage}
    (hstatement : tx.program.statement = .finish loaded) {outcome : Outcome}
    (hyes : outcome.committed = true)
    (hreturned : ∀ pages, outcome = .returned pages → pages = loaded) :
    Inv codec (finish w i tx outcome) := by
  have hok := (h.statements i tx htx).2
  rw [StatementOk, hstatement] at hok
  rcases hok with ⟨hwrites,hcanonical⟩ | ⟨d,children,hwrites,hcomplete,hread⟩
  · exact inv_finish_reads h htx hwrites hcanonical hreturned
  · exact inv_finish_writes h htx hyes hwrites hcomplete hread hreturned

/-! Loads. -/

/-- A load of the committed rows returns what the first committed save has saved. -/
theorem load_committed (h : Stored codec w) {scope : Scope} {jobId : JobId} {profile : String}
    {digest : Option String} {loaded : List BuiltPage}
    (hload : loadRows codec w.db.committed w.store scope jobId profile digest = .ok (some loaded)) :
    ∃ source report, (acceptedSource w.store scope jobId).map (·.sourceDigest) = some source ∧
      digest.all (· == source) = true ∧ first w (jobId,profile,source) = some report ∧
      report.request.scope = scope ∧ readBack codec report.request.pages = some loaded := by
  obtain ⟨d,hd,hsource,hdigest,hread⟩ := loadRows_ok h.keys hload
  obtain ⟨hjob,hscope,hprofile,_⟩ := source_key hsource
  obtain ⟨report,hreport,hheader,hnumbered,hcomplete⟩ := h.saved d hd
  refine ⟨d.sourceDigest,report,?_,hdigest,?_,?_,?_⟩
  · rw [← hscope, ← hjob]
    exact hheader.source
  · rw [← hreport, NativeDocumentRow.key, hjob, hprofile]
  · rw [← hheader.scope, hscope]
  · exact complete_read hnumbered hcomplete hread

theorem load_own (h : Inv codec w) (htx : w.db.sessions i = some tx) {d : NativeDocumentRow}
    {children : List NativePageRow} (hwrites : Writes w tx d children)
    (hcomplete : Complete codec tx.program.request d children) {loaded : List BuiltPage}
    (hload : loadRows codec (rows w tx) w.store tx.program.request.scope tx.program.request.jobId
      tx.program.request.profile (some tx.program.request.sourceDigest) = .ok (some loaded)) :
    readBack codec tx.program.request.pages = some loaded := by
  have hnew : ∀ e ∈ documents w.db.committed, Apart d e := by
    intro e he
    refine h.new i tx htx d ?_ e he
    rw [hwrites.rows, documents_family]
    exact List.mem_singleton.mpr rfl
  rw [rows_eq h htx, hwrites.rows] at hload
  have hdocuments : documents (w.db.committed++family d children) =
      documents w.db.committed++[d] := by
    rw [documents, List.filterMap_append]
    exact congrArg (_++·) (documents_family d children)
  have hkeys : ((documents (w.db.committed++family d children)).map NativeDocumentRow.key).Nodup := by
    rw [hdocuments]
    refine Table.nodup_append_key h.stored.keys ?_
    exact fun e he => (hnew e he).1
  obtain ⟨e,he,hsource,hdigest,hread⟩ := loadRows_ok hkeys hload
  have hkey : e.key = d.key := by
    obtain ⟨hjob,_,hprofile,_⟩ := source_key hsource
    rw [hwrites.header.key, NativeDocumentRow.key, SaveNativePages.key, hjob, hprofile,
      show tx.program.request.sourceDigest = e.sourceDigest by simpa using hdigest]
  rw [hdocuments] at he
  rcases List.mem_append.mp he with he | he
  · exact absurd hkey (hnew e he).1
  · rw [List.mem_singleton.mp he, pagesOf_append, pagesOf_new h.stored hnew,
      pagesOf_family fun p hp => (complete_mem hcomplete hp).1, List.nil_append] at hread
    exact complete_read (h.statements i tx htx).1 hcomplete hread

theorem inv_load (h : Inv codec w) (htx : w.db.sessions i = some tx)
    (hstatement : tx.program.statement = .loadPages) : Inv codec (loadCanonical codec w i tx) := by
  have hok := (h.statements i tx htx).2
  rw [StatementOk, hstatement] at hok
  unfold loadCanonical
  split
  · exact inv_fail h i tx _
  · exact inv_fail h i tx _
  · rename_i loaded hload
    refine inv_goto h htx ?_
    rcases hok with hnone | ⟨d,children,hwrites,hcomplete⟩
    · rw [rows_eq h htx, hnone, List.append_nil] at hload
      obtain ⟨source,report,_,hdigest,hreport,hrest⟩ := load_committed h.stored hload
      have hsource : tx.program.request.sourceDigest = source := by simpa using hdigest
      rw [← hsource] at hreport
      exact Or.inl ⟨hnone,report,hreport,hrest⟩
    · exact Or.inr ⟨d,children,⟨hwrites.rows,hwrites.header,hwrites.known⟩,hcomplete,
        load_own h htx hwrites hcomplete hload⟩

/-! Inserts. -/

theorem inv_insertDocument (h : Inv codec w) (htx : w.db.sessions i = some tx)
    (hstatement : tx.program.statement = .insertDocument) (now : ℤ) :
    Inv codec (insertDocument w i tx now) := by
  have hok := (h.statements i tx htx).2
  rw [StatementOk, hstatement] at hok
  have hnone : tx.writes = [] := hok
  unfold insertDocument
  by_cases hselects : selects w.store tx.program.request = true
  · rw [if_neg (by simp [hselects])]
    split_ifs with hshape hvisible hfree
    · exact inv_fail h i tx _
    · exact inv_goto h htx (Or.inl hnone)
    · refine inv_setTx h (Nat.le_succ _) rfl (h.statements i tx htx).1 ?_ ?_
      · refine ⟨newDocument w.store w.nextDocumentId now tx.program.request,rfl,?_,
          new_header hselects,Nat.lt_succ_self _⟩
        show tx.writes++_ = _
        rw [hnone]
        rfl
      · intro d hd
        rw [hnone] at hd
        rw [List.mem_singleton.mp hd]
        rw [rows_eq h htx, hnone, List.append_nil, Bool.not_eq_true, List.any_eq_false] at hvisible
        refine ⟨fun e he => ⟨fun heq => hvisible e he (beq_iff_eq.mpr heq),
          (h.stored.known e he).ne⟩,?_⟩
        intro j hne b hb e he
        refine ⟨?_,?_⟩
        · intro heq
          have hheld := hfree j hne b hb
          have hmem := ReadCommitted.holds_of_mem Row.key (mem_documents.mp he)
          rw [show Row.key (.document e) = .document tx.program.request.key from
            congrArg Key.document heq, hheld] at hmem
          cases hmem
        · rcases writes_cases (h.statements j b hb).2 with hempty | ⟨d,children,hwrites,_⟩
          · rw [hempty] at he
            cases he
          · rw [hwrites.rows, documents_family] at he
            rw [List.mem_singleton.mp he]
            exact hwrites.known.ne
    · exact h
  · rw [if_pos (by simp [hselects])]
    exact inv_goto h htx (Or.inl hnone)

theorem inv_insertPages (h : Inv codec w) (htx : w.db.sessions i = some tx) {documentId : ℕ}
    (hstatement : tx.program.statement = .insertPages documentId) :
    Inv codec (insertPages codec w i tx documentId) := by
  have hok := (h.statements i tx htx).2
  rw [StatementOk, hstatement] at hok
  obtain ⟨d,hid,hwrites⟩ := hok
  unfold insertPages
  split
  · exact inv_fail h i tx _
  · rename_i children hchildren
    refine inv_continue h htx (documents_pages children) (Or.inr ⟨d,children,?_,?_⟩)
    · refine ⟨?_,hwrites.header,hwrites.known⟩
      show tx.writes++_ = _
      rw [hwrites.rows]
      rfl
    · show tx.program.request.pages.mapM _ = some children
      rw [hid, hwrites.header.scope]
      exact hchildren

theorem step_inv (h : Inv codec w) (a : Action n) : Inv codec (step codec w a) := by
  cases a with
  | start i request =>
    simp only [step]
    cases hsession : w.db.sessions i with
    | some tx => exact h
    | none =>
      dsimp only
      by_cases hadmissible : admissible codec request.pages = true
      · rw [if_pos hadmissible]
        simp only [admissible, Bool.and_eq_true] at hadmissible
        refine inv_setTx h (Nat.le_refl _) rfl hadmissible.1.2 rfl ?_
        exact fun d hd => absurd hd List.not_mem_nil
      · rw [if_neg hadmissible]
        exact inv_failed h request _
  | exec i now =>
    simp only [step]
    cases htx : w.db.sessions i with
    | none => exact h
    | some tx =>
      dsimp only
      unfold exec
      split
      · rename_i hstatement
        exact inv_insertDocument h htx hstatement now
      · rename_i documentId hstatement
        exact inv_insertPages h htx hstatement
      · rename_i hstatement
        exact inv_load h htx hstatement
      · rename_i loaded hstatement
        refine inv_finish h htx hstatement rfl ?_
        exact fun pages hpages => (Outcome.returned.inj hpages).symm
  | disconnect i =>
    simp only [step]
    cases htx : w.db.sessions i with
    | none => exact h
    | some tx =>
      dsimp only
      unfold disconnect
      split
      · rename_i loaded hstatement
        exact inv_finish h htx hstatement rfl nofun
      · exact inv_fail h i tx _

theorem initial_inv (codec : PageCodec) (n : ℕ) (store : Store) : Inv codec (initial n store) where
  stored := ⟨List.nodup_nil,nofun,nofun,nofun⟩
  statements := nofun
  new := nofun
  exclusive := nofun
  committed := nofun
  returned := nofun

theorem reached_inv (codec : PageCodec) (n : ℕ) (store : Store) (as : List (Action n)) :
    Inv codec (reached codec n store as) :=
  run_invariant (I := Inv codec) (fun _ a h => step_inv h a) (initial_inv codec n store) as

/-! ### Agreement -/

theorem exec_store (w : World n) (i : Fin n) (tx : Tx Row Program) (now : ℤ) :
    (exec codec w i tx now).store = w.store := by
  unfold exec
  split
  · unfold insertDocument
    split_ifs <;> rfl
  · unfold insertPages
    split <;> rfl
  · unfold loadCanonical
    split <;> rfl
  · rfl

theorem step_store (w : World n) (a : Action n) : (step codec w a).store = w.store := by
  cases a with
  | start i request =>
    simp only [step]
    split
    · rfl
    · split <;> rfl
  | exec i now =>
    simp only [step]
    split
    · rfl
    · exact exec_store w i _ now
  | disconnect i =>
    simp only [step]
    split
    · rfl
    · unfold disconnect
      split <;> rfl

theorem reached_store (codec : PageCodec) (n : ℕ) (store : Store) (as : List (Action n)) :
    (reached codec n store as).store = store :=
  run_invariant (I := fun w => w.store = store) (fun w a h => (step_store w a).trans h) rfl as

theorem exec_committed (codec : PageCodec) (w : World n) (i : Fin n) (tx : Tx Row Program)
    (now : ℤ) : (exec codec w i tx now).db.committed = w.db.committed ∨
      (exec codec w i tx now).db.committed = rows w tx := by
  unfold exec
  split
  · unfold insertDocument
    split_ifs <;> exact Or.inl rfl
  · unfold insertPages
    split <;> exact Or.inl rfl
  · unfold loadCanonical
    split <;> exact Or.inl rfl
  · exact Or.inr rfl

/-- A save which has written nothing changes nothing. -/
theorem step_reads (h : Inv codec w) (htx : w.db.sessions i = some tx) (hnone : tx.writes = [])
    {a : Action n} (ha : (∃ now, a = .exec i now) ∨ a = .disconnect i) :
    (step codec w a).db.committed = w.db.committed := by
  have hrows : rows w tx = w.db.committed := by
    rw [rows_eq h htx, hnone, List.append_nil]
  rcases ha with ⟨now,rfl⟩ | rfl
  · rw [step, htx]
    exact (exec_committed codec w i tx now).elim id fun heq => heq.trans hrows
  · rw [step, htx]
    dsimp only
    unfold disconnect
    split
    · exact hrows
    · rfl

/-- Nothing is written for another digest than the accepted one. -/
theorem writes_sourced (h : Inv codec w) (htx : w.db.sessions i = some tx)
    (hdigest : (acceptedSource w.store tx.program.request.scope tx.program.request.jobId).map
      (·.sourceDigest) ≠ some tx.program.request.sourceDigest) : tx.writes = [] := by
  refine (writes_cases (h.statements i tx htx).2).resolve_right ?_
  rintro ⟨d,_,hwrites,_⟩
  have hsource := hwrites.header.source
  have hkey := hwrites.header.key
  rw [NativeDocumentRow.key, SaveNativePages.key, Prod.mk.injEq, Prod.mk.injEq] at hkey
  rw [hwrites.header.scope, hkey.1, hkey.2.2] at hsource
  exact hdigest hsource

theorem committed_sourced (h : Inv codec w) {report : Report} (hreport : report ∈ w.reports)
    (hyes : report.outcome.committed = true) :
    (acceptedSource w.store report.request.scope report.request.jobId).map (·.sourceDigest) =
      some report.request.sourceDigest := by
  obtain ⟨d,hd,hkey,hscope⟩ := h.committed report hreport hyes
  obtain ⟨_,_,hheader,_⟩ := h.stored.saved d hd
  have hsource := hheader.source
  rw [NativeDocumentRow.key, SaveNativePages.key, Prod.mk.injEq, Prod.mk.injEq] at hkey
  rw [hscope, hkey.1, hkey.2.2] at hsource
  exact hsource

theorem canonical_unique {request request' : SaveNativePages} (hkey : request.key = request'.key)
    {pages pages' : List BuiltPage} (h : Canonical codec w request pages)
    (h' : Canonical codec w request' pages') : pages = pages' := by
  obtain ⟨report,hreport,_,hread⟩ := h
  obtain ⟨report',hreport',_,hread'⟩ := h'
  rw [hkey, hreport', Option.some.injEq] at hreport
  rw [hreport, hread] at hread'
  exact Option.some.inj hread'

theorem readBack_length {saved pages : List BuiltPage} (h : readBack codec saved = some pages) :
    pages.length = saved.length := (Table.mapM_some_iff.mp h).length_eq.symm

end Steps

/-- Every save which returns gives the pages of the first committed save of its key, and so
does every load. A save for another digest than the accepted one fails, and no step of it
changes the committed rows. -/
theorem first_writer_wins (codec : PageCodec) (n : ℕ) (store : Store) (as : List (Action n)) :
    let w := reached codec n store as
    (∀ report ∈ w.reports, ∀ pages, report.outcome = .returned pages →
      Canonical codec w report.request pages ∧
      ∀ other ∈ w.reports, other.request.key = report.request.key →
        ∀ pages', other.outcome = .returned pages' → pages' = pages) ∧
    (∀ scope jobId profile pages,
      loadNativePages codec w scope jobId profile = .ok (some pages) →
      ∃ source report, first w (jobId,profile,source) = some report ∧
        readBack codec report.request.pages = some pages ∧
        pages.length = report.request.pages.length) ∧
    (∀ report ∈ w.reports, (acceptedSource store report.request.scope report.request.jobId).map
      (·.sourceDigest) ≠ some report.request.sourceDigest → ∃ e, report.outcome = .failed e) ∧
    ∀ i tx, w.db.sessions i = some tx →
      (acceptedSource store tx.program.request.scope tx.program.request.jobId).map
        (·.sourceDigest) ≠ some tx.program.request.sourceDigest →
      ∀ a, ((∃ now, a = .exec i now) ∨ a = .disconnect i) →
        (step codec w a).db.committed = w.db.committed := by
  intro w
  have h : Inv codec w := reached_inv codec n store as
  have hstore : w.store = store := reached_store codec n store as
  refine ⟨?_,?_,?_,?_⟩
  · intro report hreport pages hpages
    refine ⟨h.returned report hreport pages hpages,?_⟩
    intro other hother hkey pages' hpages'
    exact canonical_unique hkey (h.returned other hother pages' hpages')
      (h.returned report hreport pages hpages)
  · intro scope jobId profile pages hload
    obtain ⟨source,report,_,_,hreport,_,hread⟩ := load_committed h.stored hload
    exact ⟨source,report,hreport,hread,readBack_length hread⟩
  · intro report hreport hdigest
    cases houtcome : report.outcome with
    | failed e => exact ⟨e,rfl⟩
    | _ =>
      refine absurd (hstore ▸ committed_sourced h hreport ?_) hdigest
      rw [houtcome]
      rfl
  · intro i tx htx hdigest a ha
    rw [← hstore] at hdigest
    exact step_reads h htx (writes_sourced h htx hdigest) ha

end DocumentIntelligence.NativePageRaces
