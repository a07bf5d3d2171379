import DocumentIntelligence.DocumentPages
import DocumentIntelligence.JsonTree

/-!
# Document results

The result of a document with its pages, citations, fields, tables and provenance.
The value of an extracted field is not looked into.
-/

set_option autoImplicit false

namespace DocumentIntelligence.DocumentResults
open Identifiers (DocumentId DocumentVersion validatedId)
open DocumentPages

inductive Error where
  | missingEvidence
  | missingDocumentEvidence
  | invalidStableCode
  | invalidTable
  | invalidTableId
  | invalidDocumentPage
  | invalidFieldName
  | invalidProcessingProvenance
  | invalidCost
  | unsupportedResultSchemaVersion
  deriving DecidableEq, Repr

/-- `PageNumber` -/
def validPage (page : ℕ) : Bool := decide (1 ≤ page ∧ page < 2^32)

structure Evidence where
  page : ℕ
  polygon : Polygon
  observationId : ObservationId
  valid : validPage page = true
  deriving DecidableEq

def fitsU32 (page : DocumentPage) : Bool :=
  decide (page.page < 2^32 ∧ page.width < 2^32 ∧ page.height < 2^32) &&
    page.observations.all fun o => decide (o.readingOrder < 2^32)

/-- A page as `DocumentPage::new` returns it, with its observations in reading order and
numbers of 32 bits. -/
structure BuiltPage extends DocumentPage where
  fits : fitsU32 toDocumentPage = true
  sorted : ordered observations = observations
  deriving DecidableEq

theorem ordered_eq {observations : List TextObservation}
    (h : observations.Pairwise fun a b => a.readingOrder ≤ b.readingOrder) :
    ordered observations = observations :=
  List.mergeSort_of_pairwise (h.imp fun hle => decide_eq_true hle)

def validStableCode (value : String) : Bool :=
  match value.toList with
  | [] => false
  | first::rest => decide (value.utf8ByteSize ≤ 64) && first.isLower &&
      rest.all fun c => c.isLower || c.isDigit || c == '_'

structure StableCode where
  asStr : String
  valid : validStableCode asStr = true
  deriving DecidableEq

def StableCode.new (value : String) : Except Error StableCode :=
  if h : validStableCode value = true then .ok ⟨value,h⟩ else .error .invalidStableCode

structure TableId where
  asStr : String
  valid : validatedId asStr "tbl_" = true
  deriving DecidableEq

structure TableCell where
  row : ℕ
  column : ℕ
  text : String
  confidence : Confidence
  evidence : List Evidence
  valid : (decide (row < 2^32 ∧ column < 2^32) && !evidence.isEmpty) = true
  deriving DecidableEq

def maximumCells : ℕ := 10000

structure DocumentTable where
  tableId : TableId
  cells : List TableCell
  valid : (!cells.isEmpty && decide (cells.length ≤ maximumCells)) = true
  deriving DecidableEq

structure ConfidenceDimensions where
  inputQuality : Confidence
  ocr : Confidence
  classification : Confidence
  extraction : Confidence
  validation : Confidence
  overall : Confidence
  deriving DecidableEq

inductive ValidationSeverity where
  | warning
  | error
  deriving DecidableEq, Repr

structure ValidationFailure where
  code : StableCode
  severity : ValidationSeverity
  deriving DecidableEq

def validVersionName (value : String) : Bool :=
  decide (1 ≤ value.utf8ByteSize ∧ value.utf8ByteSize ≤ 128) &&
    (value.toList.all fun c => c.isAlphanum || c == '.' || c == '_' || c == '-') &&
    (value.toList.head?.any fun c => c.isAlphanum)

def validProvenance (provider modelVersion processingProfileVersion : String)
    (durationMs : ℕ) : Bool :=
  validVersionName provider && validVersionName modelVersion &&
    validVersionName processingProfileVersion && decide (durationMs < 2^64)

structure ProcessingProvenance where
  provider : String
  modelVersion : String
  processingProfileVersion : String
  durationMs : ℕ
  valid : validProvenance provider modelVersion processingProfileVersion durationMs = true
  deriving DecidableEq

def ProcessingProvenance.new (provider modelVersion processingProfileVersion : String)
    (durationMs : ℕ) : Except Error ProcessingProvenance :=
  if h : validProvenance provider modelVersion processingProfileVersion durationMs = true then
    .ok ⟨provider,modelVersion,processingProfileVersion,durationMs,h⟩
  else .error .invalidProcessingProvenance

def isAsciiUppercase (c : Char) : Bool := 'A' ≤ c && c ≤ 'Z'

/-- Digits, with a dot and digits after them or without. -/
def validDecimal (decimal : String) : Bool :=
  match decimal.toList.splitOn '.' with
  | [whole] => !whole.isEmpty && whole.all Char.isDigit
  | [whole,fraction] => !whole.isEmpty && whole.all Char.isDigit &&
      !fraction.isEmpty && fraction.all Char.isDigit
  | _ => false

def validCost (currency decimal : String) : Bool :=
  decide (currency.utf8ByteSize = 3) && currency.toList.all isAsciiUppercase && validDecimal decimal

structure Cost where
  currency : String
  decimal : String
  valid : validCost currency decimal = true
  deriving DecidableEq

section Results
variable (V : Type)

structure ExtractedValue where
  value : V
  confidence : Confidence
  evidence : List Evidence
  valid : (!evidence.isEmpty) = true

/-- `BTreeMap<String, ExtractedValue>`: the names are in ascending order. -/
structure Fields where
  entries : List (String × ExtractedValue V)
  ascending : (entries.map (·.1)).Pairwise (· < ·)

structure DocumentResultPayload where
  text : String
  markdown : String
  pages : List BuiltPage
  fields : Fields V
  tables : List DocumentTable
  confidence : Option ConfidenceDimensions
  citations : List Evidence
  warnings : List StableCode
  validationFailures : List ValidationFailure
  provenance : Option ProcessingProvenance
  cost : Option Cost

variable {V}

def Fields.empty : Fields V := ⟨[],List.Pairwise.nil⟩

def DocumentResultPayload.default : DocumentResultPayload V where
  text := ""
  markdown := ""
  pages := []
  fields := Fields.empty
  tables := []
  confidence := none
  citations := []
  warnings := []
  validationFailures := []
  provenance := none
  cost := none

def resultSchemaVersion : String := "1.0"

def maximumPageCount : ℕ := 1000

/-- `pages.sort_by_key(|page| page.page)` -/
def byNumber (pages : List BuiltPage) : List BuiltPage :=
  pages.mergeSort fun a b => decide (a.page ≤ b.page)

/-- `windows(2).any(..)` -/
def adjacentEqual : List BuiltPage → Bool
  | a::b::pages => a.page == b.page || adjacentEqual (b::pages)
  | _ => false

variable (V) in
/-- The members of a result which `DocumentResult::new` does not set are those of
the payload. -/
structure DocumentResult where
  schemaVersion : String
  documentId : DocumentId
  documentVersion : DocumentVersion
  text : String
  markdown : String
  pages : List BuiltPage
  fields : Fields V
  tables : List DocumentTable
  confidence : Option ConfidenceDimensions
  citations : List Evidence
  warnings : List StableCode
  validationFailures : List ValidationFailure
  provider : Option String
  modelVersion : Option String
  processingProfileVersion : Option String
  durationMs : Option ℕ
  cost : Option Cost

/-- The result of accepted members. -/
def DocumentResult.ofPayload (documentId : DocumentId) (documentVersion : DocumentVersion)
    (payload : DocumentResultPayload V) : DocumentResult V where
  schemaVersion := resultSchemaVersion
  documentId := documentId
  documentVersion := documentVersion
  text := payload.text
  markdown := payload.markdown
  pages := byNumber payload.pages
  fields := payload.fields
  tables := payload.tables
  confidence := payload.confidence
  citations := payload.citations
  warnings := payload.warnings
  validationFailures := payload.validationFailures
  provider := payload.provenance.map (·.provider)
  modelVersion := payload.provenance.map (·.modelVersion)
  processingProfileVersion := payload.provenance.map (·.processingProfileVersion)
  durationMs := payload.provenance.map (·.durationMs)
  cost := payload.cost

def DocumentResult.new (documentId : DocumentId) (documentVersion : DocumentVersion)
    (payload : DocumentResultPayload V) : Except Error (DocumentResult V) :=
  if (payload.text ≠ "" ∨ payload.markdown ≠ "") ∧ payload.citations.isEmpty then
    .error .missingDocumentEvidence
  else if payload.fields.entries.any fun (name,_) =>
      name == "" || decide (128 < name.utf8ByteSize) then
    .error .invalidFieldName
  else if maximumPageCount < payload.pages.length then .error .invalidDocumentPage
  else if adjacentEqual (byNumber payload.pages) then .error .invalidDocumentPage
  else .ok (DocumentResult.ofPayload documentId documentVersion payload)

/-- What `DocumentResult::new` has checked. -/
structure Checked (payload : DocumentResultPayload V) : Prop where
  cited : payload.text ≠ "" ∨ payload.markdown ≠ "" → payload.citations ≠ []
  named : ∀ entry ∈ payload.fields.entries, entry.1 ≠ "" ∧ entry.1.utf8ByteSize ≤ 128
  counted : payload.pages.length ≤ maximumPageCount
  distinct : adjacentEqual (byNumber payload.pages) = false

theorem new_ok {documentId : DocumentId} {documentVersion : DocumentVersion}
    {payload : DocumentResultPayload V} {result : DocumentResult V} :
    DocumentResult.new documentId documentVersion payload = .ok result ↔
      Checked payload ∧ result = DocumentResult.ofPayload documentId documentVersion payload := by
  rw [DocumentResult.new]
  by_cases hcited : (payload.text ≠ "" ∨ payload.markdown ≠ "") ∧
      payload.citations.isEmpty = true
  · rw [if_pos hcited]
    refine ⟨nofun,fun h => ?_⟩
    exact absurd (List.isEmpty_iff.mp hcited.2) (h.1.cited hcited.1)
  rw [if_neg hcited]
  by_cases hnamed : (payload.fields.entries.any fun (name,_) =>
      name == "" || decide (128 < name.utf8ByteSize)) = true
  · rw [if_pos hnamed]
    refine ⟨nofun,fun h => ?_⟩
    obtain ⟨entry,hmem,hbad⟩ := List.any_eq_true.mp hnamed
    have hok := h.1.named entry hmem
    simp only [Bool.or_eq_true, beq_iff_eq, decide_eq_true_eq] at hbad
    rcases hbad with hempty | hlong
    · exact absurd hempty hok.1
    · omega
  rw [if_neg hnamed]
  by_cases hcounted : maximumPageCount < payload.pages.length
  · rw [if_pos hcounted]
    exact ⟨nofun,fun h => absurd h.1.counted (Nat.not_le.mpr hcounted)⟩
  rw [if_neg hcounted]
  by_cases hdistinct : adjacentEqual (byNumber payload.pages) = true
  · rw [if_pos hdistinct]
    exact ⟨nofun,fun h => absurd h.1.distinct (by rw [hdistinct]; simp)⟩
  rw [if_neg hdistinct, Except.ok.injEq]
  constructor
  · intro h
    refine ⟨⟨?_,?_,Nat.not_lt.mp hcounted,by simpa using hdistinct⟩,h.symm⟩
    · intro htext hnone
      exact hcited ⟨htext,List.isEmpty_iff.mpr hnone⟩
    · intro entry hmem
      rw [Bool.not_eq_true, List.any_eq_false] at hnamed
      have hok := hnamed entry hmem
      simp only [Bool.or_eq_true, beq_iff_eq, decide_eq_true_eq, not_or] at hok
      exact ⟨hok.1,by omega⟩
  · exact fun h => h.2.symm

theorem new_missing {documentId : DocumentId} {documentVersion : DocumentVersion}
    {payload : DocumentResultPayload V}
    (h : DocumentResult.new documentId documentVersion payload = .error .missingDocumentEvidence) :
    (payload.text ≠ "" ∨ payload.markdown ≠ "") ∧ payload.citations = [] := by
  rw [DocumentResult.new] at h
  by_cases hcited : (payload.text ≠ "" ∨ payload.markdown ≠ "") ∧
      payload.citations.isEmpty = true
  · exact ⟨hcited.1,List.isEmpty_iff.mp hcited.2⟩
  · rw [if_neg hcited] at h
    split_ifs at h
    all_goals exact absurd h (by simp)

/-! ### Sorted pages -/

theorem byNumber_perm (pages : List BuiltPage) : (byNumber pages).Perm pages :=
  List.mergeSort_perm _ _

theorem byNumber_pairwise (pages : List BuiltPage) :
    (byNumber pages).Pairwise fun a b => a.page ≤ b.page := sorted_byKey (·.page) pages

theorem byNumber_eq {pages : List BuiltPage}
    (h : pages.Pairwise fun a b => a.page ≤ b.page) : byNumber pages = pages :=
  List.mergeSort_of_pairwise (h.imp fun hle => decide_eq_true hle)

/-- Pages of different numbers have one order. -/
theorem byNumber_congr {pages others : List BuiltPage} (hperm : pages.Perm others)
    (hdistinct : (pages.map (·.page)).Nodup) : byNumber pages = byNumber others := by
  have hsame : (byNumber pages).Perm (byNumber others) :=
    (byNumber_perm pages).trans (hperm.trans (byNumber_perm others).symm)
  refine List.Perm.eq_of_pairwise (fun a b ha hb hab hba => ?_) (byNumber_pairwise pages)
    (byNumber_pairwise others) hsame
  have ha' := (byNumber_perm pages).mem_iff.mp ha
  have hb' := hperm.mem_iff.mpr ((byNumber_perm others).mem_iff.mp hb)
  exact List.inj_on_of_nodup_map hdistinct ha' hb' (Nat.le_antisymm hab hba)

theorem adjacentEqual_iff {pages : List BuiltPage}
    (h : pages.Pairwise fun a b => a.page ≤ b.page) :
    adjacentEqual pages = false ↔ (pages.map (·.page)).Nodup := by
  induction pages with
  | nil => simp [adjacentEqual]
  | cons a pages ih =>
    cases pages with
    | nil => simp [adjacentEqual]
    | cons b pages =>
      rw [List.pairwise_cons] at h
      have hrest := ih h.2
      have hcons : ((a::b::pages).map (·.page)).Nodup ↔
          a.page ∉ (b::pages).map (·.page) ∧ ((b::pages).map (·.page)).Nodup := List.nodup_cons
      rw [adjacentEqual, Bool.or_eq_false_iff, hrest, hcons, beq_eq_false_iff_ne]
      constructor
      · rintro ⟨hne,hnodup⟩
        refine ⟨?_,hnodup⟩
        intro hmem
        obtain ⟨c,hc,hpage⟩ := List.mem_map.mp hmem
        have hab := h.1 b List.mem_cons_self
        rcases List.mem_cons.mp hc with rfl | hc
        · exact hne hpage.symm
        · have hbc := (List.pairwise_cons.mp h.2).1 c hc
          omega
      · rintro ⟨hnot,hnodup⟩
        exact ⟨fun heq => hnot (by rw [heq]; exact List.mem_cons_self),hnodup⟩

end Results

end DocumentIntelligence.DocumentResults
