import DocumentIntelligence.DocumentResults

/-!
# The JSON of a document result

Every value is written as the serializer writes it and read back through the checks of
its constructor.
-/

set_option autoImplicit false

namespace DocumentIntelligence.ResultJson
open Identifiers (DocumentId DocumentVersion validatedId isCanonicalSha256)
open JsonTree DocumentPages DocumentResults

section Json
variable {V : Type}

/-! ### Writers -/

def writeConfidence (c : Confidence) : Node V := .number c.value

def writePoint (p : NormalizedPoint) : Node V := .object [("x",.number p.x),("y",.number p.y)]

def writePolygon (p : Polygon) : Node V := .object [("points",.array (p.points.map writePoint))]

def writeEvidence (e : Evidence) : Node V :=
  .object [("page",.integer e.page),("polygon",writePolygon e.polygon),
    ("observation_id",.string e.observationId.asStr)]

def writeObservationId (id : ObservationId) : Node V := .string id.asStr

def writeObservation (o : TextObservation) : Node V :=
  .object [("observation_id",.string o.observationId.asStr),("level",.string o.level.asStr),
    ("text",.string o.text),("confidence",writeConfidence o.confidence),
    ("polygon",writePolygon o.polygon),("reading_order",.integer o.readingOrder),
    ("parent_observation_id",writeNullable writeObservationId o.parentObservationId)]

def writePage (p : DocumentPage) : Node V :=
  .object [("page",.integer p.page),("width",.integer p.width),("height",.integer p.height),
    ("observations",.array (p.observations.map writeObservation))]

def writeValue (e : ExtractedValue V) : Node V :=
  .object [("value",.value e.value),("confidence",writeConfidence e.confidence),
    ("evidence",.array (e.evidence.map writeEvidence))]

def writeCell (c : TableCell) : Node V :=
  .object [("row",.integer c.row),("column",.integer c.column),("text",.string c.text),
    ("confidence",writeConfidence c.confidence),
    ("evidence",.array (c.evidence.map writeEvidence))]

def writeTable (t : DocumentTable) : Node V :=
  .object [("table_id",.string t.tableId.asStr),("cells",.array (t.cells.map writeCell))]

def writeDimensions (c : ConfidenceDimensions) : Node V :=
  .object [("input_quality",writeConfidence c.inputQuality),("ocr",writeConfidence c.ocr),
    ("classification",writeConfidence c.classification),
    ("extraction",writeConfidence c.extraction),("validation",writeConfidence c.validation),
    ("overall",writeConfidence c.overall)]

def ValidationSeverity.asStr : ValidationSeverity → String
  | .warning => "warning"
  | .error => "error"

def writeCode (code : StableCode) : Node V := .string code.asStr

def writeFailure (f : ValidationFailure) : Node V :=
  .object [("code",writeCode f.code),("severity",.string (ValidationSeverity.asStr f.severity))]

def writeCost (c : Cost) : Node V :=
  .object [("currency",.string c.currency),("decimal",.string c.decimal)]

def writeField (entry : String × ExtractedValue V) : String × Node V :=
  (entry.1,writeValue entry.2)

def writeResult (r : DocumentResult V) : Node V :=
  .object [("schema_version",.string r.schemaVersion),("document_id",.string r.documentId.asStr),
    ("document_version",.string r.documentVersion.asStr),("content_trust",.string "untrusted"),
    ("text",.string r.text),("markdown",.string r.markdown),
    ("pages",.array (r.pages.map fun p => writePage p.toDocumentPage)),
    ("fields",.object (r.fields.entries.map writeField)),
    ("tables",.array (r.tables.map writeTable)),
    ("confidence",writeNullable writeDimensions r.confidence),
    ("citations",.array (r.citations.map writeEvidence)),
    ("warnings",.array (r.warnings.map writeCode)),
    ("validation_failures",.array (r.validationFailures.map writeFailure)),
    ("provider",writeNullable .string r.provider),
    ("model_version",writeNullable .string r.modelVersion),
    ("processing_profile_version",writeNullable .string r.processingProfileVersion),
    ("duration_ms",writeNullable .integer r.durationMs),("cost",writeNullable writeCost r.cost)]

/-- `serde_json::to_vec` -/
def toVec (formatF64 : Float → String) (formatValue : V → String) (r : DocumentResult V) :
    List UInt8 := ((writeResult r).render formatF64 formatValue).toUTF8.data.toList

/-- The page of a result has the text of a stored page. -/
theorem render_page (formatF64 : Float → String) (formatValue : V → String) (p : DocumentPage) :
    (writePage p : Node V).render formatF64 formatValue = p.json formatF64 := by
  have hpoint : ∀ q : NormalizedPoint,
      (writePoint q : Node V).render formatF64 formatValue = q.json formatF64 := fun _ => rfl
  have hpolygon : ∀ q : Polygon,
      (writePolygon q : Node V).render formatF64 formatValue = q.json formatF64 := by
    intro q
    simp only [writePolygon, Node.render, renderMembers, renderItems_map, hpoint, Polygon.json]
  have hobservation : ∀ o : TextObservation,
      (writeObservation o : Node V).render formatF64 formatValue = o.json formatF64 := by
    intro o
    have hparent : (writeNullable writeObservationId o.parentObservationId : Node V).render
        formatF64 formatValue =
          o.parentObservationId.elim "null" fun parent => Json.string parent.asStr := by
      cases o.parentObservationId with
      | none => rfl
      | some parent => rfl
    simp only [writeObservation, Node.render, renderMembers, hpolygon, hparent, writeConfidence,
      TextObservation.json]
  simp only [writePage, Node.render, renderMembers, renderItems_map, hobservation,
    DocumentPage.json]

/-! ### Readers -/

def readConfidence (tree : Node V) : Option Confidence :=
  (readNumber tree).bind fun value => if h : unit value = true then some ⟨value,h⟩ else none

def readPoint (tree : Node V) : Option NormalizedPoint := do
  let ms ← fieldsOf false ["x","y"] tree
  let x ← required "x" readNumber ms
  let y ← required "y" readNumber ms
  if h : (unit x && unit y) = true then some ⟨x,y,h⟩ else none

def readPolygon (tree : Node V) : Option Polygon := do
  let ms ← fieldsOf false ["points"] tree
  let points ← required "points" (readArray readPoint) ms
  if h : validPolygon points = true then some ⟨points,h⟩ else none

def readObservationId (tree : Node V) : Option ObservationId :=
  (readString tree).bind fun value =>
    if h : validatedId value "obs_" = true then some ⟨value,h⟩ else none

def readLevel (tree : Node V) : Option ObservationLevel :=
  (readString tree).bind fun value =>
    [ObservationLevel.page,.paragraph,.line,.word].find? fun level => level.asStr == value

/-- `PageNumber` -/
def readPageNumber (tree : Node V) : Option ℕ :=
  (readUnsigned 32 tree).bind fun page => if 1 ≤ page then some page else none

def readEvidence (tree : Node V) : Option Evidence := do
  let ms ← fieldsOf false ["page","polygon","observation_id"] tree
  let page ← required "page" (readUnsigned 32) ms
  let polygon ← required "polygon" readPolygon ms
  let observationId ← required "observation_id" readObservationId ms
  if h : validPage page = true then some ⟨page,polygon,observationId,h⟩ else none

def readObservation (tree : Node V) : Option TextObservation := do
  let ms ← fieldsOf true ["observation_id","level","text","confidence","polygon","reading_order",
    "parent_observation_id"] tree
  let observationId ← required "observation_id" readObservationId ms
  let level ← required "level" readLevel ms
  let text ← required "text" readString ms
  let confidence ← required "confidence" readConfidence ms
  let polygon ← required "polygon" readPolygon ms
  let readingOrder ← required "reading_order" (readUnsigned 32) ms
  let parent ← optional "parent_observation_id" readObservationId ms
  if h : validObservation text observationId parent = true then
    some ⟨observationId,level,text,confidence,polygon,readingOrder,parent,h⟩
  else none

/-- The bounds of the numbers and the order of the observations hold of every page which
is read. -/
def built (page : DocumentPage) : Option BuiltPage :=
  if h : fitsU32 page = true ∧ ordered page.observations = page.observations then
    some ⟨page,h.1,h.2⟩
  else none

def readPage (tree : Node V) : Option BuiltPage := do
  let ms ← fieldsOf true ["page","width","height","observations"] tree
  let page ← required "page" readPageNumber ms
  let width ← required "width" (readUnsigned 32) ms
  let height ← required "height" (readUnsigned 32) ms
  let observations ← required "observations" (readArray readObservation) ms
  let page ← DocumentPage.new page width height observations
  built page

def readOpaque : Node V → Option V
  | .value v => some v
  | _ => none

def readValue (tree : Node V) : Option (ExtractedValue V) := do
  let ms ← fieldsOf false ["value","confidence","evidence"] tree
  let value ← required "value" readOpaque ms
  let confidence ← required "confidence" readConfidence ms
  let evidence ← required "evidence" (readArray readEvidence) ms
  if h : (!evidence.isEmpty) = true then some ⟨value,confidence,evidence,h⟩ else none

def readCode (tree : Node V) : Option StableCode :=
  (readString tree).bind fun value => (StableCode.new value).toOption

def readTableId (tree : Node V) : Option TableId :=
  (readString tree).bind fun value =>
    if h : validatedId value "tbl_" = true then some ⟨value,h⟩ else none

def readCell (tree : Node V) : Option TableCell := do
  let ms ← fieldsOf true ["row","column","text","confidence","evidence"] tree
  let row ← required "row" (readUnsigned 32) ms
  let column ← required "column" (readUnsigned 32) ms
  let text ← required "text" readString ms
  let confidence ← required "confidence" readConfidence ms
  let evidence ← required "evidence" (readArray readEvidence) ms
  if h : (decide (row < 2^32 ∧ column < 2^32) && !evidence.isEmpty) = true then
    some ⟨row,column,text,confidence,evidence,h⟩
  else none

def readTable (tree : Node V) : Option DocumentTable := do
  let ms ← fieldsOf true ["table_id","cells"] tree
  let tableId ← required "table_id" readTableId ms
  let cells ← required "cells" (readArray readCell) ms
  if h : (!cells.isEmpty && decide (cells.length ≤ maximumCells)) = true then
    some ⟨tableId,cells,h⟩
  else none

def readDimensions (tree : Node V) : Option ConfidenceDimensions := do
  let ms ← fieldsOf false ["input_quality","ocr","classification","extraction","validation",
    "overall"] tree
  let inputQuality ← required "input_quality" readConfidence ms
  let ocr ← required "ocr" readConfidence ms
  let classification ← required "classification" readConfidence ms
  let extraction ← required "extraction" readConfidence ms
  let validation ← required "validation" readConfidence ms
  let overall ← required "overall" readConfidence ms
  some ⟨inputQuality,ocr,classification,extraction,validation,overall⟩

def readSeverity (tree : Node V) : Option ValidationSeverity :=
  (readString tree).bind fun value =>
    [ValidationSeverity.warning,.error].find? fun severity =>
      ValidationSeverity.asStr severity == value

def readFailure (tree : Node V) : Option ValidationFailure := do
  let ms ← fieldsOf false ["code","severity"] tree
  let code ← required "code" readCode ms
  let severity ← required "severity" readSeverity ms
  some ⟨code,severity⟩

def readCost (tree : Node V) : Option Cost := do
  let ms ← fieldsOf true ["currency","decimal"] tree
  let currency ← required "currency" readString ms
  let decimal ← required "decimal" readString ms
  if h : validCost currency decimal = true then some ⟨currency,decimal,h⟩ else none

def readDocumentId (tree : Node V) : Option DocumentId :=
  (readString tree).bind fun value => (DocumentId.new value).toOption

def readDocumentVersion (tree : Node V) : Option DocumentVersion :=
  (readString tree).bind fun value => (DocumentVersion.new value).toOption

/-- `BTreeMap::insert` -/
def insertEntry (name : String) (value : ExtractedValue V) :
    List (String × ExtractedValue V) → List (String × ExtractedValue V)
  | [] => [(name,value)]
  | entry::entries =>
    if name < entry.1 then (name,value)::entry::entries
    else if name = entry.1 then (name,value)::entries
    else entry::insertEntry name value entries

theorem insertEntry_names {name : String} {value : ExtractedValue V}
    {entries : List (String × ExtractedValue V)} :
    ∀ n ∈ (insertEntry name value entries).map (·.1), n = name ∨ n ∈ entries.map (·.1) := by
  induction entries with
  | nil => simp [insertEntry]
  | cons entry entries ih =>
    intro n hn
    rw [insertEntry] at hn
    by_cases hlt : name < entry.1
    · rw [if_pos hlt] at hn
      simpa using hn
    rw [if_neg hlt] at hn
    by_cases heq : name = entry.1
    · rw [if_pos heq, List.map_cons, List.mem_cons] at hn
      exact hn.imp_right (List.mem_cons_of_mem _)
    · rw [if_neg heq, List.map_cons, List.mem_cons] at hn
      rcases hn with hn | hn
      · exact Or.inr (by simp [hn])
      · exact (ih n hn).imp_right (List.mem_cons_of_mem _)

theorem insertEntry_ascending {name : String} {value : ExtractedValue V}
    {entries : List (String × ExtractedValue V)} (h : (entries.map (·.1)).Pairwise (· < ·)) :
    ((insertEntry name value entries).map (·.1)).Pairwise (· < ·) := by
  induction entries with
  | nil => simp [insertEntry]
  | cons entry entries ih =>
    rw [List.map_cons, List.pairwise_cons] at h
    rw [insertEntry]
    by_cases hlt : name < entry.1
    · rw [if_pos hlt, List.map_cons, List.map_cons, List.pairwise_cons, List.pairwise_cons]
      refine ⟨?_,h⟩
      intro n hn
      rcases List.mem_cons.mp hn with rfl | hn
      · exact hlt
      · exact lt_trans hlt (h.1 n hn)
    rw [if_neg hlt]
    by_cases heq : name = entry.1
    · rw [if_pos heq, List.map_cons, List.pairwise_cons]
      exact ⟨fun n hn => heq ▸ h.1 n hn,h.2⟩
    · rw [if_neg heq, List.map_cons, List.pairwise_cons]
      refine ⟨?_,ih h.2⟩
      intro n hn
      rcases insertEntry_names n hn with rfl | hn
      · exact lt_of_le_of_ne (not_lt.mp hlt) (Ne.symm heq)
      · exact h.1 n hn

def insertField (fields : Fields V) (name : String) (value : ExtractedValue V) : Fields V :=
  ⟨insertEntry name value fields.entries,insertEntry_ascending fields.ascending⟩

/-- The members in their order, each inserted under its name. -/
def readEntries : List (String × Node V) → Fields V → Option (Fields V)
  | [],fields => some fields
  | (name,tree)::ms,fields =>
    (readValue tree).bind fun value => readEntries ms (insertField fields name value)

def readFields (tree : Node V) : Option (Fields V) :=
  (members tree).bind fun ms => readEntries ms Fields.empty

/-- All members of the provenance are there or none is. -/
def readProvenance (provider modelVersion processingProfileVersion : Option String)
    (durationMs : Option ℕ) : Option (Option ProcessingProvenance) :=
  match provider,modelVersion,processingProfileVersion,durationMs with
  | none,none,none,none => some none
  | some provider,some modelVersion,some processingProfileVersion,some durationMs =>
    (ProcessingProvenance.new provider modelVersion processingProfileVersion durationMs).toOption.map
      some
  | _,_,_,_ => none

def resultNames : List String :=
  ["schema_version","document_id","document_version","content_trust","text","markdown","pages",
    "fields","tables","confidence","citations","warnings","validation_failures","provider",
    "model_version","processing_profile_version","duration_ms","cost"]

/-- `TryFrom<RawDocumentResult>` -/
def readResult (tree : Node V) : Option (DocumentResult V) := do
  let ms ← fieldsOf true resultNames tree
  let schemaVersion ← required "schema_version" readString ms
  let documentId ← required "document_id" readDocumentId ms
  let documentVersion ← required "document_version" readDocumentVersion ms
  let contentTrust ← required "content_trust" readString ms
  guard (contentTrust = "untrusted")
  let text ← defaulted "text" "" readString ms
  let markdown ← defaulted "markdown" "" readString ms
  let pages ← defaulted "pages" [] (readArray readPage) ms
  let fields ← defaulted "fields" Fields.empty readFields ms
  let tables ← defaulted "tables" [] (readArray readTable) ms
  let confidence ← optional "confidence" readDimensions ms
  let citations ← defaulted "citations" [] (readArray readEvidence) ms
  let warnings ← defaulted "warnings" [] (readArray readCode) ms
  let validationFailures ← defaulted "validation_failures" [] (readArray readFailure) ms
  let provider ← optional "provider" readString ms
  let modelVersion ← optional "model_version" readString ms
  let processingProfileVersion ← optional "processing_profile_version" readString ms
  let durationMs ← optional "duration_ms" (readUnsigned 64) ms
  let cost ← optional "cost" readCost ms
  guard (schemaVersion = resultSchemaVersion)
  let provenance ← readProvenance provider modelVersion processingProfileVersion durationMs
  (DocumentResult.new documentId documentVersion
    ⟨text,markdown,pages,fields,tables,confidence,citations,warnings,validationFailures,provenance,
      cost⟩).toOption

/-! ### Round trips -/

theorem readConfidence_write (c : Confidence) :
    readConfidence (writeConfidence c : Node V) = some c := by
  rw [readConfidence, writeConfidence, readNumber, Option.bind_some, dif_pos c.valid]

theorem readPoint_write (p : NormalizedPoint) : readPoint (writePoint p : Node V) = some p := by
  refine bind_read (fieldsOf_object rfl (by decide)) ?_
  refine bind_read (required_eq rfl rfl) ?_
  refine bind_read (required_eq rfl rfl) ?_
  exact dif_pos p.valid

theorem readPolygon_write (p : Polygon) : readPolygon (writePolygon p : Node V) = some p := by
  refine bind_read (fieldsOf_object rfl (by decide)) ?_
  refine bind_read (required_eq rfl (readArray_write p.points fun q _ => readPoint_write q)) ?_
  exact dif_pos p.valid

theorem readObservationId_write (id : ObservationId) :
    readObservationId (writeObservationId id : Node V) = some id := by
  rw [readObservationId, writeObservationId, readString, Option.bind_some, dif_pos id.valid]

theorem readLevel_write (level : ObservationLevel) :
    readLevel (.string level.asStr : Node V) = some level := by
  cases level <;> rfl

theorem readEvidence_write (e : Evidence) : readEvidence (writeEvidence e : Node V) = some e := by
  have hpage := of_decide_eq_true e.valid
  refine bind_read (fieldsOf_object rfl (by decide)) ?_
  refine bind_read (required_eq rfl (readUnsigned_integer hpage.2)) ?_
  refine bind_read (required_eq rfl (readPolygon_write e.polygon)) ?_
  refine bind_read (required_eq rfl (readObservationId_write e.observationId)) ?_
  exact dif_pos e.valid

theorem readEvidences_write (evidence : List Evidence) :
    readArray readEvidence (.array (evidence.map writeEvidence) : Node V) = some evidence :=
  readArray_write evidence fun e _ => readEvidence_write e

theorem readObservation_write {o : TextObservation} (horder : o.readingOrder < 2^32) :
    readObservation (writeObservation o : Node V) = some o := by
  have hparent : readNullable readObservationId
      (writeNullable writeObservationId o.parentObservationId : Node V) =
        some o.parentObservationId :=
    readNullable_write _ (fun _ _ => nofun) fun id _ => readObservationId_write id
  refine bind_read (fieldsOf_object rfl (by decide)) ?_
  refine bind_read (required_eq rfl (readObservationId_write o.observationId)) ?_
  refine bind_read (required_eq rfl (readLevel_write o.level)) ?_
  refine bind_read (required_eq rfl rfl) ?_
  refine bind_read (required_eq rfl (readConfidence_write o.confidence)) ?_
  refine bind_read (required_eq rfl (readPolygon_write o.polygon)) ?_
  refine bind_read (required_eq rfl (readUnsigned_integer horder)) ?_
  refine bind_read (optional_eq rfl hparent) ?_
  exact dif_pos o.valid

/-! A page of a result went through its constructor, which takes its observations in their
order as they are. -/

theorem new_built (p : BuiltPage) :
    DocumentPage.new p.page p.width p.height p.observations = some p.toDocumentPage := by
  have hvalid : (decide (1 ≤ p.page ∧ 1 ≤ p.width ∧ 1 ≤ p.height) &&
      decide ((ordered p.observations).length ≤ maximumObservations) &&
      acyclic [] [] (ordered p.observations)) = true := by
    rw [p.sorted]
    exact p.valid
  rw [DocumentPage.new, dif_pos hvalid, Option.some.injEq]
  simp only [p.sorted]

/-- Every page which the constructor builds from numbers of 32 bits is such a page. -/
theorem built_new {page width height : ℕ} {observations : List TextObservation}
    {p : DocumentPage} (h : DocumentPage.new page width height observations = some p)
    (hfits : fitsU32 p = true) : ∃ b : BuiltPage, built p = some b ∧ b.toDocumentPage = p := by
  rw [DocumentPage.new] at h
  split_ifs at h with hvalid
  have hp := Option.some.inj h
  have hsorted : ordered p.observations = p.observations := by
    rw [← hp]
    exact ordered_eq (sorted_byKey (·.readingOrder) observations)
  exact ⟨⟨p,hfits,hsorted⟩,dif_pos ⟨hfits,hsorted⟩,rfl⟩

theorem readPage_write (p : BuiltPage) :
    readPage (writePage p.toDocumentPage : Node V) = some p := by
  have hfits := p.fits
  rw [fitsU32, Bool.and_eq_true, decide_eq_true_eq, List.all_eq_true] at hfits
  obtain ⟨⟨hpage,hwidth,hheight⟩,horders⟩ := hfits
  have hvalid := p.valid
  simp only [Bool.and_eq_true, decide_eq_true_eq] at hvalid
  have hnumber : readPageNumber (.integer p.page : Node V) = some p.page := by
    rw [readPageNumber, readUnsigned_integer hpage, Option.bind_some, if_pos hvalid.1.1.1]
  have hobservations := readArray_write (V := V) p.observations fun o ho =>
    readObservation_write (of_decide_eq_true (horders o ho))
  refine bind_read (fieldsOf_object rfl (by decide)) ?_
  refine bind_read (required_eq rfl hnumber) ?_
  refine bind_read (required_eq rfl (readUnsigned_integer hwidth)) ?_
  refine bind_read (required_eq rfl (readUnsigned_integer hheight)) ?_
  refine bind_read (required_eq rfl hobservations) ?_
  refine bind_read (new_built p) ?_
  exact dif_pos ⟨p.fits,p.sorted⟩

theorem readValue_write (e : ExtractedValue V) : readValue (writeValue e) = some e := by
  refine bind_read (fieldsOf_object rfl (by decide)) ?_
  refine bind_read (required_eq rfl rfl) ?_
  refine bind_read (required_eq rfl (readConfidence_write e.confidence)) ?_
  refine bind_read (required_eq rfl (readEvidences_write e.evidence)) ?_
  exact dif_pos e.valid

theorem readCode_write (code : StableCode) : readCode (writeCode code : Node V) = some code := by
  rw [readCode, writeCode, readString, Option.bind_some, StableCode.new, dif_pos code.valid]
  rfl

theorem readTableId_write (id : TableId) :
    readTableId (.string id.asStr : Node V) = some id := by
  rw [readTableId, readString, Option.bind_some, dif_pos id.valid]

theorem readCell_write (c : TableCell) : readCell (writeCell c : Node V) = some c := by
  have hvalid := c.valid
  rw [Bool.and_eq_true, decide_eq_true_eq] at hvalid
  refine bind_read (fieldsOf_object rfl (by decide)) ?_
  refine bind_read (required_eq rfl (readUnsigned_integer hvalid.1.1)) ?_
  refine bind_read (required_eq rfl (readUnsigned_integer hvalid.1.2)) ?_
  refine bind_read (required_eq rfl rfl) ?_
  refine bind_read (required_eq rfl (readConfidence_write c.confidence)) ?_
  refine bind_read (required_eq rfl (readEvidences_write c.evidence)) ?_
  exact dif_pos c.valid

theorem readTable_write (t : DocumentTable) : readTable (writeTable t : Node V) = some t := by
  refine bind_read (fieldsOf_object rfl (by decide)) ?_
  refine bind_read (required_eq rfl (readTableId_write t.tableId)) ?_
  refine bind_read (required_eq rfl (readArray_write t.cells fun c _ => readCell_write c)) ?_
  exact dif_pos t.valid

theorem readDimensions_write (c : ConfidenceDimensions) :
    readDimensions (writeDimensions c : Node V) = some c := by
  refine bind_read (fieldsOf_object rfl (by decide)) ?_
  refine bind_read (required_eq rfl (readConfidence_write c.inputQuality)) ?_
  refine bind_read (required_eq rfl (readConfidence_write c.ocr)) ?_
  refine bind_read (required_eq rfl (readConfidence_write c.classification)) ?_
  refine bind_read (required_eq rfl (readConfidence_write c.extraction)) ?_
  refine bind_read (required_eq rfl (readConfidence_write c.validation)) ?_
  exact bind_read (required_eq rfl (readConfidence_write c.overall)) rfl

theorem readSeverity_write (severity : ValidationSeverity) :
    readSeverity (.string (ValidationSeverity.asStr severity) : Node V) = some severity := by
  cases severity <;> rfl

theorem readFailure_write (f : ValidationFailure) :
    readFailure (writeFailure f : Node V) = some f := by
  refine bind_read (fieldsOf_object rfl (by decide)) ?_
  refine bind_read (required_eq rfl (readCode_write f.code)) ?_
  exact bind_read (required_eq rfl (readSeverity_write f.severity)) rfl

theorem readCost_write (c : Cost) : readCost (writeCost c : Node V) = some c := by
  refine bind_read (fieldsOf_object rfl (by decide)) ?_
  refine bind_read (required_eq rfl rfl) ?_
  refine bind_read (required_eq rfl rfl) ?_
  exact dif_pos c.valid

theorem readDocumentId_write (id : DocumentId) :
    readDocumentId (.string id.asStr : Node V) = some id := by
  rw [readDocumentId, readString, Option.bind_some, DocumentId.new, dif_pos id.valid]
  rfl

theorem readDocumentVersion_write (version : DocumentVersion) :
    readDocumentVersion (.string version.asStr : Node V) = some version := by
  rw [readDocumentVersion, readString, Option.bind_some, DocumentVersion.new,
    dif_pos version.valid]
  rfl

theorem insertEntry_append {name : String} {value : ExtractedValue V}
    {entries : List (String × ExtractedValue V)} (h : ∀ entry ∈ entries, entry.1 < name) :
    insertEntry name value entries = entries++[(name,value)] := by
  induction entries with
  | nil => rfl
  | cons entry entries ih =>
    have hlt := h entry List.mem_cons_self
    rw [insertEntry, if_neg (lt_asymm hlt), if_neg (ne_of_gt hlt),
      ih fun other hother => h other (List.mem_cons_of_mem entry hother)]
    rfl

/-- Names in ascending order are inserted behind one another. -/
theorem readEntries_write (entries : List (String × ExtractedValue V)) :
    ∀ (fields : Fields V) (h : ((fields.entries++entries).map (·.1)).Pairwise (· < ·)),
      readEntries (entries.map writeField) fields = some ⟨fields.entries++entries,h⟩ := by
  induction entries with
  | nil =>
    intro fields h
    simp [readEntries]
  | cons entry entries ih =>
    intro fields h
    have hbelow : ∀ other ∈ fields.entries, other.1 < entry.1 := by
      intro other hother
      rw [List.map_append, List.pairwise_append] at h
      exact h.2.2 other.1 (List.mem_map_of_mem hother) entry.1 List.mem_cons_self
    have hinsert : (insertField fields entry.1 entry.2).entries = fields.entries++[entry] :=
      insertEntry_append hbelow
    have happend : (insertField fields entry.1 entry.2).entries++entries =
        fields.entries++entry::entries := by
      rw [hinsert, List.append_assoc]
      rfl
    rw [List.map_cons, writeField, readEntries, readValue_write, Option.bind_some,
      ih _ (by rw [happend]; exact h)]
    simp only [happend]

theorem readFields_write (fields : Fields V) :
    readFields (.object (fields.entries.map writeField)) = some fields :=
  readEntries_write fields.entries Fields.empty fields.ascending

theorem readProvenance_write (provenance : Option ProcessingProvenance) :
    readProvenance (provenance.map (·.provider)) (provenance.map (·.modelVersion))
      (provenance.map (·.processingProfileVersion)) (provenance.map (·.durationMs)) =
        some provenance := by
  cases provenance with
  | none => rfl
  | some p =>
    simp only [Option.map_some, readProvenance, ProcessingProvenance.new]
    rw [dif_pos p.valid]
    rfl

theorem readDuration_write (provenance : Option ProcessingProvenance) :
    readNullable (readUnsigned 64)
      (writeNullable .integer (provenance.map (·.durationMs)) : Node V) =
        some (provenance.map (·.durationMs)) := by
  refine readNullable_write _ (fun _ _ => nofun) ?_
  intro duration hduration
  obtain ⟨p,_,rfl⟩ := Option.map_eq_some_iff.mp hduration
  have hvalid := p.valid
  rw [validProvenance, Bool.and_eq_true, decide_eq_true_eq] at hvalid
  exact readUnsigned_integer hvalid.2

theorem readText_write (x : Option String) :
    readNullable readString (writeNullable .string x : Node V) = some x :=
  readNullable_write x (fun _ _ => nofun) fun _ _ => rfl

/-- The payload which comes back has its pages in order. -/
theorem new_sorted {documentId : DocumentId} {documentVersion : DocumentVersion}
    {payload : DocumentResultPayload V} (h : Checked payload) :
    DocumentResult.new documentId documentVersion { payload with pages := byNumber payload.pages } =
      .ok (DocumentResult.ofPayload documentId documentVersion payload) := by
  have hsorted := byNumber_eq (byNumber_pairwise payload.pages)
  refine new_ok.mpr ⟨⟨h.cited,h.named,?_,?_⟩,?_⟩
  · rw [(byNumber_perm payload.pages).length_eq]
    exact h.counted
  · rw [hsorted]
    exact h.distinct
  · simp only [DocumentResult.ofPayload, hsorted]

theorem read_write {documentId : DocumentId} {documentVersion : DocumentVersion}
    {payload : DocumentResultPayload V} {result : DocumentResult V}
    (h : DocumentResult.new documentId documentVersion payload = .ok result) :
    readResult (writeResult result) = some result := by
  obtain ⟨hchecked,rfl⟩ := new_ok.mp h
  have hpages := readArray_write (V := V) (byNumber payload.pages) fun p _ => readPage_write p
  have hconfidence : readNullable readDimensions
      (writeNullable writeDimensions payload.confidence : Node V) = some payload.confidence :=
    readNullable_write _ (fun _ _ => nofun) fun c _ => readDimensions_write c
  have hcost : readNullable readCost (writeNullable writeCost payload.cost : Node V) =
      some payload.cost :=
    readNullable_write _ (fun _ _ => nofun) fun c _ => readCost_write c
  refine bind_read (fieldsOf_object rfl (by decide)) ?_
  refine bind_read (required_eq rfl rfl) ?_
  refine bind_read (required_eq rfl (readDocumentId_write documentId)) ?_
  refine bind_read (required_eq rfl (readDocumentVersion_write documentVersion)) ?_
  refine bind_read (required_eq rfl rfl) ?_
  refine bind_read (if_pos rfl) ?_
  refine bind_read (defaulted_eq rfl rfl) ?_
  refine bind_read (defaulted_eq rfl rfl) ?_
  refine bind_read (defaulted_eq rfl hpages) ?_
  refine bind_read (defaulted_eq rfl (readFields_write payload.fields)) ?_
  refine bind_read (defaulted_eq rfl
    (readArray_write payload.tables fun t _ => readTable_write t)) ?_
  refine bind_read (optional_eq rfl hconfidence) ?_
  refine bind_read (defaulted_eq rfl (readEvidences_write payload.citations)) ?_
  refine bind_read (defaulted_eq rfl
    (readArray_write payload.warnings fun code _ => readCode_write code)) ?_
  refine bind_read (defaulted_eq rfl
    (readArray_write payload.validationFailures fun f _ => readFailure_write f)) ?_
  refine bind_read (optional_eq rfl (readText_write _)) ?_
  refine bind_read (optional_eq rfl (readText_write _)) ?_
  refine bind_read (optional_eq rfl (readText_write _)) ?_
  refine bind_read (optional_eq rfl (readDuration_write payload.provenance)) ?_
  refine bind_read (optional_eq rfl hcost) ?_
  refine bind_read (if_pos rfl) ?_
  refine bind_read (readProvenance_write payload.provenance) ?_
  exact congrArg Except.toOption (new_sorted hchecked)

/-- A result without text, with its provenance and its cost. -/
def priced : DocumentResultPayload V :=
  { (DocumentResultPayload.default : DocumentResultPayload V) with
    warnings := [⟨"low_contrast",by decide⟩]
    provenance := some ⟨"native","text_1","native-text-v1",12,by decide⟩
    cost := some ⟨"EUR","0.12",by decide⟩ }

theorem priced_checked : Checked (priced : DocumentResultPayload V) where
  cited h := absurd h (by simp [priced, DocumentResultPayload.default])
  named _ h := absurd h List.not_mem_nil
  counted := Nat.zero_le maximumPageCount
  distinct := by
    show adjacentEqual (byNumber []) = false
    rw [byNumber_eq List.Pairwise.nil]
    rfl

end Json

def pricedResult : DocumentResult ℕ :=
  DocumentResult.ofPayload ⟨"doc_invoice",by decide⟩
    ⟨"sha256:0123456789abcdef0123456789abcdef0123456789abcdef0123456789abcdef",by decide⟩ priced

theorem read_write_priced : readResult (writeResult pricedResult) = some pricedResult :=
  read_write (new_ok.mpr ⟨priced_checked,rfl⟩)

end DocumentIntelligence.ResultJson
