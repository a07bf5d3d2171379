import DocumentIntelligence.JsonSchema
import DocumentIntelligence.ResultJson

/-!
# The published schema of a document result

The schema of contracts/v1/document-result.schema.json, and that every result which the
constructors build is valid under it. The names are those of its definitions.
-/

set_option autoImplicit false

namespace DocumentIntelligence.ResultSchema
open Identifiers (DocumentId DocumentVersion validatedId validSuffix stripPrefix stripPrefix_some byteLength
  isCanonicalSha256 isLowerHex)
open JsonTree JsonSchema DocumentPages DocumentResults ResultJson

/-! ### Definitions -/

/-- `[A-Za-z0-9_]` -/
def wordChar (c : Char) : Bool := c.isAlphanum || c == '_'

/-- `[A-Za-z0-9_]{1,64}` after a start -/
def prefixedId (start : String) : Schema :=
  stringOf [.pattern (literal start*between 1 64 (charOf wordChar))]

def observationId : Schema := prefixedId "obs_"

def documentId : Schema := prefixedId "doc_"

def tableId : Schema := prefixedId "tbl_"

/-- `[a-f0-9]{64}` after the name of the digest -/
def digest : Schema := stringOf [.pattern (literal "sha256:"*between 64 64 (charOf isLowerHex))]

/-- `[a-z][a-z0-9_]{0,63}` -/
def stableCode : Schema :=
  stringOf [.pattern (charOf Char.isLower*
    between 0 63 (charOf fun c => c.isLower || c.isDigit || c == '_'))]

/-- `[A-Za-z0-9][A-Za-z0-9._-]{0,127}` -/
def versionName : Schema :=
  stringOf [.minLength 1,.maxLength 128,.pattern (charOf Char.isAlphanum*
    between 0 127 (charOf fun c => c.isAlphanum || c == '.' || c == '_' || c == '-'))]

def nullableVersionName : Schema := nullable versionName

def fraction : Schema := .allOf [.keyword (.type [.number]),.keyword (.minimum 0),.keyword (.maximum 1)]

def confidence : Schema := fraction

def integerFrom (n : ℕ) : Schema := .allOf [.keyword (.type [.integer]),.keyword (.minimum n)]

def point : Schema := record [("x",fraction),("y",fraction)]

def polygon : Schema := record [("points",arrayOf point [.minItems 3])]

def evidence : Schema :=
  record [("page",integerFrom 1),("polygon",polygon),("observation_id",observationId)]

/-- A text with a character which is no white space. -/
def observationText : Schema :=
  stringOf [.minLength 1,.maxLength 65536,.pattern (anywhere (charOf fun c => !isWhitespace c))]

def observation : Schema :=
  record [("observation_id",observationId),
    ("level",.keyword (.enum ["page","paragraph","line","word"])),("text",observationText),
    ("confidence",confidence),("polygon",polygon),("reading_order",integerFrom 0),
    ("parent_observation_id",nullable observationId)]

def page : Schema :=
  record [("page",integerFrom 1),("width",integerFrom 1),("height",integerFrom 1),
    ("observations",arrayOf observation [.maxItems 100000])]

def extractedValue : Schema :=
  record [("value",.anything),("confidence",confidence),("evidence",arrayOf evidence [.minItems 1])]

def tableCell : Schema :=
  record [("row",integerFrom 0),("column",integerFrom 0),("text",stringOf []),
    ("confidence",confidence),("evidence",arrayOf evidence [.minItems 1])]

def table : Schema :=
  record [("table_id",tableId),("cells",arrayOf tableCell [.minItems 1,.maxItems 10000])]

def confidenceDimensions : Schema :=
  record [("input_quality",confidence),("ocr",confidence),("classification",confidence),
    ("extraction",confidence),("validation",confidence),("overall",confidence)]

def validationFailure : Schema :=
  record [("code",stableCode),("severity",.keyword (.enum ["warning","error"]))]

/-- `[A-Z]{3}`, and digits with a dot and digits after them or without -/
def cost : Schema :=
  record [("currency",stringOf [.pattern (between 3 3 (charOf isAsciiUppercase))]),
    ("decimal",stringOf [.pattern (someOf (charOf Char.isDigit)*
      maybe (literal "."*someOf (charOf Char.isDigit)))])]

/-- Objects whose names have up to 128 characters. -/
def fields : Schema :=
  .allOf [.keyword (.type [.object]),
    .propertyNames (.allOf [.keyword (.minLength 1),.keyword (.maxLength 128)]),
    .properties [] extractedValue]

/-- A text or a markdown comes with a citation. -/
def cited : Schema :=
  .ifThen
    (.anyOf [.properties [("text",.keyword (.minLength 1))] .anything,
      .properties [("markdown",.keyword (.minLength 1))] .anything])
    (.properties [("citations",.keyword (.minItems 1))] .anything)

/-- All of the provenance is there or none of it. -/
def provenance : Schema :=
  .oneOf [.properties [("duration_ms",.keyword (.type [.null])),
      ("model_version",.keyword (.type [.null])),
      ("processing_profile_version",.keyword (.type [.null])),
      ("provider",.keyword (.type [.null]))] .anything,
    .properties [("duration_ms",integerFrom 0),("model_version",versionName),
      ("processing_profile_version",versionName),("provider",versionName)] .anything]

def resultMembers : List (String × Schema) :=
  [("schema_version",.keyword (.enum ["1.0"])),("document_id",documentId),
    ("document_version",digest),("content_trust",.keyword (.enum ["untrusted"])),
    ("text",stringOf []),("markdown",stringOf []),("pages",arrayOf page [.maxItems 1000]),
    ("fields",fields),("tables",arrayOf table []),("confidence",nullable confidenceDimensions),
    ("citations",arrayOf evidence []),("warnings",arrayOf stableCode []),
    ("validation_failures",arrayOf validationFailure []),("provider",nullableVersionName),
    ("model_version",nullableVersionName),("processing_profile_version",nullableVersionName),
    ("duration_ms",.allOf [.keyword (.type [.integer,.null]),.keyword (.minimum 0)]),
    ("cost",nullable cost)]

def documentResult : Schema := .allOf [record resultMembers,cited,provenance]

/-! ### Texts -/

theorem length_le_byteLength (cs : List Char) : cs.length ≤ byteLength cs := by
  induction cs with
  | nil => exact Nat.zero_le _
  | cons c cs ih =>
    have hpos := c.utf8Size_pos
    rw [byteLength, List.map_cons, List.sum_cons, List.length_cons]
    rw [byteLength] at ih
    omega

/-- ASCII characters have one byte each. -/
theorem byteLength_ascii {cs : List Char} (h : ∀ c ∈ cs, c.utf8Size = 1) :
    byteLength cs = cs.length := by
  induction cs with
  | nil => rfl
  | cons c cs ih =>
    have hrest := ih fun d hd => h d (List.mem_cons_of_mem c hd)
    rw [byteLength] at hrest
    rw [byteLength, List.map_cons, List.sum_cons, List.length_cons, hrest,
      h c List.mem_cons_self, Nat.add_comm]

theorem size_of_lt {c : Char} (h : c.toNat < 128) : c.utf8Size = 1 := by
  have hle : c.val ≤ 0x7F := by
    rw [UInt32.le_iff_toNat_le]
    show c.toNat ≤ 127
    omega
  exact if_pos hle

theorem lowerHex_size {c : Char} (h : isLowerHex c = true) : c.utf8Size = 1 := by
  refine size_of_lt ?_
  simp only [isLowerHex, Char.isDigit, Bool.or_eq_true, Bool.and_eq_true, decide_eq_true_eq,
    UInt32.le_iff_toNat_le, ge_iff_le, Char.le_def] at h
  have hc : c.toNat = c.val.toNat := rfl
  have hnine : '9'.val.toNat = 57 := rfl
  have hf : 'f'.val.toNat = 102 := rfl
  omega

theorem uppercase_size {c : Char} (h : isAsciiUppercase c = true) : c.utf8Size = 1 := by
  refine size_of_lt ?_
  simp only [isAsciiUppercase, Bool.and_eq_true, decide_eq_true_eq, UInt32.le_iff_toNat_le,
    Char.le_def] at h
  have hc : c.toNat = c.val.toNat := rfl
  have hz : 'Z'.val.toNat = 90 := rfl
  omega

section Validity
variable {V : Type} {accepts : Schema → V → Prop}

theorem prefixedId_valid {value start : String} (h : validatedId value start = true) :
    Valid accepts (prefixedId start) (.string value : Node V) := by
  refine stringOf_valid ?_
  intro k hk
  rw [List.mem_singleton.mp hk]
  rw [validatedId] at h
  cases hstrip : stripPrefix value start with
  | none =>
    rw [hstrip] at h
    exact absurd h (by decide)
  | some suffix =>
    rw [hstrip, Option.getD_some, validSuffix, Bool.and_eq_true, Bool.and_eq_true,
      Bool.not_eq_true', decide_eq_true_eq, List.all_eq_true] at h
    show value.toList ∈ literal start*between 1 64 (charOf wordChar)
    rw [stripPrefix_some hstrip]
    have hne : suffix ≠ [] := List.isEmpty_eq_false_iff.mp h.1.1
    have hlength := length_le_byteLength suffix
    exact mem_literal_mul (mem_between (List.length_pos_iff.mpr hne)
      (le_trans hlength h.1.2) h.2)

theorem digest_valid (version : DocumentVersion) :
    Valid accepts digest (.string version.asStr : Node V) := by
  refine stringOf_valid ?_
  intro k hk
  rw [List.mem_singleton.mp hk]
  have h := version.valid
  rw [isCanonicalSha256] at h
  cases hstrip : stripPrefix version.asStr "sha256:" with
  | none =>
    rw [hstrip] at h
    exact absurd h (by decide)
  | some suffix =>
    rw [hstrip, Option.getD_some] at h
    simp only [Bool.and_eq_true, beq_iff_eq, List.all_eq_true] at h
    have hlength := byteLength_ascii fun c hc => lowerHex_size (h.2 c hc)
    show version.asStr.toList ∈ literal "sha256:"*between 64 64 (charOf isLowerHex)
    rw [stripPrefix_some hstrip]
    exact mem_literal_mul (mem_between (by omega) (by omega) h.2)

theorem stableCode_valid (code : StableCode) : Valid accepts stableCode (writeCode code : Node V) := by
  refine stringOf_valid ?_
  intro k hk
  rw [List.mem_singleton.mp hk]
  have h := code.valid
  have hlength := Json.length_le_size code.asStr
  rw [← String.length_toList] at hlength
  rw [validStableCode] at h
  show code.asStr.toList ∈ _
  cases hchars : code.asStr.toList with
  | nil =>
    rw [hchars] at h
    exact absurd h (by simp)
  | cons first rest =>
    rw [hchars] at h hlength
    simp only [Bool.and_eq_true, decide_eq_true_eq, List.all_eq_true] at h
    rw [List.length_cons] at hlength
    exact Language.mem_mul.mpr ⟨[first],⟨first,h.1.2,rfl⟩,rest,
      mem_between (Nat.zero_le _) (by omega) h.2,rfl⟩

theorem versionName_valid {value : String} (h : validVersionName value = true) :
    Valid accepts versionName (.string value : Node V) := by
  have hlength := Json.length_le_size value
  rw [validVersionName] at h
  simp only [Bool.and_eq_true, decide_eq_true_eq, List.all_eq_true] at h
  obtain ⟨⟨⟨hlo,hhi⟩,hall⟩,hfirst⟩ := h
  have hne : value.length ≠ 0 := by
    intro hzero
    rw [String.length_eq_zero_iff.mp hzero] at hfirst
    exact absurd hfirst (by decide)
  refine stringOf_valid ?_
  intro k hk
  simp only [List.mem_cons, List.not_mem_nil, or_false] at hk
  rcases hk with rfl | rfl | rfl
  · show 1 ≤ value.length
    omega
  · show value.length ≤ 128
    omega
  · show value.toList ∈ _
    rw [← String.length_toList] at hlength
    cases hchars : value.toList with
    | nil =>
      rw [hchars] at hfirst
      exact absurd hfirst (by decide)
    | cons first rest =>
      rw [hchars] at hfirst hlength hall
      rw [List.length_cons] at hlength
      refine Language.mem_mul.mpr ⟨[first],⟨first,hfirst,rfl⟩,rest,?_,rfl⟩
      exact mem_between (Nat.zero_le _) (by omega) fun c hc =>
        hall c (List.mem_cons_of_mem first hc)

/-! ### Numbers -/

theorem fraction_valid {x : Float} (h : unit x = true) :
    Valid accepts fraction (.number x : Node V) := by
  simp only [unit, Bool.and_eq_true, decide_eq_true_eq] at h
  exact ⟨⟨.number,List.mem_cons_self,trivial⟩,h.1.2,h.2,trivial⟩

theorem confidence_valid (c : Confidence) :
    Valid accepts confidence (writeConfidence c : Node V) := fraction_valid c.valid

theorem integerFrom_valid {n k : ℕ} (h : n ≤ k) :
    Valid accepts (integerFrom n) (.integer k : Node V) :=
  ⟨⟨.integer,List.mem_cons_self,trivial⟩,h,trivial⟩

theorem stringOf_nil (s : String) : Valid accepts (stringOf []) (.string s : Node V) :=
  stringOf_valid fun _ hk => absurd hk List.not_mem_nil

/-! ### Observations -/

theorem observationId_valid (id : ObservationId) :
    Valid accepts observationId (writeObservationId id : Node V) := prefixedId_valid id.valid

theorem point_valid (p : NormalizedPoint) : Valid accepts point (writePoint p : Node V) := by
  have h := p.valid
  rw [Bool.and_eq_true] at h
  refine record_valid (by decide) ?_
  refine members_cons (fraction_valid h.1) ?_
  exact members_cons (fraction_valid h.2) members_nil

theorem polygon_valid (p : Polygon) : Valid accepts polygon (writePolygon p : Node V) := by
  have h := p.valid
  rw [validPolygon, Bool.and_eq_true, decide_eq_true_eq] at h
  refine record_valid (by decide) (members_cons ?_ members_nil)
  refine arrayOf_valid (fun q _ => point_valid q) ?_
  intro k hk
  rw [List.mem_singleton.mp hk]
  show 3 ≤ (p.points.map writePoint).length
  rw [List.length_map]
  exact h.1

theorem evidence_valid (e : Evidence) : Valid accepts evidence (writeEvidence e : Node V) := by
  have hpage := of_decide_eq_true e.valid
  refine record_valid (by decide) ?_
  refine members_cons (integerFrom_valid hpage.1) ?_
  refine members_cons (polygon_valid e.polygon) ?_
  exact members_cons (observationId_valid e.observationId) members_nil

theorem observationText_valid {text : String} {id : ObservationId} {parent : Option ObservationId}
    (h : validObservation text id parent = true) :
    Valid accepts observationText (.string text : Node V) := by
  simp only [validObservation, Bool.and_eq_true, Bool.not_eq_true', decide_eq_true_eq,
    List.all_eq_false] at h
  obtain ⟨⟨⟨c,hc,hblank⟩,hsize⟩,_⟩ := h
  have hlength := Json.length_le_size text
  have hpos := List.length_pos_of_mem hc
  rw [String.length_toList] at hpos
  refine stringOf_valid ?_
  intro k hk
  simp only [List.mem_cons, List.not_mem_nil, or_false] at hk
  rcases hk with rfl | rfl | rfl
  · exact hpos
  · exact le_trans hlength hsize
  · obtain ⟨before,after,htext⟩ := List.append_of_mem hc
    refine ⟨before,[c],after,⟨c,by simpa using hblank,rfl⟩,?_⟩
    rw [htext, List.append_assoc]
    rfl

theorem level_valid (level : ObservationLevel) :
    Valid accepts (.keyword (.enum ["page","paragraph","line","word"]))
      (.string level.asStr : Node V) := by
  refine ⟨level.asStr,?_,rfl⟩
  cases level <;> decide

theorem nullableId_valid (parent : Option ObservationId) :
    Valid accepts (nullable observationId)
      (writeNullable writeObservationId parent : Node V) :=
  nullable_valid not_stringOf (fun _ => not_null id nofun) fun a _ => observationId_valid a

theorem observation_valid (o : TextObservation) :
    Valid accepts observation (writeObservation o : Node V) := by
  refine record_valid (by decide) ?_
  refine members_cons (observationId_valid o.observationId) ?_
  refine members_cons (level_valid o.level) ?_
  refine members_cons (observationText_valid o.valid) ?_
  refine members_cons (confidence_valid o.confidence) ?_
  refine members_cons (polygon_valid o.polygon) ?_
  refine members_cons (integerFrom_valid (Nat.zero_le _)) ?_
  exact members_cons (nullableId_valid o.parentObservationId) members_nil

theorem page_valid (p : DocumentPage) : Valid accepts page (writePage p : Node V) := by
  have h := p.valid
  simp only [Bool.and_eq_true, decide_eq_true_eq] at h
  refine record_valid (by decide) ?_
  refine members_cons (integerFrom_valid h.1.1.1) ?_
  refine members_cons (integerFrom_valid h.1.1.2.1) ?_
  refine members_cons (integerFrom_valid h.1.1.2.2) (members_cons ?_ members_nil)
  refine arrayOf_valid (fun o _ => observation_valid o) ?_
  intro k hk
  rw [List.mem_singleton.mp hk]
  show (p.observations.map writeObservation).length ≤ 100000
  rw [List.length_map]
  exact h.1.2

/-! ### Values, tables and costs -/

theorem cited_valid {evidences : List Evidence} (h : (!evidences.isEmpty) = true) :
    Valid accepts (arrayOf evidence [.minItems 1])
      (.array (evidences.map writeEvidence) : Node V) := by
  rw [Bool.not_eq_true', List.isEmpty_eq_false_iff] at h
  refine arrayOf_valid (fun e _ => evidence_valid e) ?_
  intro k hk
  rw [List.mem_singleton.mp hk]
  show 1 ≤ (evidences.map writeEvidence).length
  rw [List.length_map]
  exact List.length_pos_iff.mpr h

theorem extractedValue_valid (e : ExtractedValue V) :
    Valid accepts extractedValue (writeValue e) := by
  refine record_valid (by decide) ?_
  refine members_cons trivial ?_
  refine members_cons (confidence_valid e.confidence) ?_
  exact members_cons (cited_valid e.valid) members_nil

theorem tableCell_valid (c : TableCell) : Valid accepts tableCell (writeCell c : Node V) := by
  have h := c.valid
  rw [Bool.and_eq_true] at h
  refine record_valid (by decide) ?_
  refine members_cons (integerFrom_valid (Nat.zero_le _)) ?_
  refine members_cons (integerFrom_valid (Nat.zero_le _)) ?_
  refine members_cons (stringOf_nil c.text) ?_
  refine members_cons (confidence_valid c.confidence) ?_
  exact members_cons (cited_valid h.2) members_nil

theorem table_valid (t : DocumentTable) : Valid accepts table (writeTable t : Node V) := by
  have h := t.valid
  rw [Bool.and_eq_true, Bool.not_eq_true', List.isEmpty_eq_false_iff, decide_eq_true_eq] at h
  refine record_valid (by decide) ?_
  refine members_cons (prefixedId_valid t.tableId.valid) (members_cons ?_ members_nil)
  refine arrayOf_valid (fun c _ => tableCell_valid c) ?_
  intro k hk
  simp only [List.mem_cons, List.not_mem_nil, or_false] at hk
  rcases hk with rfl | rfl
  · show 1 ≤ (t.cells.map writeCell).length
    rw [List.length_map]
    exact List.length_pos_iff.mpr h.1
  · show (t.cells.map writeCell).length ≤ 10000
    rw [List.length_map]
    exact h.2

theorem confidenceDimensions_valid (c : ConfidenceDimensions) :
    Valid accepts confidenceDimensions (writeDimensions c : Node V) := by
  refine record_valid (by decide) ?_
  refine members_cons (confidence_valid c.inputQuality) ?_
  refine members_cons (confidence_valid c.ocr) ?_
  refine members_cons (confidence_valid c.classification) ?_
  refine members_cons (confidence_valid c.extraction) ?_
  refine members_cons (confidence_valid c.validation) ?_
  exact members_cons (confidence_valid c.overall) members_nil

theorem severity_valid (severity : ValidationSeverity) :
    Valid accepts (.keyword (.enum ["warning","error"]))
      (.string (ValidationSeverity.asStr severity) : Node V) := by
  refine ⟨ValidationSeverity.asStr severity,?_,rfl⟩
  cases severity <;> decide

theorem validationFailure_valid (f : ValidationFailure) :
    Valid accepts validationFailure (writeFailure f : Node V) := by
  refine record_valid (by decide) ?_
  refine members_cons (stableCode_valid f.code) ?_
  exact members_cons (severity_valid f.severity) members_nil

theorem mem_decimal {decimal : String} (h : validDecimal decimal = true) :
    decimal.toList ∈ someOf (charOf Char.isDigit)*
      maybe (literal "."*someOf (charOf Char.isDigit)) := by
  have hjoin := @List.intercalate_splitOn _ decimal.toList _ _ '.'
  rw [validDecimal] at h
  split at h
  · rename_i whole hsplit
    rw [hsplit] at hjoin
    simp only [Bool.and_eq_true, Bool.not_eq_true', List.isEmpty_eq_false_iff,
      List.all_eq_true] at h
    refine Language.mem_mul.mpr ⟨whole,mem_someOf h.1 h.2,[],Or.inl rfl,?_⟩
    rw [← hjoin]
    simp
  · rename_i whole fraction hsplit
    rw [hsplit] at hjoin
    simp only [Bool.and_eq_true, Bool.not_eq_true', List.isEmpty_eq_false_iff,
      List.all_eq_true] at h
    refine Language.mem_mul.mpr ⟨whole,mem_someOf h.1.1.1 h.1.1.2,".".toList++fraction,
      Or.inr (mem_literal_mul (mem_someOf h.1.2 h.2)),?_⟩
    rw [← hjoin]
    simp [List.intercalate]
  · exact absurd h (by simp)

theorem cost_valid (c : Cost) : Valid accepts cost (writeCost c : Node V) := by
  have h := c.valid
  simp only [validCost, Bool.and_eq_true, decide_eq_true_eq, List.all_eq_true] at h
  have hlength := byteLength_ascii fun d hd => uppercase_size (h.1.2 d hd)
  have hsize := h.1.1
  rw [Json.utf8ByteSize_eq_sum] at hsize
  rw [byteLength] at hlength
  refine record_valid (by decide) (members_cons ?_ (members_cons ?_ members_nil))
  · refine stringOf_valid ?_
    intro k hk
    rw [List.mem_singleton.mp hk]
    exact mem_between (by omega) (by omega) h.1.2
  · refine stringOf_valid ?_
    intro k hk
    rw [List.mem_singleton.mp hk]
    exact mem_decimal h.2

/-! ### Results -/

theorem fields_valid {entries : List (String × ExtractedValue V)}
    (h : ∀ entry ∈ entries, entry.1 ≠ "" ∧ entry.1.utf8ByteSize ≤ 128) :
    Valid accepts fields (.object (entries.map writeField)) := by
  refine ⟨object_typed _,?_,?_,trivial⟩
  · intro m hm
    obtain ⟨entry,hentry,rfl⟩ := List.mem_map.mp hm
    have hname := h entry hentry
    have hlength := Json.length_le_size entry.1
    refine ⟨?_,le_trans hlength hname.2,trivial⟩
    show 1 ≤ entry.1.length
    exact Nat.one_le_iff_ne_zero.mpr fun hzero => hname.1 (String.length_eq_zero_iff.mp hzero)
  · refine (valid_properties (by exact List.nodup_nil)).mpr ⟨fun _ h => absurd h List.not_mem_nil,?_⟩
    intro m hm _
    obtain ⟨entry,_,rfl⟩ := List.mem_map.mp hm
    exact extractedValue_valid entry.2

theorem nullableName_valid {value : Option String}
    (h : ∀ name ∈ value, validVersionName name = true) :
    Valid accepts nullableVersionName (writeNullable .string value : Node V) :=
  nullable_valid not_stringOf (fun _ => not_null id nofun) fun name hname =>
    versionName_valid (h name hname)

/-- The names of a provenance. -/
theorem provenance_names (p : ProcessingProvenance) : validVersionName p.provider = true ∧
    validVersionName p.modelVersion = true ∧
      validVersionName p.processingProfileVersion = true := by
  have h := p.valid
  simp only [validProvenance, Bool.and_eq_true] at h
  exact ⟨h.1.1.1,h.1.1.2,h.1.2⟩

theorem duration_valid (duration : Option ℕ) :
    Valid accepts (.allOf [.keyword (.type [.integer,.null]),.keyword (.minimum 0)])
      (writeNullable .integer duration : Node V) := by
  cases duration with
  | none => exact ⟨⟨.null,by simp,trivial⟩,trivial,trivial⟩
  | some n => exact ⟨⟨.integer,by simp,trivial⟩,Nat.zero_le n,trivial⟩

/-- Members of these names which are there are valid. -/
theorem named_valid {schemas : List (String × Schema)} {ms : List (String × Node V)}
    (hschemas : (schemas.map (·.1)).Nodup) (hms : (ms.map (·.1)).Nodup)
    (h : ∀ schema ∈ schemas, ∀ tree, lookup schema.1 ms = some tree →
      Valid accepts schema.2 tree) : Valid accepts (.properties schemas .anything) (.object ms) :=
  (valid_properties hschemas).mpr ⟨fun schema hschema tree htree =>
    h schema hschema tree (lookup_of_mem hms htree),fun _ _ _ => trivial⟩

theorem valid_named {schemas : List (String × Schema)} {additional : Schema}
    {ms : List (String × Node V)} {name : String} {schema : Schema} {tree : Node V}
    (h : Valid accepts (.properties schemas additional) (.object ms))
    (hschemas : (schemas.map (·.1)).Nodup) (hmem : (name,schema) ∈ schemas)
    (hlookup : lookup name ms = some tree) : Valid accepts schema tree :=
  ((valid_properties hschemas).mp h).1 (name,schema) hmem tree (lookup_mem hlookup)

theorem resultNames_nodup : resultNames.Nodup := by decide

section Written
variable {documentId : DocumentId} {documentVersion : DocumentVersion}
  {payload : DocumentResultPayload V}

theorem record_result (h : Checked payload) :
    Valid accepts (record resultMembers)
      (writeResult (DocumentResult.ofPayload documentId documentVersion payload)) := by
  have hpages : Valid accepts (arrayOf page [.maxItems 1000])
      (.array ((byNumber payload.pages).map fun p => writePage p.toDocumentPage) : Node V) := by
    refine arrayOf_valid (fun p _ => page_valid p.toDocumentPage) ?_
    intro k hk
    rw [List.mem_singleton.mp hk]
    show ((byNumber payload.pages).map fun p => writePage p.toDocumentPage).length ≤ 1000
    rw [List.length_map, (byNumber_perm payload.pages).length_eq]
    exact h.counted
  refine record_valid (by decide) ?_
  refine members_cons ⟨resultSchemaVersion,List.mem_cons_self,rfl⟩ ?_
  refine members_cons (prefixedId_valid documentId.valid) ?_
  refine members_cons (digest_valid documentVersion) ?_
  refine members_cons ⟨"untrusted",List.mem_cons_self,rfl⟩ ?_
  refine members_cons (stringOf_nil _) ?_
  refine members_cons (stringOf_nil _) ?_
  refine members_cons hpages ?_
  refine members_cons (fields_valid h.named) ?_
  refine members_cons (arrayOf_valid (fun t _ => table_valid t) nofun) ?_
  refine members_cons (nullable_valid not_record (fun _ => not_null id nofun)
    fun c _ => confidenceDimensions_valid c) ?_
  refine members_cons (arrayOf_valid (fun e _ => evidence_valid e) nofun) ?_
  refine members_cons (arrayOf_valid (fun code _ => stableCode_valid code) nofun) ?_
  refine members_cons (arrayOf_valid (fun f _ => validationFailure_valid f) nofun) ?_
  refine members_cons (nullableName_valid ?_) ?_
  · intro name hname
    obtain ⟨p,_,rfl⟩ := Option.map_eq_some_iff.mp hname
    exact (provenance_names p).1
  refine members_cons (nullableName_valid ?_) ?_
  · intro name hname
    obtain ⟨p,_,rfl⟩ := Option.map_eq_some_iff.mp hname
    exact (provenance_names p).2.1
  refine members_cons (nullableName_valid ?_) ?_
  · intro name hname
    obtain ⟨p,_,rfl⟩ := Option.map_eq_some_iff.mp hname
    exact (provenance_names p).2.2
  refine members_cons (duration_valid _) ?_
  exact members_cons (nullable_valid not_record (fun _ => not_null id nofun)
    fun c _ => cost_valid c) members_nil

/-- A text or a markdown of at least one character asks for a citation. -/
theorem cited_result (h : Checked payload) :
    Valid accepts cited
      (writeResult (DocumentResult.ofPayload documentId documentVersion payload)) := by
  intro hcondition
  have htext : payload.text ≠ "" ∨ payload.markdown ≠ "" := by
    rcases hcondition with htext | hmarkdown | hfalse
    · have hlength : 1 ≤ payload.text.length :=
        valid_named htext (by decide) List.mem_cons_self rfl
      refine Or.inl fun hempty => ?_
      rw [hempty] at hlength
      exact absurd hlength (by decide)
    · have hlength : 1 ≤ payload.markdown.length :=
        valid_named hmarkdown (by decide) List.mem_cons_self rfl
      refine Or.inr fun hempty => ?_
      rw [hempty] at hlength
      exact absurd hlength (by decide)
    · exact absurd hfalse id
  refine named_valid (by decide) resultNames_nodup ?_
  intro schema hschema tree htree
  rw [List.mem_singleton.mp hschema] at htree ⊢
  rw [← Option.some.inj (show _ = some tree from htree)]
  show 1 ≤ (payload.citations.map writeEvidence).length
  rw [List.length_map]
  exact List.length_pos_iff.mpr (h.cited htext)

theorem null_valid : Valid accepts (.keyword (.type [.null])) (.null : Node V) :=
  ⟨.null,List.mem_cons_self,trivial⟩

/-- Valid as a null and nothing else, or the other way round. -/
theorem provenance_result : Valid accepts provenance
    (writeResult (DocumentResult.ofPayload documentId documentVersion payload)) := by
  obtain ⟨_,_,_,_,_,_,_,_,_,present,_⟩ := payload
  cases present with
  | none =>
    refine Or.inl ⟨named_valid (by decide) resultNames_nodup ?_,?_⟩
    · intro schema hschema tree htree
      simp only [List.mem_cons, List.not_mem_nil, or_false] at hschema
      rcases hschema with rfl | rfl | rfl | rfl
      all_goals
        rw [← Option.some.inj (show some .null = some tree from htree)]
        exact null_valid
    · rintro (hother | hfalse)
      · have hduration : Valid accepts (integerFrom 0) (.null : Node V) :=
          valid_named hother (by decide) List.mem_cons_self rfl
        obtain ⟨⟨type,htype,hhas⟩,_⟩ := hduration
        rw [List.mem_singleton.mp htype] at hhas
        exact hhas
      · exact hfalse
  | some p =>
    have hnames := provenance_names p
    refine Or.inr ⟨?_,Or.inl ⟨named_valid (by decide) resultNames_nodup ?_,id⟩⟩
    · intro hother
      have hduration : Valid accepts (.keyword (.type [.null])) (.integer p.durationMs : Node V) :=
        valid_named hother (by decide) List.mem_cons_self rfl
      exact not_null id nofun hduration
    · intro schema hschema tree htree
      simp only [List.mem_cons, List.not_mem_nil, or_false] at hschema
      rcases hschema with rfl | rfl | rfl | rfl
      · rw [← Option.some.inj (show some (.integer p.durationMs) = some tree from htree)]
        exact integerFrom_valid (Nat.zero_le _)
      · rw [← Option.some.inj (show some (.string p.modelVersion) = some tree from htree)]
        exact versionName_valid hnames.2.1
      · rw [← Option.some.inj
          (show some (.string p.processingProfileVersion) = some tree from htree)]
        exact versionName_valid hnames.2.2
      · rw [← Option.some.inj (show some (.string p.provider) = some tree from htree)]
        exact versionName_valid hnames.1

theorem result_valid {result : DocumentResult V}
    (h : DocumentResult.new documentId documentVersion payload = .ok result) :
    Valid accepts documentResult (writeResult result) := by
  obtain ⟨hchecked,rfl⟩ := new_ok.mp h
  exact ⟨record_result hchecked,cited_result hchecked,provenance_result,trivial⟩

end Written

end Validity

theorem priced_valid :
    Valid (fun _ _ => True) documentResult (writeResult pricedResult) :=
  result_valid (new_ok.mpr ⟨priced_checked,rfl⟩)

end DocumentIntelligence.ResultSchema
