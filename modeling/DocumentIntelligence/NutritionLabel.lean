import DocumentIntelligence.AccessGrants
import DocumentIntelligence.DocumentResults
import DocumentIntelligence.PageObservations
import DocumentIntelligence.Quantities

/-!
# Nutrition labels

The nutrition panel of a label is read line by line. A line of headers names columns, and a
line with a nutrient holds its values in the order of the columns, or its values are other
lines of the page in the same row, below the headers of their columns. Coordinates are exact,
and the direction of a panel is a parameter, as are the arithmetic of amounts and the lower
case of texts.
-/

set_option autoImplicit false

namespace DocumentIntelligence.NutritionLabel
open AccessGrants (Value)
open DocumentPages (ObservationId ObservationLevel isWhitespace)
open DocumentResults (StableCode ValidationFailure ValidationSeverity)
open PageObservations
open Quantities

inductive Column where
  | perServing
  | per100g
  | per100ml
  deriving DecidableEq, Repr

def Column.key : Column → String
  | .perServing => "per_serving"
  | .per100g => "per_100g"
  | .per100ml => "per_100ml"

def headerPhrases : List (List Char × Column) :=
  [("per serving".toList,.perServing),("per serve".toList,.perServing),
    ("per 100g".toList,.per100g),("per 100 g".toList,.per100g),
    ("per 100ml".toList,.per100ml),("per 100 ml".toList,.per100ml)]

inductive Nutrient where
  | energyKj
  | energyKcal
  | protein
  | fat
  | saturatedFat
  | carbohydrate
  | sugars
  | fibre
  | sodium
  deriving DecidableEq, Repr

def Nutrient.key : Nutrient → String
  | .energyKj => "energy_kj"
  | .energyKcal => "energy_kcal"
  | .protein => "protein_g"
  | .fat => "fat_g"
  | .saturatedFat => "saturated_fat_g"
  | .carbohydrate => "carbohydrate_g"
  | .sugars => "sugars_g"
  | .fibre => "fibre_g"
  | .sodium => "sodium_mg"

/-- The arithmetic of amounts, that of `f64` or of exact numbers. -/
class Amount (F : Type) extends Add F, Sub F, Mul F, Div F where
  lt : F → F → Bool
  le : F → F → Bool
  max : F → F → F
  abs : F → F
  round : F → F
  isFinite : F → Bool
  decimal : List Char → F

inductive Row where
  | energy (calories : Bool)
  | mass (nutrient : Nutrient)
  deriving DecidableEq, Repr

/-! ### Texts -/

def contains (text : List Char) (part : String) : Bool := decide (part.toList <:+: text)

def startsWith (text : List Char) (part : String) : Bool := part.toList.isPrefixOf text

def stripPrefix (text : List Char) (part : String) : List Char :=
  if startsWith text part then text.drop part.toList.length else text

/-- The places of the phrase, one after the other. -/
def matchIndices (phrase : List Char) : ℕ → ℕ → List Char → List ℕ
  | _,_,[] => []
  | place,skip+1,_::cs => matchIndices phrase (place+1) skip cs
  | place,0,c::cs =>
    if phrase.isPrefixOf (c::cs) then
      place::matchIndices phrase (place+1) (phrase.length-1) cs
    else matchIndices phrase (place+1) 0 cs

def Column.rank : Column → ℕ
  | .perServing => 0
  | .per100g => 1
  | .per100ml => 2

def foundBefore (a b : ℕ × Column) : Bool :=
  decide (a.1 < b.1) || (decide (a.1 = b.1) && decide (a.2.rank ≤ b.2.rank))

/-- The columns which are not yet listed are listed after the others. -/
def addColumns (columns : List Column) : List Column → List Column
  | [] => columns
  | column::more =>
    addColumns (if columns.contains column then columns else columns++[column]) more

def columnHeaders (text : List Char) : List Column :=
  let found := headerPhrases.flatMap fun (phrase,column) =>
    (matchIndices phrase 0 0 text).map fun place => (place,column)
  addColumns [] ((found.mergeSort foundBefore).map (·.2))

def maximumLabelChars : ℕ := 40

def labelRow (label : List Char) : Option Row :=
  if startsWith label "saturated" then some (.mass .saturatedFat)
  else if startsWith label "sugar" then some (.mass .sugars)
  else if ["fibre","fiber","dietary fibre","dietary fiber"].any (startsWith label) then
    some (.mass .fibre)
  else if startsWith label "energy" then some (.energy false)
  else if startsWith label "calories" then some (.energy true)
  else if startsWith label "protein" then some (.mass .protein)
  else if startsWith label "fat" then some (.mass .fat)
  else if startsWith label "carbohydrate" then some (.mass .carbohydrate)
  else if startsWith label "sodium" then some (.mass .sodium)
  else none

def labelUnits : List (String × Quantities.Unit) :=
  [("(g)",.g),("(mg)",.mg),("(kcal)",.kcal),("(kj)",.kj)]

def classify (text : List Char) : Option (Row × Option Quantities.Unit) :=
  let label := text.takeWhile fun c => !(c.isDigit || c == '<')
  if maximumLabelChars < label.length then none
  else
    let label := label.dropWhile fun c => "-–—•*· ".toList.contains c
    let label := stripPrefix label "of which "
    let label := stripPrefix label "total "
    if ["unsaturated","trans","added","includes","from"].any (contains label) then none
    else (labelRow label).map fun row =>
      (row,(labelUnits.find? fun marker => contains label marker.1).map (·.2))

/-- What follows the first occurrence of the part. -/
def afterFirst (part : List Char) : List Char → Option (List Char)
  | [] => if part.isPrefixOf [] then some [] else none
  | c::cs => if part.isPrefixOf (c::cs) then some ((c::cs).drop part.length) else afterFirst part cs

/-- What is before the first occurrence of the part. -/
def beforeFirst (part : List Char) : List Char → List Char
  | [] => []
  | c::cs => if part.isPrefixOf (c::cs) then [] else c::beforeFirst part cs

def checkDigit (digits : List Char) : Bool :=
  let values := digits.map fun c => c.toNat-48
  let sum := (values.dropLast.reverse.zipIdx.map fun (digit,i) =>
    if i%2 = 0 then digit*3 else digit).sum
  values.getLast? == some ((10-sum%10)%10)

def barcode (text : List Char) : Option (List Char) :=
  let digits := text.filter fun c => !isWhitespace c
  if digits.length ∈ [8,12,13] ∧ digits.all Char.isDigit = true ∧ checkDigit digits = true then
    some digits
  else none

section Labels
variable {K : Type} [Field K] [LinearOrder K] {F : Type} [Amount F]

/-! ### Lines and what is read of them -/

variable (K) in
structure Line where
  page : PageNumber
  observation : TextObservation K
  lower : List Char

variable (K) in
structure Evidence where
  page : PageNumber
  polygon : Polygon K
  observationId : ObservationId

def Line.evidence (line : Line K) : Evidence K :=
  ⟨line.page,line.observation.polygon,line.observation.observationId⟩

variable (K F) in
structure ExtractedValue where
  value : Value F
  confidence : Confidence K
  evidence : List (Evidence K)
  valid : (!evidence.isEmpty) = true

variable (K F) in
structure Reading where
  nutrient : Nutrient
  slot : ℕ
  amount : F
  lines : List (Line K)

variable (K F) in
/-- The fields are a map. -/
structure Output where
  fields : List (String × ExtractedValue K F)
  validationFailures : List ValidationFailure

def Output.default : Output K F := ⟨[],[]⟩

def Output.get (output : Output K F) (name : String) : Option (ExtractedValue K F) :=
  (output.fields.find? (·.1 == name)).map (·.2)

def minimumConfidence : List (Line K) → Option (Confidence K)
  | [] => none
  | line::lines => some (lines.foldl (fun least other =>
      if other.observation.confidence.value < least.value then other.observation.confidence
      else least) line.observation.confidence)

def ExtractedValue.new (value : Value F) (confidence : Confidence K) (evidence : List (Evidence K)) :
    Option (ExtractedValue K F) :=
  if h : (!evidence.isEmpty) = true then some ⟨value,confidence,evidence,h⟩ else none

def Output.put (output : Output K F) (name : String) (value : Value F) (lines : List (Line K)) :
    Output K F :=
  if (output.get name).isSome then output
  else match minimumConfidence lines with
  | none => output
  | some confidence => match ExtractedValue.new value confidence (lines.map Line.evidence) with
    | none => output
    | some extracted => { output with fields := output.fields++[(name,extracted)] }

def Output.fail (output : Output K F) (code : String) (severity : ValidationSeverity) :
    Output K F :=
  match StableCode.new code with
  | .error _ => output
  | .ok code =>
    if output.validationFailures.any (·.code == code) then output
    else { output with validationFailures := output.validationFailures++[⟨code,severity⟩] }

/-! ### Amounts -/

/-- A decimal literal. -/
def literal (digits : String) : F := Amount.decimal digits.toList

/-- `json!` of a number -/
def json (x : F) : Value F := if Amount.isFinite x then .number x else .null

def round (value : F) : F := Amount.round (value*literal "1000")/literal "1000"

def Nutrient.normaliseMass (nutrient : Nutrient) (amount : F) (unit : Quantities.Unit) : Option F :=
  let grams := match unit with
    | .g => some amount
    | .mg => some (amount/literal "1000")
    | .mcg => some (amount/literal "1000000")
    | _ => none
  grams.map fun grams => if nutrient = .sodium then grams*literal "1000" else grams

/-- The nutrient which a quantity in the row is of, and its amount. -/
def target (row : Row) (labelUnit : Option Quantities.Unit) (quantity : Quantity F) :
    Option (Nutrient × F) :=
  let unit := (quantity.unit.or labelUnit).or (if row = .energy true then some .kcal else none)
  match row, unit with
  | .energy _, some .kj => some (.energyKj,quantity.amount)
  | .energy _, some .kcal => some (.energyKcal,quantity.amount)
  | .mass nutrient, some unit =>
    (nutrient.normaliseMass quantity.amount unit).map fun amount => (nutrient,amount)
  | _, _ => none

/-- Each nutrient of a row counts its own slots. -/
def rowReadings (row : Row) (labelUnit : Option Quantities.Unit) (line : Line K) :
    (Nutrient → ℕ) → List (Quantity F) → List (Reading K F)
  | _,[] => []
  | slots,quantity::more => match target row labelUnit quantity with
    | none => rowReadings row labelUnit line slots more
    | some (nutrient,amount) =>
      let rest := rowReadings row labelUnit line (Function.update slots nutrient (slots nutrient+1))
        more
      if quantity.upperBound then rest else ⟨nutrient,slots nutrient,amount,[line]⟩::rest

section Texts
variable (letters : Letters)

/-- The quantities of a text. -/
def quantitiesOf (text : List Char) : List (Quantity F) := quantities letters Amount.decimal text

def readRow (row : Row) (labelUnit : Option Quantities.Unit) (line : Line K) : List (Reading K F) :=
  rowReadings row labelUnit line (fun _ => 0) (quantitiesOf letters line.lower)

def metricQuantity (text : List Char) : Option (Quantity F) :=
  (quantitiesOf letters text).reverse.find? fun q => q.unit == some .g || q.unit == some .ml

def headerServing (text : List Char) : Option (Quantity F) :=
  (afterFirst "per serv".toList text).bind fun after =>
    metricQuantity letters (beforeFirst "per ".toList after)

end Texts

/-! ### The geometry of a panel -/

/-- The box of a line along the axis: left, right, top and bottom. -/
def bounds (line : Line K) (axis : K × K) : K × K × K × K :=
  let along := line.observation.polygon.points.map fun p => p.x*axis.1+p.y*axis.2
  let across := line.observation.polygon.points.map fun p => -p.x*axis.2+p.y*axis.1
  (along.foldl min (along.headD 0),along.foldl max (along.headD 0),
    across.foldl min (across.headD 0),across.foldl max (across.headD 0))

/-- The lines overlap by more than half of the lower one. -/
def alignedRow (a b : K × K × K × K) : Bool :=
  let overlap := min a.2.2.2 b.2.2.2-max a.2.2.1 b.2.2.1
  decide (1/2*min (a.2.2.2-a.2.2.1) (b.2.2.2-b.2.2.1) < overlap)

def center (b : K × K × K × K) : K := (b.1+b.2.1)/2

variable (K) in
/-- A header above the values of a row. -/
structure Header where
  slot : ℕ
  line : Line K
  position : K × K × K × K

/-- The line is the header of one column, above and behind the label. -/
def headerOf (columns : List Column) (axis : K × K) (labelBounds : K × K × K × K)
    (line : Line K) : Option (Header K) :=
  match columnHeaders line.lower with
  | [column] => (columns.findIdx? (· == column)).bind fun slot =>
      let position := bounds line axis
      if position.2.2.2 < labelBounds.2.2.1 ∧ labelBounds.2.1 < position.1 then
        some ⟨slot,line,position⟩
      else none
  | _ => none

def startsWithNumber (text : List Char) : Bool :=
  (text.dropWhile isWhitespace).head?.any fun c => c.isDigit || c == '<'

/-- The line may hold the value of the label below the header. -/
def isCandidate (lines : List (Line K)) (axis : K × K) (label : Line K) (headers : List (Header K))
    (header : Header K) (line : Line K) : Bool :=
  let labelBounds := bounds label axis
  let cell := bounds line axis
  let distance := |center cell-center header.position|
  (line.page == label.page && startsWithNumber line.lower) &&
    (!decide (cell.1 ≤ labelBounds.2.1) && alignedRow labelBounds cell) &&
    !decide (max (header.position.2.1-header.position.1) (cell.2.1-cell.1) < distance) &&
    !(headers.any fun other => other.slot != header.slot &&
      decide (|center cell-center other.position| ≤ distance)) &&
    !(lines.any fun other => other.page == label.page &&
      other.observation.observationId != label.observation.observationId &&
      (classify other.lower).isSome && alignedRow (bounds other axis) cell)

/-- The headers which a label has in its page. -/
def headersOf (lines : List (Line K)) (axis : K × K) (columns : List Column) (label : Line K) :
    List (Header K) :=
  (lines.filter fun line => line.page == label.page).filterMap
    (headerOf columns axis (bounds label axis))

/-- Each column has one header. -/
def completeHeaders (columns : List Column) (headers : List (Header K)) : Bool :=
  decide (headers.length = columns.length) && !columns.isEmpty &&
    (List.range columns.length).all fun slot => decide ((headers.countP (·.slot == slot)) = 1)

section Spatial
variable (letters : Letters) (panelAxis : List (Line K) → PageNumber → K × K)

/-- The readings of the only candidate for a column. -/
def readCell (row : Row) (labelUnit : Option Quantities.Unit) (lines : List (Line K)) (axis : K × K)
    (label : Line K) (headers : List (Header K)) (header : Header K) : List (Reading K F) :=
  match lines.filter (isCandidate lines axis label headers header) with
  | [cell] => (readRow letters row labelUnit cell).map fun reading =>
      { reading with slot := header.slot, lines := [label,cell,header.line] }
  | _ => []

def readSpatialRow (row : Row) (labelUnit : Option Quantities.Unit) (label : Line K)
    (lines : List (Line K)) (columns : List Column) : List (Reading K F) :=
  let axis := panelAxis lines label.page
  let headers := headersOf lines axis columns label
  if completeHeaders columns headers then
    headers.flatMap (readCell letters row labelUnit lines axis label headers)
  else []

end Spatial

/-! ### The extraction -/

section Extract
variable (letters : Letters) (panelAxis : List (Line K) → PageNumber → K × K)
  (lowercase : String → List Char)

variable (K F) in
/-- What the loop over the lines keeps. -/
structure State where
  output : Output K F
  columns : List Column
  headerLines : List (Line K)
  serving : Option (F × Quantities.Unit)
  readings : List (Reading K F)
  panelRows : ℕ

def State.initial : State K F := ⟨Output.default,[],[],none,[],0⟩

def recordServing (s : State K F) (size : Quantity F) (line : Line K) : State K F :=
  match size.unit, s.serving with
  | some unit, none =>
    let name := if unit = .ml then "ml" else "g"
    { s with
      serving := some (size.amount,unit)
      output := s.output.put "serving_size"
        (.object [("amount",json (round size.amount)),("unit",.string name)]) [line] }
  | _, _ => s

def recordSize (s : State K F) (size : Option (Quantity F)) (line : Line K) : State K F :=
  match size with
  | some size => recordServing s size line
  | none => s

def readHeaders (s : State K F) (headers : List Column) (line : Line K) : State K F :=
  recordSize { s with
    columns := addColumns s.columns headers
    headerLines := s.headerLines++[line] } (headerServing letters line.lower) line

/-- Some column has no reading. -/
def incomplete (columns : List Column) (readings : List (Reading K F)) : Bool :=
  !columns.isEmpty &&
    (List.range columns.length).any fun slot => !readings.any fun reading => reading.slot == slot

def nutritionRowIncomplete : String := "nutrition_row_incomplete"

def readNutrient (lines : List (Line K)) (s : State K F) (row : Row)
    (labelUnit : Option Quantities.Unit) (line : Line K) : State K F :=
  let found : List (Quantity F) := quantitiesOf letters line.lower
  let inline := readRow letters row labelUnit line
  let bounded := if (found.any fun q => q.upperBound) then s.panelRows+1 else s.panelRows
  if inline.isEmpty && found.isEmpty then
    let spatial := readSpatialRow letters panelAxis row labelUnit line lines s.columns
    { s with
      readings := s.readings++spatial
      output := if incomplete s.columns spatial then s.output.fail nutritionRowIncomplete .error
        else s.output
      panelRows := if spatial.isEmpty then bounded else s.panelRows+1 }
  else
    { s with
      readings := s.readings++inline
      panelRows := if inline.isEmpty then bounded else s.panelRows+1 }

def readBarcode (s : State K F) (line : Line K) : State K F :=
  match barcode line.observation.text.toList with
  | some digits => { s with output := s.output.put "barcode" (.string (String.ofList digits)) [line] }
  | none => s

/-- One line of the loop. -/
def readLine (lines : List (Line K)) (s : State K F) (line : Line K) : State K F :=
  let text := line.lower
  if contains text "servings per" then
    match (quantitiesOf letters text : List (Quantity F)).head? with
    | some quantity =>
      { s with output := s.output.put "servings_per_pack" (json (round quantity.amount)) [line] }
    | none => s
  else if !(columnHeaders text).isEmpty then readHeaders letters s (columnHeaders text) line
  else if contains text "serving size" || contains text "serve size" then
    recordSize s (metricQuantity letters text) line
  else match classify text with
  | some (row,labelUnit) => readNutrient letters panelAxis lines s row labelUnit line
  | none => readBarcode s line

def readLines (lines : List (Line K)) : State K F :=
  lines.foldl (readLine letters panelAxis lines) State.initial

def locale (lines : List (Line K)) : Option (String × Line K) :=
  [("fssai","en-IN"),("nutrition facts","en-US"),("nutrition information","en-AU")].findSome?
    fun (marker,locale) => (lines.find? fun line => contains line.lower marker).map (locale,·)

/-- The amounts which were put into the output, by column and nutrient. -/
abbrev Values (F : Type) := List ((Column × Nutrient) × F)

def Values.get (values : Values F) (column : Column) (nutrient : Nutrient) : Option F :=
  (values.find? (·.1 == (column,nutrient))).map (·.2)

def fieldName (column : Column) (nutrient : Nutrient) : String := column.key++"."++nutrient.key

/-- One reading of the loop which puts the fields. -/
def putReading (columns : List Column) (s : Output K F × Values F) (reading : Reading K F) :
    Output K F × Values F :=
  match columns[reading.slot]? with
  | none => s
  | some column =>
    if (s.2.get column reading.nutrient).isSome then s
    else (s.1.put (fieldName column reading.nutrient) (json (round reading.amount)) reading.lines,
      s.2++[((column,reading.nutrient),reading.amount)])

def exceeds (part whole : Option F) : Bool :=
  match part, whole with
  | some part, some whole => Amount.lt (whole+literal "0.05") part
  | _, _ => false

def energyMismatch (kj kcal : Option F) : Bool :=
  match kj, kcal with
  | some kj, some kcal => Amount.lt (literal "0.0") kcal &&
      !(Amount.le (literal "3.9") (kj/kcal) && Amount.le (kj/kcal) (literal "4.5"))
  | _, _ => false

def atwaterMismatch (energy protein fat carbohydrate : Option F) : Bool :=
  match energy, protein, fat, carbohydrate with
  | some energy, some protein, some fat, some carbohydrate =>
    let atwater := literal "4.0"*protein+literal "4.0"*carbohydrate+literal "9.0"*fat
    Amount.lt (Amount.max (literal "0.2"*energy) (literal "15.0")) (Amount.abs (atwater-energy))
  | _, _, _, _ => false

def Output.failIf (output : Output K F) (condition : Bool) (code : String) : Output K F :=
  if condition then output.fail code .warning else output

def validateColumn (values : Values F) (output : Output K F) (column : Column) : Output K F :=
  let get := values.get column
  let output := output.failIf (energyMismatch (get .energyKj) (get .energyKcal))
    "energy_unit_mismatch"
  let energy := (get .energyKcal).or ((get .energyKj).map fun kj => kj/literal "4.184")
  let output := output.failIf
    (atwaterMismatch energy (get .protein) (get .fat) (get .carbohydrate)) "energy_atwater_mismatch"
  let output := output.failIf (exceeds (get .saturatedFat) (get .fat)) "saturated_fat_exceeds_fat"
  let output := output.failIf (exceeds (get .sugars) (get .carbohydrate))
    "sugars_exceed_carbohydrate"
  let solids := ([.protein,.fat,.carbohydrate,.fibre].filterMap get).foldl (·+·) (literal "0.0")
  output.failIf (decide (column = .per100g) && Amount.lt (literal "101.0") solids)
    "per_100g_exceeds_100g"

def servingMismatch (values : Values F) (reference : Column) (size : F) : Bool :=
  values.any fun entry => decide (entry.1.1 = .perServing) &&
    (values.get reference entry.1.2).any fun per100 =>
      let expected := per100*size/literal "100.0"
      Amount.lt (Amount.max (literal "0.1"*expected) (literal "0.5"))
        (Amount.abs (entry.2-expected))

def validate (output : Output K F) (columns : List Column) (values : Values F)
    (serving : Option (F × Quantities.Unit)) : Output K F :=
  let output := columns.foldl (validateColumn values) output
  match serving with
  | none => output
  | some (size,unit) =>
    let reference : Column := if unit = .ml then .per100ml else .per100g
    if !columns.contains .perServing || !columns.contains reference then output
    else output.failIf (servingMismatch values reference size) "serving_column_mismatch"

def putLocale (output : Output K F) (lines : List (Line K)) : Output K F :=
  match locale lines with
  | some (locale,line) => output.put "locale" (.string locale) [line]
  | none => output

/-- What `extract` does after the loop over the lines. -/
def finish (lines : List (Line K)) (s : State K F) : Output K F :=
  let output := putLocale s.output lines
  if s.panelRows = 0 then output.fail "nutrition_panel_not_found" .error
  else if s.columns.isEmpty then output.fail "nutrition_columns_unidentified" .error
  else
    let output := output.put "column_headers"
      (.array (s.columns.map fun column => .string column.key)) s.headerLines
    let (output,values) := s.readings.foldl (putReading s.columns) (output,[])
    validate output s.columns values s.serving

/-- The lines of the pages, in order. -/
def linesOf (pages : List (DocumentPage K)) : List (Line K) :=
  pages.flatMap fun page => (page.observations.filter fun o => o.level == .line).map fun o =>
    ⟨page.page,o,lowercase o.text⟩

def extractLines (lines : List (Line K)) : Output K F :=
  finish lines (readLines letters panelAxis lines)

def extract (pages : List (DocumentPage K)) : Output K F :=
  extractLines letters panelAxis (linesOf lowercase pages)

end Extract

end Labels

end DocumentIntelligence.NutritionLabel
