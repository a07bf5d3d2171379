import DocumentIntelligence.NutritionCells

/-!
# Panels with inline rows

A label may have several panels, each with its own order of columns. The columns of the
document are those of all its panels in the order in which they are first named, and a row
counts the quantities of a nutrient which can be read. A value is in the right column as long
as both agree with the panel of its row.
-/

set_option autoImplicit false

namespace DocumentIntelligence.NutritionPanels
open NutritionLabel NutritionReadings NutritionCells Quantities
open PageObservations

section Panels
variable {K : Type} [Field K] [LinearOrder K]

variable (K) in
/-- A line which is read as a nutrient. -/
structure NutrientRow where
  line : Line K
  row : Row
  labelUnit : Option Quantities.Unit
  read : nutrientLine line = some (row,labelUnit)

section Quantities
variable (F : Type) [Amount F] (letters : Letters)

/-- The nutrient and the amount of a quantity, as if its number could be read. -/
def placed (row : Row) (labelUnit : Option Quantities.Unit) (t : Token) : Option (Nutrient × F) :=
  target row labelUnit ⟨Amount.decimal t.number,t.unit,t.upperBound⟩

/-- The quantities of a nutrient in the row, also those which cannot be read. -/
def quantitiesIn (row : Row) (labelUnit : Option Quantities.Unit) (n : Nutrient) (ts : List Token) :
    List (Token × F) :=
  ts.filterMap fun t => (placed F row labelUnit t).bind fun x =>
    if x.1 = n then some (t,x.2) else none

def NutrientRow.tokens (row : NutrientRow K) : List Token :=
  Quantities.tokens letters row.line.lower

def NutrientRow.quantities (row : NutrientRow K) (n : Nutrient) : List (Token × F) :=
  quantitiesIn F row.row row.labelUnit n (row.tokens letters)

/-- The quantity of the nutrient at a place of the row, if it can be read. -/
def NutrientRow.standing (row : NutrientRow K) (n : Nutrient) (place : ℕ) : Option F :=
  (row.quantities F letters n)[place]?.bind fun x => if x.1.readable then some x.2 else none

/-- The quantity of the nutrient at a place among those which can be read, if it is no bound. -/
def NutrientRow.counted (row : NutrientRow K) (n : Nutrient) (place : ℕ) : Option F :=
  ((row.quantities F letters n).filter (·.1.readable))[place]?.bind fun x =>
    if x.1.upperBound then none else some x.2

end Quantities

section Documents
variable (K) (F : Type) [Amount F] (letters : Letters)

/-- A block of headers with the rows below it. Each row has one quantity for each column, and
its units can be used. -/
structure Panel where
  headers : List (Line K)
  rows : List (NutrientRow K)
  named : ∀ line ∈ headers, headerLine line ≠ []
  nonempty : headers ≠ []
  distinct : (headers.flatMap headerLine).Nodup
  usable : ∀ row ∈ rows, ∀ t ∈ row.tokens letters, (placed F row.row row.labelUnit t).isSome = true
  complete : ∀ row ∈ rows, ∀ n, row.quantities F letters n = [] ∨
    (row.quantities F letters n).length = (headers.flatMap headerLine).length
  readable : ∀ row ∈ rows, ∃ t ∈ row.tokens letters, t.readable = true

variable {K F letters}

/-- The columns from left to right. -/
def Panel.columns (panel : Panel K F letters) : List Column := panel.headers.flatMap headerLine

def Panel.lines (panel : Panel K F letters) : List (Line K) :=
  panel.headers++panel.rows.map (·.line)

variable (K F letters) in
/-- The pages of a label which consists of panels. -/
structure PanelDocument (lowercase : String → List Char) where
  pages : LabelPages K
  panels : List (Panel K F letters)
  lines : linesOf lowercase pages.pages = panels.flatMap Panel.lines

variable {lowercase : String → List Char}

/-- All columns, in the order in which they are first named. -/
def PanelDocument.columns (document : PanelDocument K F letters lowercase) : List Column :=
  columnsFrom [] (document.panels.flatMap Panel.lines)

/-- All rows with their panels, in order. -/
def PanelDocument.rows (document : PanelDocument K F letters lowercase) :
    List (Panel K F letters × NutrientRow K) :=
  document.panels.flatMap fun panel => panel.rows.map fun row => (panel,row)

/-- The first quantity which is counted at the rank of a column is the one at the place of the
column in its panel. -/
def CountedInOrder (document : PanelDocument K F letters lowercase) : Prop :=
  ∀ c n rank panel row amount, document.columns[rank]? = some c →
    document.rows.find? (fun x => (x.2.counted F letters n rank).isSome) = some (panel,row) →
    row.counted F letters n rank = some amount →
    ∃ place standing, panel.columns[place]? = some c ∧
      row.standing F letters n place = some standing ∧
      (json (round amount) : AccessGrants.Value F) = json (round standing)

end Documents

/-! ### Slots -/

section Slots
variable {F : Type} [Amount F]

end Slots

/-! ### Rows of a document -/

section Rows
variable {F : Type} [Amount F] {letters : Letters} (panelAxis : List (Line K) → PageNumber → K × K)

theorem headerLine_nutrient {line : Line K} (h : headerLine line ≠ []) : nutrientLine line = none := by
  unfold headerLine at h
  split at h
  · exact absurd rfl h
  · rw [nutrientLine, if_pos]
    simp [h]

theorem nutrientLine_header {line : Line K} {x : Row × Option Quantities.Unit}
    (h : nutrientLine line = some x) : headerLine line = [] := by
  by_contra hne
  rw [headerLine_nutrient hne] at h
  cases h

variable {lowercase : String → List Char} (document : PanelDocument K F letters lowercase)

theorem mem_rows {panel : Panel K F letters} {row : NutrientRow K} :
    (panel,row) ∈ document.rows ↔ panel ∈ document.panels ∧ row ∈ panel.rows := by
  rw [PanelDocument.rows, List.mem_flatMap]
  constructor
  · rintro ⟨other,hother,hmem⟩
    obtain ⟨_,hrow,heq⟩ := List.mem_map.mp hmem
    cases heq
    exact ⟨hother,hrow⟩
  · rintro ⟨hpanel,hrow⟩
    exact ⟨panel,hpanel,List.mem_map_of_mem hrow⟩

/-- Panels which name their columns in the order of the document, with rows in which no
quantity is read after one which cannot be read, are read in order. -/
theorem counted_in_order
    (horder : ∀ panel ∈ document.panels, panel.columns <+: document.columns)
    (hread : ∀ x ∈ document.rows, ∀ n, ∃ read unread, x.2.quantities F letters n = read++unread ∧
      (∀ q ∈ read, q.1.readable = true) ∧ ∀ q ∈ unread, q.1.readable = false) :
    CountedInOrder document := by
  intro c n rank panel row amount hrank hfind hcounted
  have hmem := List.mem_of_find?_eq_some hfind
  obtain ⟨hpanel,hrow⟩ := (mem_rows document).mp hmem
  obtain ⟨read,unread,hsplit,hreadable,hunread⟩ := hread _ hmem n
  have hfilter : (row.quantities F letters n).filter (·.1.readable) = read := by
    rw [hsplit, List.filter_append, List.filter_eq_self.mpr hreadable,
      List.filter_eq_nil_iff.mpr (fun q hq => by rw [hunread q hq]; decide), List.append_nil]
  rw [NutrientRow.counted, hfilter] at hcounted
  obtain ⟨q,hq,hamount⟩ := Option.bind_eq_some_iff.mp hcounted
  obtain ⟨hlt,_⟩ := List.getElem?_eq_some_iff.mp hq
  have hplace : (row.quantities F letters n)[rank]? = some q := by
    rw [hsplit, List.getElem?_append_left hlt, hq]
  have hlength : rank < panel.columns.length := by
    obtain ⟨hlt,_⟩ := List.getElem?_eq_some_iff.mp hplace
    rcases panel.complete row hrow n with hempty | hcomplete
    · rw [hempty] at hlt
      exact absurd hlt (Nat.not_lt_zero _)
    · rw [Panel.columns, ← hcomplete]
      exact hlt
  obtain ⟨more,hmore⟩ := horder panel hpanel
  refine ⟨rank,amount,?_,?_,rfl⟩
  · rw [← hmore, List.getElem?_append_left hlength] at hrank
    exact hrank
  · rw [NutrientRow.standing, hplace, Option.bind_some, if_pos (hreadable q (List.mem_of_getElem? hq))]
    by_cases hbound : q.1.upperBound = true
    · rw [if_pos hbound] at hamount
      cases hamount
    · rw [if_neg hbound] at hamount
      exact hamount

end Rows

end Panels

/-! ### A second panel with another order -/

/-- The value of digits with at most one point. -/
def rationalDecimal (number : List Char) : ℚ :=
  let digits := number.filter Char.isDigit
  let fraction := (number.dropWhile (· != '.')).filter Char.isDigit
  (digits.foldl (fun n c => 10*n+(c.toNat-48)) 0 : ℕ)/(10:ℚ)^fraction.length

/-- Exact amounts. -/
instance : Amount ℚ where
  lt := fun x y => decide (x < y)
  le := fun x y => decide (x ≤ y)
  max := max
  abs := fun x => if x < 0 then -x else x
  round := fun x => if x < 0 then -(⌊-x+1/2⌋:ℤ) else (⌊x+1/2⌋:ℤ)
  isFinite := fun _ => true
  decimal := rationalDecimal

def triangle : Polygon ℚ where
  points := [⟨0,0,by decide +kernel⟩,⟨1,0,by decide +kernel⟩,⟨0,1,by decide +kernel⟩]
  valid := by decide +kernel

end DocumentIntelligence.NutritionPanels
