import DocumentIntelligence.NutritionLabel
import DocumentIntelligence.ScopedNames

/-!
# Readings and fields of a nutrition label

Each line adds its readings to those of the lines before it, and the first reading for a
column and a nutrient becomes their field. A field stays as it was first put.
-/

set_option autoImplicit false

namespace DocumentIntelligence.NutritionReadings
open NutritionLabel Quantities
open AccessGrants (Value)
open PageObservations
open ScopedNames (separator_inj)

section Readings
variable {K : Type} [Field K] [LinearOrder K] {F : Type}

/-! ### Fields stay -/

/-- The fields of the first output are fields of the second one. -/
def Kept (output other : Output K F) : Prop :=
  ∀ name field, output.get name = some field → other.get name = some field

theorem Kept.refl (output : Output K F) : Kept output output := fun _ _ h => h

theorem Kept.trans {a b c : Output K F} (h : Kept a b) (h' : Kept b c) : Kept a c :=
  fun name field hget => h' name field (h name field hget)

/-- What an emitted field shows. -/
structure Shows (field : ExtractedValue K F) (value : Value F) (lines : List (Line K)) : Prop where
  value : field.value = value
  evidence : field.evidence = lines.map Line.evidence

theorem get_append (output : Output K F) (name other : String) (field : ExtractedValue K F) :
    Output.get { output with fields := output.fields++[(name,field)] } other =
      (output.get other).or (if name = other then some field else none) := by
  simp only [Output.get, List.find?_append]
  cases output.fields.find? (·.1 == other) with
  | some entry => rfl
  | none =>
    by_cases hname : name = other
    · simp [hname]
    · simp [hname]

/-- A value is put under a name which is not taken, if there is a line which shows it. -/
theorem put_spec (output : Output K F) (name : String) (value : Value F) (lines : List (Line K)) :
    (output.put name value lines = output ∧ (output.get name = none → lines = [])) ∨
      ∃ field, Shows field value lines ∧ output.get name = none ∧
        output.put name value lines = { output with fields := output.fields++[(name,field)] } := by
  by_cases htaken : (output.get name).isSome = true
  · refine Or.inl ⟨by rw [Output.put, if_pos htaken],fun hnone => ?_⟩
    rw [hnone] at htaken
    cases htaken
  · have hnone := Option.not_isSome_iff_eq_none.mp htaken
    cases lines with
    | nil => exact Or.inl ⟨by rw [Output.put, if_neg htaken]; rfl,fun _ => rfl⟩
    | cons line lines =>
      refine Or.inr ⟨⟨value,(minimumConfidence (line::lines)).get rfl,
        (line::lines).map Line.evidence,rfl⟩,⟨rfl,rfl⟩,hnone,?_⟩
      rw [Output.put, if_neg htaken]
      rfl

theorem put_kept (output : Output K F) (name : String) (value : Value F) (lines : List (Line K)) :
    Kept output (output.put name value lines) := by
  rcases put_spec output name value lines with ⟨h,_⟩ | ⟨field,_,_,h⟩
  · rw [h]
    exact Kept.refl output
  · rw [h]
    intro other found hget
    rw [get_append, hget, Option.some_or]

theorem put_get {output : Output K F} {name other : String} {value : Value F}
    {lines : List (Line K)} {field : ExtractedValue K F}
    (h : (output.put name value lines).get other = some field) :
    output.get other = some field ∨
      (name = other ∧ output.get name = none ∧ Shows field value lines) := by
  rcases put_spec output name value lines with ⟨hsame,_⟩ | ⟨put,hshows,hnone,hput⟩
  · exact Or.inl (hsame ▸ h)
  · rw [hput, get_append] at h
    cases hget : output.get other with
    | some found =>
      rw [hget, Option.some_or] at h
      exact Or.inl h
    | none =>
      rw [hget, Option.none_or] at h
      by_cases hname : name = other
      · rw [if_pos hname, Option.some.injEq] at h
        exact Or.inr ⟨hname,hnone,h ▸ hshows⟩
      · rw [if_neg hname] at h
        cases h

/-- A name which is not taken is put, if there is a line. -/
theorem put_emits {output : Output K F} {name : String} (value : Value F)
    {lines : List (Line K)} (hnone : output.get name = none) (hlines : lines ≠ []) :
    ∃ field, (output.put name value lines).get name = some field ∧ Shows field value lines := by
  rcases put_spec output name value lines with ⟨_,hempty⟩ | ⟨field,hshows,_,hput⟩
  · exact absurd (hempty hnone) hlines
  · exact ⟨field,by rw [hput, get_append, hnone, Option.none_or, if_pos rfl],hshows⟩

theorem put_other {output : Output K F} {name other : String} (hne : name ≠ other)
    (value : Value F) (lines : List (Line K)) :
    (output.put name value lines).get other = output.get other := by
  rcases put_spec output name value lines with ⟨h,_⟩ | ⟨field,_,_,h⟩
  · rw [h]
  · rw [h, get_append, if_neg hne, Option.or_none]

theorem fail_get (output : Output K F) (code : String)
    (severity : DocumentResults.ValidationSeverity) (name : String) :
    (output.fail code severity).get name = output.get name := by
  unfold Output.fail
  cases DocumentResults.StableCode.new code with
  | error _ => rfl
  | ok code =>
    show (if _ then _ else _ : Output K F).get name = _
    split <;> rfl

theorem failIf_get (output : Output K F) (condition : Bool) (code name : String) :
    (output.failIf condition code).get name = output.get name := by
  unfold Output.failIf
  split
  · exact fail_get _ _ _ _
  · rfl

section Validation
variable [Amount F]

theorem validateColumn_get (values : Values F) (output : Output K F) (column : Column)
    (name : String) : (validateColumn values output column).get name = output.get name := by
  simp only [validateColumn, failIf_get]

theorem validate_get (output : Output K F) (columns : List Column) (values : Values F)
    (serving : Option (F × Quantities.Unit)) (name : String) :
    (validate output columns values serving).get name = output.get name := by
  have hcolumns : ∀ output : Output K F,
      (columns.foldl (validateColumn values) output).get name = output.get name := by
    induction columns with
    | nil => exact fun _ => rfl
    | cons column columns ih =>
      intro output
      rw [List.foldl_cons, ih, validateColumn_get]
  have hif : ∀ (output : Output K F) (skip condition : Bool) (code : String),
      (if skip = true then output else output.failIf condition code).get name = output.get name := by
    intro output skip condition code
    split
    · rfl
    · exact failIf_get output condition code name
  unfold validate
  cases serving with
  | none => exact hcolumns output
  | some serving => exact (hif _ _ _ _).trans (hcolumns output)

end Validation

/-! ### Names of fields -/

theorem key_inj {c c' : Column} (h : c.key.toList = c'.key.toList) : c = c' := by
  cases c <;> cases c' <;> first | rfl | exact absurd h (by decide)

theorem nutrient_inj {n n' : Nutrient} (h : n.key.toList = n'.key.toList) : n = n' := by
  have hall : ∀ a ∈ [Nutrient.energyKj,.energyKcal,.protein,.fat,.saturatedFat,.carbohydrate,
      .sugars,.fibre,.sodium], ∀ b ∈ [Nutrient.energyKj,.energyKcal,.protein,.fat,.saturatedFat,
      .carbohydrate,.sugars,.fibre,.sodium], a.key.toList = b.key.toList → a = b := by decide
  exact hall n (by cases n <;> decide) n' (by cases n' <;> decide) h

theorem fieldName_chars (c : Column) (n : Nutrient) :
    (fieldName c n).toList = c.key.toList++ '.'::n.key.toList := by
  rw [fieldName, String.toList_append, String.toList_append, List.append_assoc]
  rfl

theorem fieldName_inj {c c' : Column} {n n' : Nutrient} (h : fieldName c n = fieldName c' n') :
    c = c' ∧ n = n' := by
  have hpoint : ∀ c : Column, '.' ∉ c.key.toList := by
    intro c
    cases c <;> decide
  have hchars := congrArg String.toList h
  rw [fieldName_chars, fieldName_chars] at hchars
  obtain ⟨hcolumn,hnutrient⟩ := separator_inj (hpoint c) (hpoint c') hchars
  exact ⟨key_inj hcolumn,nutrient_inj hnutrient⟩

/-- A name without a point is no name of a nutrient in a column. -/
theorem plain_name {name : String} (h : '.' ∉ name.toList) (c : Column) (n : Nutrient) :
    name ≠ fieldName c n := by
  intro heq
  apply h
  rw [heq, fieldName_chars]
  exact List.mem_append_right _ List.mem_cons_self

/-- No nutrient has a field. -/
def Plain (output : Output K F) : Prop := ∀ c n, output.get (fieldName c n) = none

theorem Plain.put {output : Output K F} (h : Plain output) {name : String}
    (hname : '.' ∉ name.toList) (value : Value F) (lines : List (Line K)) :
    Plain (output.put name value lines) :=
  fun c n => by rw [put_other (plain_name hname c n), h c n]

theorem Plain.fail {output : Output K F} (h : Plain output) (code : String)
    (severity : DocumentResults.ValidationSeverity) : Plain (output.fail code severity) :=
  fun c n => by rw [fail_get, h c n]

theorem plain_initial : Plain (Output.default : Output K F) := fun _ _ => rfl

theorem values_append (values : Values F) (entry : (Column × Nutrient) × F) (c : Column)
    (n : Nutrient) : Values.get (values++[entry]) c n =
      (values.get c n).or (if entry.1 = (c,n) then some entry.2 else none) := by
  simp only [Values.get, List.find?_append]
  cases values.find? (·.1 == (c,n)) with
  | some found => rfl
  | none =>
    by_cases hentry : entry.1 = (c,n)
    · simp [hentry]
    · simp [hentry]

theorem putLocale_kept (output : Output K F) (lines : List (Line K)) :
    Kept output (putLocale output lines) ∧ (Plain output → Plain (putLocale output lines)) := by
  unfold putLocale
  split
  · exact ⟨put_kept _ _ _ _,fun h => h.put (by decide) _ _⟩
  · exact ⟨Kept.refl _,id⟩

/-! ### The loop over the lines -/

section Lines
variable [Amount F] (letters : Letters) (panelAxis : List (Line K) → PageNumber → K × K)

/-- The line is read as a nutrient. -/
def nutrientLine (line : Line K) : Option (Row × Option Quantities.Unit) :=
  if contains line.lower "servings per" || !(columnHeaders line.lower).isEmpty ||
      (contains line.lower "serving size" || contains line.lower "serve size") then none
  else classify line.lower

/-- The line is read as headers. -/
def headerLine (line : Line K) : List Column :=
  if contains line.lower "servings per" then [] else columnHeaders line.lower

/-- The readings which a line of a nutrient adds. -/
def nutrientReadings (lines : List (Line K)) (columns : List Column) (row : Row)
    (labelUnit : Option Quantities.Unit) (line : Line K) : List (Reading K F) :=
  if (readRow letters row labelUnit line : List (Reading K F)).isEmpty &&
      (quantitiesOf letters line.lower : List (Quantity F)).isEmpty then
    readSpatialRow letters panelAxis row labelUnit line lines columns
  else readRow letters row labelUnit line

/-- The readings which a line adds after the lines which named the columns. -/
def lineReadings (lines : List (Line K)) (columns : List Column) (line : Line K) :
    List (Reading K F) :=
  match nutrientLine line with
  | some (row,labelUnit) => nutrientReadings letters panelAxis lines columns row labelUnit line
  | none => []

/-- What a line does to the columns, the readings and the fields. -/
structure Step (lines : List (Line K)) (s s' : State K F) (line : Line K) : Prop where
  columns : s'.columns = addColumns s.columns (headerLine line)
  readings : s'.readings = s.readings++lineReadings letters panelAxis lines s.columns line
  kept : Kept s.output s'.output
  plain : Plain s.output → Plain s'.output
  rows : s.panelRows ≤ s'.panelRows ∧
    (lineReadings letters panelAxis lines s.columns line ≠ ([] : List (Reading K F)) →
      0 < s'.panelRows)

theorem recordSize_spec (s : State K F) (size : Option (Quantity F)) (line : Line K) :
    (recordSize s size line).columns = s.columns ∧ (recordSize s size line).readings = s.readings ∧
      (recordSize s size line).panelRows = s.panelRows ∧
      Kept s.output (recordSize s size line).output ∧
      (Plain s.output → Plain (recordSize s size line).output) := by
  cases size with
  | none => exact ⟨rfl,rfl,rfl,Kept.refl _,id⟩
  | some size =>
    show (recordServing s size line).columns = _ ∧ _
    rw [recordSize, recordServing]
    split
    · exact ⟨rfl,rfl,rfl,put_kept _ _ _ _,fun h => h.put (by decide) _ _⟩
    · exact ⟨rfl,rfl,rfl,Kept.refl _,id⟩

theorem readNutrient_spec (lines : List (Line K)) (s : State K F) (row : Row)
    (labelUnit : Option Quantities.Unit) (line : Line K) :
    (readNutrient letters panelAxis lines s row labelUnit line).columns = s.columns ∧
      (readNutrient letters panelAxis lines s row labelUnit line).readings = s.readings++
        nutrientReadings letters panelAxis lines s.columns row labelUnit line ∧
      (∀ name, (readNutrient letters panelAxis lines s row labelUnit line).output.get name =
        s.output.get name) ∧
      (s.panelRows ≤ (readNutrient letters panelAxis lines s row labelUnit line).panelRows ∧
        (nutrientReadings letters panelAxis lines s.columns row labelUnit line ≠
            ([] : List (Reading K F)) →
          0 < (readNutrient letters panelAxis lines s row labelUnit line).panelRows)) := by
  by_cases hempty : ((readRow letters row labelUnit line : List (Reading K F)).isEmpty &&
      (quantitiesOf letters line.lower : List (Quantity F)).isEmpty) = true
  · simp only [readNutrient, nutrientReadings, if_pos hempty]
    refine ⟨trivial,trivial,?_,?_,?_⟩
    · intro name
      split
      · exact fail_get _ _ _ _
      · rfl
    · split_ifs <;> omega
    · intro hne
      rw [if_neg (by simpa using hne)]
      omega
  · simp only [readNutrient, nutrientReadings, if_neg hempty]
    refine ⟨trivial,trivial,fun _ => trivial,?_,?_⟩
    · split_ifs <;> omega
    · intro hne
      rw [if_neg (by simpa using hne)]
      omega

theorem readLine_step (lines : List (Line K)) (s : State K F) (line : Line K) :
    Step letters panelAxis lines s (readLine letters panelAxis lines s line) line := by
  unfold readLine
  by_cases hservings : contains line.lower "servings per" = true
  · have hline : nutrientLine line = none := by rw [nutrientLine, hservings]; rfl
    have hheader : headerLine line = [] := by rw [headerLine, if_pos hservings]
    simp only [if_pos hservings]
    split
    · constructor
      · rw [hheader]
        rfl
      · rw [lineReadings, hline, List.append_nil]
      · exact put_kept _ _ _ _
      · exact fun h => h.put (by decide) _ _
      · rw [lineReadings, hline]
        exact ⟨le_refl _,fun h => absurd rfl h⟩
    · constructor
      · rw [hheader]
        rfl
      · rw [lineReadings, hline, List.append_nil]
      · exact Kept.refl _
      · exact id
      · rw [lineReadings, hline]
        exact ⟨le_refl _,fun h => absurd rfl h⟩
  · have hheader : headerLine line = columnHeaders line.lower := by
      rw [headerLine, if_neg hservings]
    simp only [if_neg hservings]
    by_cases hheaders : (!(columnHeaders line.lower).isEmpty) = true
    · have hline : nutrientLine line = none := by rw [nutrientLine, hheaders]; simp
      obtain ⟨hcolumns,hreadings,hrows,hkept,hplain⟩ := recordSize_spec
        { s with
          columns := addColumns s.columns (columnHeaders line.lower)
          headerLines := s.headerLines++[line] } (headerServing letters line.lower) line
      simp only [if_pos hheaders, readHeaders]
      constructor
      · rw [hcolumns, hheader]
      · rw [hreadings, lineReadings, hline, List.append_nil]
      · exact hkept
      · exact hplain
      · rw [hrows, lineReadings, hline]
        exact ⟨le_refl _,fun h => absurd rfl h⟩
    · have hnone : columnHeaders line.lower = [] := by
        simpa using hheaders
      simp only [if_neg hheaders]
      by_cases hsize : (contains line.lower "serving size" || contains line.lower "serve size") = true
      · have hline : nutrientLine line = none := by rw [nutrientLine, hsize]; simp
        obtain ⟨hcolumns,hreadings,hrows,hkept,hplain⟩ := recordSize_spec s
          (metricQuantity letters line.lower) line
        simp only [if_pos hsize]
        constructor
        · rw [hcolumns, hheader, hnone]
          rfl
        · rw [hreadings, lineReadings, hline, List.append_nil]
        · exact hkept
        · exact hplain
        · rw [hrows, lineReadings, hline]
          exact ⟨le_refl _,fun h => absurd rfl h⟩
      · have hline : nutrientLine line = classify line.lower := by
          rw [nutrientLine, if_neg]
          simp only [Bool.or_eq_true, not_or]
          exact ⟨⟨hservings,hheaders⟩,by simpa using hsize⟩
        simp only [if_neg hsize]
        cases hclass : classify line.lower with
        | none =>
          have hadded : lineReadings letters panelAxis lines s.columns line =
              ([] : List (Reading K F)) := by
            rw [lineReadings, hline, hclass]
          show Step letters panelAxis lines s (readBarcode s line) line
          unfold readBarcode
          split
          · constructor
            · rw [hheader, hnone]
              rfl
            · rw [hadded, List.append_nil]
            · exact put_kept _ _ _ _
            · exact fun h => h.put (by decide) _ _
            · rw [hadded]
              exact ⟨le_refl _,fun h => absurd rfl h⟩
          · constructor
            · rw [hheader, hnone]
              rfl
            · rw [hadded, List.append_nil]
            · exact Kept.refl _
            · exact id
            · rw [hadded]
              exact ⟨le_refl _,fun h => absurd rfl h⟩
        | some found =>
          obtain ⟨row,labelUnit⟩ := found
          have hadded : lineReadings letters panelAxis lines s.columns line =
              (nutrientReadings letters panelAxis lines s.columns row labelUnit line :
                List (Reading K F)) := by
            rw [lineReadings, hline, hclass]
          obtain ⟨hcolumns,hreadings,hget,hrows⟩ := readNutrient_spec letters panelAxis lines s row
            labelUnit line
          show Step letters panelAxis lines s (readNutrient letters panelAxis lines s row labelUnit
            line) line
          constructor
          · rw [hcolumns, hheader, hnone]
            rfl
          · rw [hreadings, hadded]
          · intro name field h
            rw [hget, h]
          · intro h c n
            rw [hget, h c n]
          · rw [hadded]
            exact hrows

/-- The columns which the lines name, after others. -/
def columnsFrom (columns : List Column) : List (Line K) → List Column
  | [] => columns
  | line::rest => columnsFrom (addColumns columns (headerLine line)) rest

def readingsFrom (lines : List (Line K)) (columns : List Column) :
    List (Line K) → List (Reading K F)
  | [] => []
  | line::rest => lineReadings letters panelAxis lines columns line++
      readingsFrom lines (addColumns columns (headerLine line)) rest

/-- What the loop over the rest of the lines does. -/
structure Run (lines : List (Line K)) (s s' : State K F) (rest : List (Line K)) : Prop where
  columns : s'.columns = columnsFrom s.columns rest
  readings : s'.readings = s.readings++readingsFrom letters panelAxis lines s.columns rest
  kept : Kept s.output s'.output
  plain : Plain s.output → Plain s'.output
  rows : (s.readings ≠ [] → 0 < s.panelRows) → s'.readings ≠ [] → 0 < s'.panelRows

theorem readLines_run (lines rest : List (Line K)) (s : State K F) :
    Run letters panelAxis lines s (rest.foldl (readLine letters panelAxis lines) s) rest := by
  induction rest generalizing s with
  | nil =>
    constructor
    · rfl
    · rw [readingsFrom, List.append_nil]
      rfl
    · exact Kept.refl _
    · exact id
    · exact id
  | cons line rest ih =>
    have hstep := readLine_step letters panelAxis lines s line
    have hrun := ih (readLine letters panelAxis lines s line)
    rw [List.foldl_cons]
    constructor
    · rw [hrun.columns, hstep.columns, columnsFrom]
    · rw [hrun.readings, hstep.readings, hstep.columns, readingsFrom, List.append_assoc]
    · exact hstep.kept.trans hrun.kept
    · exact fun h => hrun.plain (hstep.plain h)
    · intro hs
      apply hrun.rows
      intro hne
      by_cases hold : s.readings = []
      · rw [hstep.readings, hold, List.nil_append] at hne
        exact hstep.rows.2 hne
      · exact (hs hold).trans_le hstep.rows.1

/-! ### Readings have lines -/

theorem rowReadings_lines (row : Row) (labelUnit : Option Quantities.Unit) (line : Line K)
    (slots : Nutrient → ℕ) (found : List (Quantity F)) :
    ∀ r ∈ rowReadings row labelUnit line slots found, r.lines = [line] := by
  induction found generalizing slots with
  | nil => simp [rowReadings]
  | cons quantity found ih =>
    rw [rowReadings]
    cases target row labelUnit quantity with
    | none => exact ih slots
    | some hit =>
      obtain ⟨nutrient,amount⟩ := hit
      show ∀ r ∈ (if quantity.upperBound = true then _ else _), _
      split
      · exact ih _
      · intro r hr
        rcases List.mem_cons.mp hr with rfl | hr
        · rfl
        · exact ih _ r hr

theorem readCell_lines {row : Row} {labelUnit : Option Quantities.Unit} {lines : List (Line K)}
    {axis : K × K} {label : Line K} {headers : List (Header K)} {header : Header K}
    {r : Reading K F}
    (h : r ∈ (readCell letters row labelUnit lines axis label headers header : List (Reading K F))) :
    ∃ cell, lines.filter (isCandidate lines axis label headers header) = [cell] ∧
      ∃ reading ∈ (readRow letters row labelUnit cell : List (Reading K F)),
        r = { reading with slot := header.slot, lines := [label,cell,header.line] } := by
  unfold readCell at h
  split at h
  · rename_i cell hcell
    obtain ⟨reading,hmem,heq⟩ := List.mem_map.mp h
    exact ⟨cell,hcell,reading,hmem,heq.symm⟩
  · exact absurd h List.not_mem_nil

theorem readSpatialRow_mem {row : Row} {labelUnit : Option Quantities.Unit} {label : Line K}
    {lines : List (Line K)} {columns : List Column} {r : Reading K F}
    (h : r ∈ (readSpatialRow letters panelAxis row labelUnit label lines columns :
      List (Reading K F))) :
    completeHeaders columns (headersOf lines (panelAxis lines label.page) columns label) = true ∧
      ∃ header ∈ headersOf lines (panelAxis lines label.page) columns label,
        r ∈ (readCell letters row labelUnit lines (panelAxis lines label.page) label
          (headersOf lines (panelAxis lines label.page) columns label) header :
          List (Reading K F)) := by
  unfold readSpatialRow at h
  simp only at h
  split at h
  · rename_i hcomplete
    obtain ⟨header,hmem,hr⟩ := List.mem_flatMap.mp h
    exact ⟨hcomplete,header,hmem,hr⟩
  · exact absurd h List.not_mem_nil

theorem lineReadings_nonempty {lines : List (Line K)} {columns : List Column} {line : Line K}
    {r : Reading K F} (h : r ∈ (lineReadings letters panelAxis lines columns line :
      List (Reading K F))) : r.lines ≠ [] := by
  unfold lineReadings at h
  split at h
  · rename_i row labelUnit _
    unfold nutrientReadings at h
    split at h
    · obtain ⟨_,header,_,hr⟩ := readSpatialRow_mem letters panelAxis h
      obtain ⟨cell,_,reading,_,heq⟩ := readCell_lines letters hr
      rw [heq]
      exact List.cons_ne_nil _ _
    · rw [rowReadings_lines row labelUnit line _ _ r h]
      exact List.cons_ne_nil _ _
  · exact absurd h List.not_mem_nil

theorem readingsFrom_nonempty {lines : List (Line K)} {columns : List Column} {rest : List (Line K)} :
    ∀ r ∈ (readingsFrom letters panelAxis lines columns rest : List (Reading K F)),
      r.lines ≠ [] := by
  induction rest generalizing columns with
  | nil => simp [readingsFrom]
  | cons line rest ih =>
    intro r hr
    rw [readingsFrom, List.mem_append] at hr
    rcases hr with hr | hr
    · exact lineReadings_nonempty letters panelAxis hr
    · exact ih r hr

/-! ### The loop over the readings -/

/-- The reading is of the nutrient in the column. -/
def hits (columns : List Column) (c : Column) (n : Nutrient) (r : Reading K F) : Bool :=
  columns[r.slot]? == some c && r.nutrient == n

/-- The first reading of the nutrient in the column. -/
def firstFor (columns : List Column) (readings : List (Reading K F)) (c : Column) (n : Nutrient) :
    Option (Reading K F) :=
  readings.find? (hits columns c n)

/-- The values are those of the fields. -/
def Agree (s : Output K F × Values F) : Prop :=
  ∀ c n, (s.1.get (fieldName c n)).isSome = (s.2.get c n).isSome

theorem putReading_kept (columns : List Column) (s : Output K F × Values F) (r : Reading K F) :
    Kept s.1 (putReading columns s r).1 := by
  unfold putReading
  split
  · exact Kept.refl _
  · split
    · exact Kept.refl _
    · exact put_kept _ _ _ _

theorem putReadings_kept (columns : List Column) (readings : List (Reading K F))
    (s : Output K F × Values F) : Kept s.1 (readings.foldl (putReading columns) s).1 := by
  induction readings generalizing s with
  | nil => exact Kept.refl _
  | cons r readings ih => exact (putReading_kept columns s r).trans (ih _)

/-- What putting one reading does to the field of a nutrient in a column. -/
theorem putReading_step (columns : List Column) {s : Output K F × Values F} (hagree : Agree s)
    {r : Reading K F} (hlines : r.lines ≠ []) :
    Agree (putReading columns s r) ∧ ∀ c n, s.1.get (fieldName c n) = none →
      (if hits columns c n r = true then
        ∃ field, (putReading columns s r).1.get (fieldName c n) = some field ∧
          Shows field (json (round r.amount)) r.lines
      else (putReading columns s r).1.get (fieldName c n) = none) := by
  unfold putReading
  cases hcolumn : columns[r.slot]? with
  | none => exact ⟨hagree,fun c n hnone => by simpa [hits, hcolumn] using hnone⟩
  | some column =>
    by_cases htaken : (s.2.get column r.nutrient).isSome = true
    · simp only [if_pos htaken]
      refine ⟨hagree,fun c n hnone => ?_⟩
      rw [if_neg]
      · exact hnone
      · intro hsame
        simp only [hits, hcolumn, Bool.and_eq_true, beq_iff_eq, Option.some.injEq] at hsame
        rw [hsame.1, hsame.2, ← hagree c n, hnone] at htaken
        cases htaken
    · simp only [if_neg htaken]
      have hfree : s.1.get (fieldName column r.nutrient) = none := by
        rw [← Option.not_isSome_iff_eq_none, hagree]
        exact htaken
      obtain ⟨field,hget,hshows⟩ := put_emits (json (round r.amount)) hfree hlines
      have hname : ∀ c n, (column,r.nutrient) ≠ (c,n) →
          fieldName column r.nutrient ≠ fieldName c n := by
        intro c n hne heq
        obtain ⟨rfl,rfl⟩ := fieldName_inj heq
        exact hne rfl
      constructor
      · intro c n
        show (Output.get (s.1.put _ _ _) _).isSome = (Values.get (_++[_]) _ _).isSome
        rw [values_append]
        by_cases hsame : (column,r.nutrient) = (c,n)
        · rw [if_pos hsame]
          obtain ⟨rfl,rfl⟩ := Prod.mk.inj hsame
          rw [hget, Option.not_isSome_iff_eq_none.mp htaken]
          rfl
        · rw [if_neg hsame, Option.or_none, put_other (hname c n hsame)]
          exact hagree c n
      · intro c n hnone
        by_cases hsame : (column,r.nutrient) = (c,n)
        · obtain ⟨rfl,rfl⟩ := Prod.mk.inj hsame
          rw [if_pos (by simp [hits, hcolumn])]
          exact ⟨field,hget,hshows⟩
        · rw [if_neg, put_other (hname c n hsame), hnone]
          intro heq
          simp only [hits, hcolumn, Bool.and_eq_true, beq_iff_eq, Option.some.injEq] at heq
          exact hsame (by rw [heq.1, heq.2])

/-- The field of a nutrient in a column is that of its first reading. -/
theorem putReadings_first (columns : List Column) {readings : List (Reading K F)}
    (hlines : ∀ r ∈ readings, r.lines ≠ []) {s : Output K F × Values F} (hagree : Agree s)
    {c : Column} {n : Nutrient} (hnone : s.1.get (fieldName c n) = none) :
    match firstFor columns readings c n with
    | none => (readings.foldl (putReading columns) s).1.get (fieldName c n) = none
    | some r => ∃ field,
        (readings.foldl (putReading columns) s).1.get (fieldName c n) = some field ∧
          Shows field (json (round r.amount)) r.lines := by
  induction readings generalizing s with
  | nil => exact hnone
  | cons r readings ih =>
    obtain ⟨hnext,hfield⟩ := putReading_step columns hagree
      (hlines r List.mem_cons_self)
    have hfield := hfield c n hnone
    rw [firstFor, List.foldl_cons]
    by_cases hit : hits columns c n r = true
    · rw [if_pos hit] at hfield
      rw [List.find?_cons_of_pos hit]
      obtain ⟨field,hget,hshows⟩ := hfield
      exact ⟨field,putReadings_kept columns readings _ _ _ hget,hshows⟩
    · rw [if_neg hit] at hfield
      rw [List.find?_cons_of_neg hit]
      exact ih (fun r hr => hlines r (List.mem_cons_of_mem _ hr)) hnext hfield

/-! ### The fields of an extraction -/

/-- The output before the fields of the readings are put. -/
def beforeReadings (lines : List (Line K)) (s : State K F) : Output K F :=
  (putLocale s.output lines).put "column_headers"
    (.array (s.columns.map fun column => .string column.key)) s.headerLines

/-- The fields after the loop over the lines are those of the readings, if a row and a column
were found. -/
theorem finish_get (lines : List (Line K)) (s : State K F) (name : String) :
    (finish lines s).get name =
      if s.panelRows = 0 ∨ s.columns = [] then (putLocale s.output lines).get name
      else (s.readings.foldl (putReading s.columns) (beforeReadings lines s,[])).1.get name := by
  unfold finish
  by_cases hrows : s.panelRows = 0
  · simp only [if_pos hrows, if_pos (Or.inl hrows : s.panelRows = 0 ∨ s.columns = [])]
    exact fail_get _ _ _ _
  · by_cases hcolumns : s.columns = []
    · simp only [if_neg hrows, if_pos (Or.inr hcolumns : s.panelRows = 0 ∨ s.columns = [])]
      rw [if_pos (by rw [hcolumns]; rfl)]
      exact fail_get _ _ _ _
    · have hneither : ¬(s.panelRows = 0 ∨ s.columns = []) := fun h => h.elim hrows hcolumns
      simp only [if_neg hrows, if_neg hneither]
      rw [if_neg (by simpa using hcolumns)]
      exact validate_get _ _ _ _ _

theorem finish_kept (lines : List (Line K)) (s : State K F) : Kept s.output (finish lines s) := by
  intro name field h
  have hlocale := (putLocale_kept s.output lines).1 name field h
  rw [finish_get]
  split
  · exact hlocale
  · exact putReadings_kept _ _ _ _ _ (put_kept _ _ _ _ _ _ hlocale)

theorem readLines_spec (lines : List (Line K)) :
    Run letters panelAxis lines (State.initial : State K F) (readLines letters panelAxis lines)
      lines :=
  readLines_run letters panelAxis lines lines State.initial

theorem readLines_readings (lines : List (Line K)) :
    (readLines letters panelAxis lines : State K F).readings =
      readingsFrom letters panelAxis lines [] lines :=
  (readLines_spec letters panelAxis lines).readings

theorem readLines_columns (lines : List (Line K)) :
    (readLines letters panelAxis lines : State K F).columns = columnsFrom [] lines :=
  (readLines_spec letters panelAxis lines).columns

/-- The field of a nutrient in a column is that of its first reading. -/
theorem extractLines_field (lines : List (Line K)) (c : Column) (n : Nutrient) :
    match firstFor (columnsFrom [] lines)
      (readingsFrom letters panelAxis lines [] lines : List (Reading K F)) c n with
    | none => (extractLines letters panelAxis lines : Output K F).get (fieldName c n) = none
    | some r => ∃ field,
        (extractLines letters panelAxis lines : Output K F).get (fieldName c n) = some field ∧
          Shows field (json (round r.amount)) r.lines := by
  have hrun := readLines_spec (F := F) letters panelAxis lines
  have hplain : Plain (putLocale (readLines letters panelAxis lines : State K F).output lines) :=
    (putLocale_kept _ lines).2 (hrun.plain plain_initial)
  rw [← readLines_readings, ← readLines_columns (F := F) letters panelAxis lines, extractLines,
    finish_get]
  by_cases hnone : (readLines letters panelAxis lines : State K F).panelRows = 0 ∨
      (readLines letters panelAxis lines : State K F).columns = []
  · have hfirst : firstFor (readLines letters panelAxis lines : State K F).columns
        (readLines letters panelAxis lines : State K F).readings c n = none := by
      rcases hnone with hrows | hcolumns
      · have hempty : (readLines letters panelAxis lines : State K F).readings = [] := by
          by_contra hne
          exact absurd hrows (hrun.rows (fun h => absurd rfl h) hne).ne'
        rw [hempty]
        rfl
      · rw [firstFor, hcolumns, List.find?_eq_none]
        intro r _
        simp [hits]
    rw [hfirst, if_pos hnone]
    exact hplain c n
  · rw [if_neg hnone]
    have hbefore : Plain (beforeReadings lines (readLines letters panelAxis lines : State K F)) :=
      hplain.put (by decide) _ _
    refine putReadings_first _ ?_ ?_ (hbefore c n)
    · rw [readLines_readings]
      exact readingsFrom_nonempty letters panelAxis
    · intro c n
      rw [hbefore c n]
      rfl

end Lines

end Readings

/-! ### The names of the fields -/

def nutrientNames : List String :=
  [Column.perServing,.per100g,.per100ml].flatMap fun column =>
    [Nutrient.energyKj,.energyKcal,.protein,.fat,.saturatedFat,.carbohydrate,.sugars,.fibre,
      .sodium].map (fieldName column)

/-- The names under which an extraction puts its fields. -/
def extractedNames : List String :=
  ["servings_per_pack","serving_size","barcode","locale","column_headers"]++nutrientNames

theorem fieldName_extracted (column : Column) (nutrient : Nutrient) :
    fieldName column nutrient ∈ extractedNames := by
  cases column <;> cases nutrient <;> decide

theorem extractedNames_valid : ∀ name ∈ extractedNames, name ≠ "" ∧ name.utf8ByteSize ≤ 128 := by
  decide

section Names
variable {K : Type} [Field K] [LinearOrder K] {F : Type}

def Named (output : Output K F) : Prop :=
  ∀ name, (output.get name).isSome = true → name ∈ extractedNames

theorem Named.put {output : Output K F} (h : Named output) {name : String}
    (hname : name ∈ extractedNames) (value : Value F) (lines : List (Line K)) :
    Named (output.put name value lines) := by
  intro other hother
  obtain ⟨field,hfield⟩ := Option.isSome_iff_exists.mp hother
  rcases put_get hfield with hkept | ⟨rfl,_⟩
  · exact h other (by rw [hkept]; rfl)
  · exact hname

theorem Named.fail {output : Output K F} (h : Named output) (code : String)
    (severity : DocumentResults.ValidationSeverity) : Named (output.fail code severity) := by
  intro name hname
  rw [fail_get] at hname
  exact h name hname

variable [Amount F] (letters : Letters) (panelAxis : List (Line K) → PageNumber → K × K)
  (lowercase : String → List Char)

theorem recordSize_named {s : State K F} (h : Named s.output) (size : Option (Quantity F))
    (line : Line K) : Named (recordSize s size line).output := by
  unfold recordSize
  cases size with
  | none => exact h
  | some size =>
    show Named (recordServing s size line).output
    unfold recordServing
    split
    · exact h.put (by decide) _ _
    · exact h

/-- A line puts its fields under the names of the extraction. -/
theorem readLine_named (lines : List (Line K)) {s : State K F} (h : Named s.output)
    (line : Line K) : Named (readLine letters panelAxis lines s line).output := by
  unfold readLine
  dsimp only
  split
  · split
    · exact h.put (by decide) _ _
    · exact h
  split
  · unfold readHeaders
    exact recordSize_named (by exact h) _ line
  split
  · exact recordSize_named h _ line
  split
  · unfold readNutrient
    dsimp only
    split
    · dsimp only
      split
      · exact h.fail _ _
      · exact h
    · exact h
  · unfold readBarcode
    split
    · exact h.put (by decide) _ _
    · exact h

theorem readLines_named (lines rest : List (Line K)) {s : State K F} (h : Named s.output) :
    Named (rest.foldl (readLine letters panelAxis lines) s).output := by
  induction rest generalizing s with
  | nil => exact h
  | cons line rest ih => exact ih (readLine_named letters panelAxis lines h line)

theorem putReadings_named (columns : List Column) (readings : List (Reading K F))
    {s : Output K F × Values F} (h : Named s.1) :
    Named (readings.foldl (putReading columns) s).1 := by
  induction readings generalizing s with
  | nil => exact h
  | cons r readings ih =>
    refine ih ?_
    unfold putReading
    split
    · exact h
    · split
      · exact h
      · exact h.put (fieldName_extracted _ _) _ _

theorem finish_named (lines : List (Line K)) {s : State K F} (h : Named s.output) :
    Named (finish lines s) := by
  have hlocale : Named (putLocale s.output lines) := by
    unfold putLocale
    split
    · exact h.put (by decide) _ _
    · exact h
  intro name hname
  rw [finish_get] at hname
  split at hname
  · exact hlocale name hname
  · exact putReadings_named s.columns s.readings (hlocale.put (by decide) _ _) name hname

/-- Every field of an extraction has one of its names. -/
theorem extract_named (pages : List (DocumentPage K)) :
    ∀ entry ∈ (extract letters panelAxis lowercase pages : Output K F).fields,
      entry.1 ∈ extractedNames := by
  intro entry hentry
  have hinitial : Named (State.initial : State K F).output := fun _ hname => by cases hname
  refine finish_named (linesOf lowercase pages)
    (readLines_named letters panelAxis (linesOf lowercase pages) (linesOf lowercase pages)
      hinitial) entry.1 ?_
  show (Option.map _ (List.find? _ _)).isSome = true
  rw [Option.isSome_map, List.find?_isSome]
  exact ⟨entry,hentry,beq_self_eq_true _⟩

end Names

end DocumentIntelligence.NutritionReadings
