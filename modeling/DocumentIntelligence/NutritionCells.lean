import DocumentIntelligence.NutritionReadings
import DocumentIntelligence.Table

/-!
# Cells of a nutrition panel

A value which is not in the line of its nutrient is the only line in the row of the label and
below the header of its column. The cell belongs to no other label and to no other column,
and its field shows the label, the cell and the header.
-/

set_option autoImplicit false

namespace DocumentIntelligence.NutritionCells
open NutritionLabel NutritionReadings Quantities
open DocumentPages (ObservationId)
open PageObservations

section Cells
variable {K : Type} [Field K] [LinearOrder K] {F : Type} [Amount F]

variable (K) in
/-- The pages of a label, each once and as `DocumentPage::new` returns it. -/
structure LabelPages where
  pages : List (DocumentPage K)
  distinct : (pages.map (·.page)).Nodup
  built : ∀ page ∈ pages, acyclic [] [] page.observations = true

/-- What identifies a line. -/
def lineKey (line : Line K) : PageNumber × ObservationId :=
  (line.page,line.observation.observationId)

theorem acyclic_distinct {os : List (TextObservation K)} {seenIds : List ObservationId}
    {seenOrders : List ℕ} (h : acyclic seenIds seenOrders os = true) :
    (os.map (·.observationId)).Nodup ∧ ∀ o ∈ os, o.observationId ∉ seenIds := by
  induction os generalizing seenIds seenOrders with
  | nil => simp
  | cons o os ih =>
    rw [acyclic, Bool.and_eq_true, Bool.and_eq_true, Bool.and_eq_true] at h
    obtain ⟨hnodup,hseen⟩ := ih h.2
    constructor
    · rw [List.map_cons, List.nodup_cons]
      refine ⟨?_,hnodup⟩
      intro hmem
      obtain ⟨x,hx,heq⟩ := List.mem_map.mp hmem
      exact hseen x hx (heq ▸ List.mem_cons_self)
    · intro x hx
      rcases List.mem_cons.mp hx with rfl | hx
      · simpa using h.1.2
      · exact fun hmem => hseen x hx (List.mem_cons_of_mem _ hmem)

/-- No two lines of the pages have one key. -/
theorem lines_keyed (lowercase : String → List Char) (pages : LabelPages K) :
    ((linesOf lowercase pages.pages).map lineKey).Nodup := by
  obtain ⟨pages,hdistinct,hbuilt⟩ := pages
  show ((linesOf lowercase pages).map lineKey).Nodup
  rw [linesOf, List.map_flatMap, List.nodup_flatMap]
  constructor
  · intro page hpage
    rw [List.map_map]
    have hids := (acyclic_distinct (hbuilt page hpage)).1
    have hfilter : ((page.observations.filter fun o => o.level == .line).map
        (·.observationId)).Nodup := hids.sublist (List.filter_sublist.map _)
    have hpair := hfilter.map (f := fun id => (page.page,id)) fun a b h => (Prod.mk.inj h).2
    rw [List.map_map] at hpair
    exact hpair
  · rw [List.Nodup, List.pairwise_map] at hdistinct
    refine hdistinct.imp fun {a b} hne => ?_
    intro key ha hb
    obtain ⟨x,hx,hkey⟩ := List.mem_map.mp ha
    obtain ⟨y,hy,hkey'⟩ := List.mem_map.mp hb
    obtain ⟨_,_,rfl⟩ := List.mem_map.mp hx
    obtain ⟨_,_,rfl⟩ := List.mem_map.mp hy
    rw [← hkey'] at hkey
    exact hne (Prod.mk.inj hkey).1

/-! ### Columns are only added -/

theorem addColumns_extends (columns more : List Column) : columns <+: addColumns columns more := by
  induction more generalizing columns with
  | nil => exact List.prefix_rfl
  | cons column more ih =>
    rw [addColumns]
    split
    · exact ih columns
    · exact (List.prefix_append _ _).trans (ih _)

theorem columnsFrom_prefix (columns : List Column) (rest : List (Line K)) :
    columns <+: columnsFrom columns rest := by
  induction rest generalizing columns with
  | nil => exact List.prefix_rfl
  | cons line rest ih => exact (addColumns_extends _ _).trans (ih _)

theorem columnsFrom_append (columns : List Column) (front rest : List (Line K)) :
    columnsFrom columns (front++rest) = columnsFrom (columnsFrom columns front) rest := by
  induction front generalizing columns with
  | nil => rfl
  | cons line front ih => exact ih _

/-! ### Which line a reading is of -/

section Visits
variable (letters : Letters) (panelAxis : List (Line K) → PageNumber → K × K)

theorem mem_readingsFrom {lines rest : List (Line K)} {columns : List Column} {r : Reading K F}
    (h : r ∈ (readingsFrom letters panelAxis lines columns rest : List (Reading K F))) :
    ∃ front line back, rest = front++line::back ∧
      r ∈ (lineReadings letters panelAxis lines (columnsFrom columns front) line :
        List (Reading K F)) := by
  induction rest generalizing columns with
  | nil => exact absurd h List.not_mem_nil
  | cons line rest ih =>
    rw [readingsFrom, List.mem_append] at h
    rcases h with h | h
    · exact ⟨[],line,rest,rfl,h⟩
    · obtain ⟨front,other,back,hsplit,hr⟩ := ih h
      exact ⟨line::front,other,back,by rw [hsplit]; rfl,hr⟩

/-- How a reading of a cell came about, after the lines before its label. -/
structure Visit (lines front : List (Line K)) (label cell : Line K) (header : Header K)
    (r : Reading K F) : Prop where
  split : ∃ back, lines = front++label::back
  nutrient : ∃ row labelUnit, classify label.lower = some (row,labelUnit) ∧
    ∃ reading ∈ (readRow letters row labelUnit cell : List (Reading K F)),
      r = { reading with slot := header.slot, lines := [label,cell,header.line] }
  complete : completeHeaders (columnsFrom [] front)
    (headersOf lines (panelAxis lines label.page) (columnsFrom [] front) label) = true
  found : header ∈ headersOf lines (panelAxis lines label.page) (columnsFrom [] front) label
  only : lines.filter (isCandidate lines (panelAxis lines label.page) label
    (headersOf lines (panelAxis lines label.page) (columnsFrom [] front) label) header) = [cell]

/-- A reading of a line is of the line only, or of a cell below a header. -/
theorem reading_cases {lines : List (Line K)} {r : Reading K F}
    (h : r ∈ (readingsFrom letters panelAxis lines [] lines : List (Reading K F))) :
    (∃ line ∈ lines, r.lines = [line]) ∨ ∃ front label cell header,
      Visit letters panelAxis lines front label cell header r := by
  obtain ⟨front,line,back,hsplit,hr⟩ := mem_readingsFrom letters panelAxis h
  have hmem : line ∈ lines := by
    rw [hsplit]
    exact List.mem_append_right _ List.mem_cons_self
  unfold lineReadings at hr
  split at hr
  · rename_i row labelUnit hline
    unfold nutrientReadings at hr
    split at hr
    · obtain ⟨hcomplete,header,hheader,hcell⟩ := readSpatialRow_mem letters panelAxis hr
      obtain ⟨cell,honly,reading,hreading,heq⟩ := readCell_lines letters hcell
      have hclass : classify line.lower = some (row,labelUnit) := by
        unfold nutrientLine at hline
        split at hline
        · cases hline
        · exact hline
      exact Or.inr ⟨front,line,cell,header,⟨back,hsplit⟩,
        ⟨row,labelUnit,hclass,reading,hreading,heq⟩,hcomplete,hheader,honly⟩
    · exact Or.inl ⟨line,hmem,rowReadings_lines row labelUnit line _ _ r hr⟩
  · exact absurd hr List.not_mem_nil

theorem Visit.lines {lines front : List (Line K)} {label cell : Line K} {header : Header K}
    {r : Reading K F} (h : Visit letters panelAxis lines front label cell header r) :
    r.lines = [label,cell,header.line] ∧ r.slot = header.slot := by
  obtain ⟨_,_,_,_,_,heq⟩ := h.nutrient
  rw [heq]
  exact ⟨rfl,rfl⟩

/-- A reading with a label, a cell and a header was read in one visit of the label. -/
theorem spatial_visit {lines : List (Line K)} {r : Reading K F} {label cell headerLine : Line K}
    (h : r ∈ (readingsFrom letters panelAxis lines [] lines : List (Reading K F)))
    (hlines : r.lines = [label,cell,headerLine]) :
    ∃ front header, header.line = headerLine ∧
      Visit letters panelAxis lines front label cell header r := by
  rcases reading_cases letters panelAxis h with ⟨line,_,hline⟩ | ⟨front,l,c,header,hvisit⟩
  · rw [hlines] at hline
    cases hline
  · have hsame := hvisit.lines.1
    rw [hlines] at hsame
    simp only [List.cons.injEq, and_true] at hsame
    obtain ⟨rfl,rfl,rfl⟩ := hsame
    exact ⟨front,header,rfl,hvisit⟩

/-! ### Headers and candidates -/

omit [Amount F] in
theorem headerOf_spec {columns : List Column} {axis : K × K} {labelBounds : K × K × K × K}
    {line : Line K} {header : Header K} (h : headerOf columns axis labelBounds line = some header) :
    header.line = line ∧ header.position = bounds line axis ∧
      ∃ column, columnHeaders line.lower = [column] ∧ columns[header.slot]? = some column := by
  unfold headerOf at h
  split at h
  · rename_i column hcolumn
    obtain ⟨slot,hslot,hheader⟩ := Option.bind_eq_some_iff.mp h
    simp only at hheader
    split at hheader
    · cases hheader
      refine ⟨rfl,rfl,column,hcolumn,?_⟩
      obtain ⟨hlt,hsame,_⟩ := List.findIdx?_eq_some_iff_getElem.mp hslot
      rw [List.getElem?_eq_getElem hlt, beq_iff_eq.mp hsame]
    · cases hheader
  · cases h

theorem headersOf_mem {lines : List (Line K)} {axis : K × K} {columns : List Column} {label : Line K}
    {header : Header K} (h : header ∈ headersOf lines axis columns label) :
    header.line ∈ lines ∧ header.line.page = label.page ∧
      ∃ column, columnHeaders header.line.lower = [column] ∧
        columns[header.slot]? = some column := by
  obtain ⟨line,hline,hheader⟩ := List.mem_filterMap.mp h
  rw [List.mem_filter, beq_iff_eq] at hline
  obtain ⟨rfl,_,hcolumn⟩ := headerOf_spec hheader
  exact ⟨hline.1,hline.2,hcolumn⟩

/-- Two headers for one column are the same header. -/
theorem headers_unique {columns : List Column} {headers : List (Header K)}
    (hcomplete : completeHeaders columns headers = true) {a b : Header K} (ha : a ∈ headers)
    (hb : b ∈ headers) (hslot : a.slot < columns.length) (hsame : a.slot = b.slot) : a = b := by
  rw [completeHeaders, Bool.and_eq_true, List.all_eq_true] at hcomplete
  have hcount := of_decide_eq_true (hcomplete.2 a.slot (List.mem_range.mpr hslot))
  rw [List.countP_eq_length_filter, List.length_eq_one_iff] at hcount
  obtain ⟨only,honly⟩ := hcount
  have hin : ∀ x ∈ headers, x.slot = a.slot → x = only := by
    intro x hx hxslot
    have hmem : x ∈ headers.filter (·.slot == a.slot) :=
      List.mem_filter.mpr ⟨hx,beq_iff_eq.mpr hxslot⟩
    rw [honly] at hmem
    exact List.mem_singleton.mp hmem
  rw [hin a ha rfl, hin b hb hsame.symm]

/-- What makes a line the candidate for a label and a column. -/
structure Candidate (lines : List (Line K)) (axis : K × K) (label : Line K)
    (headers : List (Header K)) (header : Header K) (cell : Line K) : Prop where
  page : cell.page = label.page
  aligned : alignedRow (bounds label axis) (bounds cell axis) = true
  nearest : ∀ other ∈ headers, other.slot ≠ header.slot →
    |center (bounds cell axis)-center header.position| <
      |center (bounds cell axis)-center other.position|
  labels : ∀ other ∈ lines, other.page = label.page →
    other.observation.observationId ≠ label.observation.observationId →
    (classify other.lower).isSome = true →
    alignedRow (bounds other axis) (bounds cell axis) = false

theorem candidate_spec {lines : List (Line K)} {axis : K × K} {label : Line K}
    {headers : List (Header K)} {header : Header K} {cell : Line K}
    (h : isCandidate lines axis label headers header cell = true) :
    Candidate lines axis label headers header cell := by
  unfold isCandidate at h
  simp only [Bool.and_eq_true, Bool.not_eq_true', List.any_eq_false, bne_iff_ne,
    decide_eq_true_eq, beq_iff_eq, not_and, not_le] at h
  obtain ⟨⟨⟨⟨hpage,_⟩,_,haligned⟩,_⟩,hnearest⟩ := h.1
  constructor
  · exact hpage
  · exact haligned
  · exact hnearest
  · intro other hmem hpage hid hclass
    exact Bool.not_eq_true _ ▸ h.2 other hmem ⟨⟨hpage,hid⟩,hclass⟩

/-! ### One label and one column for a cell -/

theorem Visit.candidate {lines front : List (Line K)} {label cell : Line K} {header : Header K}
    {r : Reading K F} (h : Visit letters panelAxis lines front label cell header r) :
    cell ∈ lines ∧ Candidate lines (panelAxis lines label.page) label
      (headersOf lines (panelAxis lines label.page) (columnsFrom [] front) label) header cell := by
  have hmem : cell ∈ lines.filter (isCandidate lines (panelAxis lines label.page) label
      (headersOf lines (panelAxis lines label.page) (columnsFrom [] front) label) header) := by
    rw [h.only]
    exact List.mem_singleton_self _
  rw [List.mem_filter] at hmem
  exact ⟨hmem.1,candidate_spec hmem.2⟩

theorem Visit.label {lines front : List (Line K)} {label cell : Line K} {header : Header K}
    {r : Reading K F} (h : Visit letters panelAxis lines front label cell header r) :
    label ∈ lines ∧ (classify label.lower).isSome = true := by
  obtain ⟨back,hsplit⟩ := h.split
  obtain ⟨row,labelUnit,hclass,_⟩ := h.nutrient
  constructor
  · rw [hsplit]
    exact List.mem_append_right _ List.mem_cons_self
  · rw [hclass]
    rfl

section Keyed
variable {lines front front' : List (Line K)} {label label' cell cell' : Line K}
  {header header' : Header K} {r r' : Reading K F}

/-- A cell is read for one label. -/
theorem visit_label (hkeyed : (lines.map lineKey).Nodup)
    (h : Visit letters panelAxis lines front label cell header r)
    (h' : Visit letters panelAxis lines front' label' cell header' r') : label = label' := by
  have hcandidate := (h.candidate letters panelAxis).2
  have hcandidate' := (h'.candidate letters panelAxis).2
  have hpage : label'.page = label.page := hcandidate'.page.symm.trans hcandidate.page
  obtain ⟨hlabel',hclass'⟩ := h'.label letters panelAxis
  refine Table.eq_of_key hkeyed (h.label letters panelAxis).1 hlabel' ?_
  by_contra hne
  have hid : label'.observation.observationId ≠ label.observation.observationId := by
    intro hid
    exact hne (by rw [lineKey, lineKey, hpage, hid])
  have hapart := hcandidate.labels label' hlabel' hpage hid hclass'
  have haligned := hcandidate'.aligned
  rw [hpage, hapart] at haligned
  cases haligned

/-- A label is visited once. -/
theorem visit_front (hkeyed : (lines.map lineKey).Nodup)
    (h : Visit letters panelAxis lines front label cell header r)
    (h' : Visit letters panelAxis lines front' label cell' header' r') : front = front' := by
  obtain ⟨back,hsplit⟩ := h.split
  obtain ⟨back',hsplit'⟩ := h'.split
  have hnodup : lines.Nodup := hkeyed.of_map
  have hfresh : ∀ front back : List (Line K), lines = front++label::back → label ∉ front := by
    intro front back hsplit hmem
    rw [hsplit, List.nodup_append] at hnodup
    exact hnodup.2.2 label hmem label List.mem_cons_self rfl
  exact (ScopedNames.separator_inj (hfresh front back hsplit) (hfresh front' back' hsplit')
    (hsplit.symm.trans hsplit')).1

/-- A cell is read for one column. -/
theorem visit_slot (h : Visit letters panelAxis lines front label cell header r)
    (h' : Visit letters panelAxis lines front label cell header' r') :
    header.slot = header'.slot := by
  by_contra hne
  have hlt := (h.candidate letters panelAxis).2.nearest header' h'.found (Ne.symm hne)
  have hlt' := (h'.candidate letters panelAxis).2.nearest header h.found hne
  exact lt_asymm hlt hlt'

/-- A label has one cell for a column. -/
theorem visit_cell (h : Visit letters panelAxis lines front label cell header r)
    (h' : Visit letters panelAxis lines front label cell' header' r')
    (hslot : header.slot = header'.slot) : cell = cell' := by
  obtain ⟨_,_,column,_,hcolumn⟩ := headersOf_mem h.found
  obtain ⟨hlt,_⟩ := List.getElem?_eq_some_iff.mp hcolumn
  have hheader := headers_unique h.complete h.found h'.found hlt hslot
  have honly := h.only
  rw [hheader, h'.only, List.cons.injEq] at honly
  exact honly.1.symm

end Keyed

/-! ### Attribution -/

/-- The value of the cell is read for the label, and the header names the column. -/
structure Attributed (lines : List (Line K)) (columns : List Column) (r : Reading K F)
    (label cell header : Line K) : Prop where
  lines : label ∈ lines ∧ cell ∈ lines ∧ header ∈ lines
  page : cell.page = label.page ∧ header.page = label.page
  column : ∃ column, columnHeaders header.lower = [column] ∧ columns[r.slot]? = some column
  value : ∃ row labelUnit, classify label.lower = some (row,labelUnit) ∧
    ∃ reading ∈ (readRow letters row labelUnit cell : List (Reading K F)),
      r.nutrient = reading.nutrient ∧ r.amount = reading.amount

/-- The readings of the lines are attributed, and the fields show them. -/
structure Attribution (lines : List (Line K)) (s : State K F) (output : Output K F) : Prop where
  inline : ∀ r ∈ s.readings, (∃ line ∈ lines, r.lines = [line]) ∨
    ∃ label cell header, r.lines = [label,cell,header]
  spatial : ∀ r ∈ s.readings, ∀ label cell header, r.lines = [label,cell,header] →
    Attributed letters lines s.columns r label cell header
  oneLabel : ∀ r ∈ s.readings, ∀ r' ∈ s.readings, ∀ label label' cell header header',
    r.lines = [label,cell,header] → r'.lines = [label',cell,header'] →
    label = label' ∧ r.slot = r'.slot
  oneCell : ∀ r ∈ s.readings, ∀ r' ∈ s.readings, ∀ label cell cell' header header',
    r.lines = [label,cell,header] → r'.lines = [label,cell',header'] → r.slot = r'.slot →
    cell = cell'
  keptLines : ∀ front rest, lines = front++rest →
    Kept (front.foldl (readLine letters panelAxis lines) State.initial).output output
  keptReadings : ∀ front rest, s.readings = front++rest → s.panelRows ≠ 0 → s.columns ≠ [] →
    Kept (front.foldl (putReading s.columns) (beforeReadings lines s,[])).1 output
  evidence : ∀ name field, output.get name = some field → field.evidence ≠ []
  fields : ∀ c n field, output.get (fieldName c n) = some field →
    ∃ r ∈ s.readings, r.nutrient = n ∧ s.columns[r.slot]? = some c ∧
      field.value = json (round r.amount) ∧ field.evidence = r.lines.map Line.evidence

theorem visit_attributed {lines front : List (Line K)} {label cell : Line K} {header : Header K}
    {r : Reading K F} (h : Visit letters panelAxis lines front label cell header r) :
    Attributed letters lines (columnsFrom [] lines) r label cell header.line := by
  obtain ⟨hheader,hpage,column,hcolumns,hslot⟩ := headersOf_mem h.found
  have hcandidate := h.candidate letters panelAxis
  obtain ⟨back,hsplit⟩ := h.split
  obtain ⟨row,labelUnit,hclass,reading,hreading,heq⟩ := h.nutrient
  refine ⟨⟨(h.label letters panelAxis).1,hcandidate.1,hheader⟩,⟨hcandidate.2.page,hpage⟩,
    ⟨column,hcolumns,?_⟩,⟨row,labelUnit,hclass,reading,hreading,by rw [heq],by rw [heq]⟩⟩
  obtain ⟨hlt,_⟩ := List.getElem?_eq_some_iff.mp hslot
  have hprefix : columnsFrom [] front <+: columnsFrom [] lines := by
    conv_rhs => rw [hsplit, columnsFrom_append]
    exact columnsFrom_prefix _ _
  obtain ⟨more,hmore⟩ := hprefix
  rw [(h.lines letters panelAxis).2, ← hmore, List.getElem?_append_left hlt]
  exact hslot

/-- Each reading of a cell is attributed to the column of its header, and the fields show the
readings. -/
theorem spatial_attribution (lowercase : String → List Char) (pages : LabelPages K) :
    Attribution letters panelAxis (linesOf lowercase pages.pages)
      (readLines letters panelAxis (linesOf lowercase pages.pages) : State K F)
      (extract letters panelAxis lowercase pages.pages) := by
  have hkeyed := lines_keyed lowercase pages
  rw [extract]
  generalize linesOf lowercase pages.pages = lines at hkeyed
  have hreadings := readLines_readings (F := F) letters panelAxis lines
  have hcolumns := readLines_columns (F := F) letters panelAxis lines
  constructor
  · intro r hr
    rw [hreadings] at hr
    rcases reading_cases letters panelAxis hr with hline | ⟨front,label,cell,header,hvisit⟩
    · exact Or.inl hline
    · exact Or.inr ⟨label,cell,header.line,(hvisit.lines letters panelAxis).1⟩
  · intro r hr label cell header hlines
    rw [hreadings] at hr
    obtain ⟨front,_,rfl,hvisit⟩ := spatial_visit letters panelAxis hr hlines
    rw [hcolumns]
    exact visit_attributed letters panelAxis hvisit
  · intro r hr r' hr' label label' cell header header' hlines hlines'
    rw [hreadings] at hr hr'
    obtain ⟨front,_,rfl,hvisit⟩ := spatial_visit letters panelAxis hr hlines
    obtain ⟨front',_,rfl,hvisit'⟩ := spatial_visit letters panelAxis hr' hlines'
    have hlabel := visit_label letters panelAxis hkeyed hvisit hvisit'
    subst hlabel
    have hfront := visit_front letters panelAxis hkeyed hvisit hvisit'
    subst hfront
    refine ⟨rfl,?_⟩
    rw [(hvisit.lines letters panelAxis).2, (hvisit'.lines letters panelAxis).2]
    exact visit_slot letters panelAxis hvisit hvisit'
  · intro r hr r' hr' label cell cell' header header' hlines hlines' hslot
    rw [hreadings] at hr hr'
    obtain ⟨front,_,rfl,hvisit⟩ := spatial_visit letters panelAxis hr hlines
    obtain ⟨front',_,rfl,hvisit'⟩ := spatial_visit letters panelAxis hr' hlines'
    have hfront := visit_front letters panelAxis hkeyed hvisit hvisit'
    subst hfront
    rw [(hvisit.lines letters panelAxis).2, (hvisit'.lines letters panelAxis).2] at hslot
    exact visit_cell letters panelAxis hvisit hvisit' hslot
  · intro front rest hsplit
    have hrest := (readLines_run letters panelAxis lines rest
      (front.foldl (readLine letters panelAxis lines) (State.initial : State K F))).kept
    rw [← List.foldl_append, ← hsplit] at hrest
    exact hrest.trans (finish_kept lines _)
  · intro front rest hsplit hrows hcolumns name field h
    rw [extractLines, finish_get, if_neg (not_or.mpr ⟨hrows,hcolumns⟩), hsplit, List.foldl_append]
    exact putReadings_kept _ rest _ name field h
  · intro name field _ hnil
    have hvalid := field.valid
    rw [hnil] at hvalid
    cases hvalid
  · intro c n field h
    have hfield := extractLines_field (F := F) letters panelAxis lines c n
    rw [hreadings, hcolumns]
    cases hfirst : firstFor (columnsFrom [] lines)
        (readingsFrom letters panelAxis lines [] lines : List (Reading K F)) c n with
    | none =>
      rw [hfirst, h] at hfield
      cases hfield
    | some r =>
      rw [hfirst] at hfield
      obtain ⟨found,hget,hshows⟩ := hfield
      rw [h, Option.some.injEq] at hget
      have hhit := List.find?_some hfirst
      rw [hits, Bool.and_eq_true, beq_iff_eq, beq_iff_eq] at hhit
      exact ⟨r,List.mem_of_find?_eq_some hfirst,hhit.2,hhit.1,hget ▸ hshows.value,
        hget ▸ hshows.evidence⟩

end Visits

end Cells

end DocumentIntelligence.NutritionCells
