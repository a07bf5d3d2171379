import DocumentIntelligence.CheckedFolds
import DocumentIntelligence.DocumentPages
import DocumentIntelligence.EditDistance
import DocumentIntelligence.Table

/-!
# Error rates

A candidate text is compared with its reference by characters and by words. The edits are
counted in two rows of cells, of which the lower is computed from the upper. The sums over
many evaluations are checked.
-/

set_option autoImplicit false

namespace DocumentIntelligence.ErrorRates
open CheckedFolds EditDistance
open DocumentPages (isWhitespace)

def hardMaximumUnits : ℕ := 1000000
def hardMaximumComparisonCells : ℕ := 100000000
def usizeMax : ℕ := 2^64-1
def normalizationPolicyVersion : String := "unicode-nfc-whitespace-v1"

inductive Error where
  | invalidLimits
  | inputLimitExceeded
  | comparisonLimitExceeded
  | aggregateOverflow
  deriving DecidableEq, Repr

structure TextEvaluationLimits where
  maximumReferenceUnits : ℕ
  maximumCandidateUnits : ℕ
  maximumComparisonCells : ℕ
  reference_valid : 1 ≤ maximumReferenceUnits ∧ maximumReferenceUnits ≤ hardMaximumUnits
  candidate_valid : 1 ≤ maximumCandidateUnits ∧ maximumCandidateUnits ≤ hardMaximumUnits
  comparison_valid : 1 ≤ maximumComparisonCells ∧
    maximumComparisonCells ≤ hardMaximumComparisonCells

def TextEvaluationLimits.new (maximumReferenceUnits maximumCandidateUnits
    maximumComparisonCells : ℕ) : Except Error TextEvaluationLimits :=
  if h : (1 ≤ maximumReferenceUnits ∧ maximumReferenceUnits ≤ hardMaximumUnits) ∧
      (1 ≤ maximumCandidateUnits ∧ maximumCandidateUnits ≤ hardMaximumUnits) ∧
      1 ≤ maximumComparisonCells ∧ maximumComparisonCells ≤ hardMaximumComparisonCells then
    .ok ⟨maximumReferenceUnits,maximumCandidateUnits,maximumComparisonCells,h.1,h.2.1,h.2.2⟩
  else .error .invalidLimits

/-! ### Two rows -/

section Levenshtein
variable {α : Type} [DecidableEq α]

/-- The cell of a column in the current row. -/
def writeCell (row : α) (previous current : List ℕ) (column : α×ℕ) : List ℕ :=
  current.set (column.2+1)
    (min (min (current.getD column.2 0+1) (previous.getD (column.2+1) 0+1))
      (previous.getD column.2 0+if row ≠ column.1 then 1 else 0))

/-- The current row, over what it held before. -/
def fillRow (columns : List α) (row : α×ℕ) (previous current : List ℕ) : List ℕ :=
  columns.zipIdx.foldl (writeCell row.1 previous) (current.set 0 (row.2+1))

/-- The rows change places after each row. -/
def nextRow (columns : List α) (rows : List ℕ×List ℕ) (row : α×ℕ) : List ℕ×List ℕ :=
  (fillRow columns row rows.1 rows.2,rows.1)

def levenshtein (left right : List α) : ℕ :=
  let (rows,columns) := if right.length ≤ left.length then (left,right) else (right,left)
  let previous := List.range (columns.length+1)
  let current := List.replicate (columns.length+1) 0
  (rows.zipIdx.foldl (nextRow columns) (previous,current)).1.getD columns.length 0

end Levenshtein

/-! ### Rates -/

structure ErrorRate where
  edits : ℕ
  referenceUnits : ℕ
  rate : Option Float

def ErrorRate.new (edits referenceUnits candidateUnits : ℕ) : ErrorRate where
  edits := edits
  referenceUnits := referenceUnits
  rate := if referenceUnits = 0 then if candidateUnits = 0 then some 0 else none
    else some (Float.ofNat edits/Float.ofNat referenceUnits)

structure TextEvaluation where
  characters : ErrorRate
  words : ErrorRate

def boundedCharacterCount (value : List Char) (maximum : ℕ) : ℕ :=
  (value.take (min (maximum+1) usizeMax)).length

def ensureUnitLimits (referenceUnits candidateUnits : ℕ) (limits : TextEvaluationLimits) :
    Except Error Unit :=
  if limits.maximumReferenceUnits < referenceUnits ∨
      limits.maximumCandidateUnits < candidateUnits then .error .inputLimitExceeded
  else .ok ()

def comparisonCells (referenceUnits candidateUnits : ℕ) : Except Error ℕ :=
  (capped usizeMax (referenceUnits*candidateUnits)).elim (.error .comparisonLimitExceeded) .ok

def splitWhitespace (text : List Char) : List (List Char) :=
  (text.splitOnP isWhitespace).filter (!·.isEmpty)

def compare {α : Type} [DecidableEq α] (reference candidate : List α) : ErrorRate :=
  .new (levenshtein reference candidate) reference.length candidate.length

/-- The normalization of the texts is that of a library. -/
def evaluateText (nfc : List Char → List Char) (reference candidate : List Char)
    (limits : TextEvaluationLimits) : Except Error TextEvaluation := do
  ensureUnitLimits (boundedCharacterCount reference limits.maximumReferenceUnits)
    (boundedCharacterCount candidate limits.maximumCandidateUnits) limits
  let reference := nfc reference
  let candidate := nfc candidate
  ensureUnitLimits reference.length candidate.length limits
  let referenceWords := splitWhitespace reference
  let candidateWords := splitWhitespace candidate
  let characterCells ← comparisonCells reference.length candidate.length
  let wordCells ← comparisonCells referenceWords.length candidateWords.length
  if (capped usizeMax (characterCells+wordCells)).all (limits.maximumComparisonCells < ·) then
    .error .comparisonLimitExceeded
  else .ok ⟨compare reference candidate,compare referenceWords candidateWords⟩

/-! ### Sums -/

def addRate (totals : ℕ×ℕ) (rate : ErrorRate) : Except Error (ℕ×ℕ) := do
  let edits ← (capped usizeMax (totals.1+rate.edits)).elim (.error .aggregateOverflow) .ok
  let referenceUnits ← (capped usizeMax (totals.2+rate.referenceUnits)).elim
    (.error .aggregateOverflow) .ok
  return (edits,referenceUnits)

def aggregateErrorRates (rates : List ErrorRate) : Except Error ErrorRate := do
  let (edits,referenceUnits) ← rates.foldlM addRate (0,0)
  return .new edits referenceUnits edits

def aggregateTextEvaluations (evaluations : List TextEvaluation) : Except Error TextEvaluation := do
  let characters ← aggregateErrorRates (evaluations.map (·.characters))
  let words ← aggregateErrorRates (evaluations.map (·.words))
  return ⟨characters,words⟩

/-! ### The rows hold distances -/

section Levenshtein
variable {α : Type} [DecidableEq α] {columns finished : List α} {previous current : List ℕ}

/-- The row below the finished ones: the distances to the beginnings of the columns, so far
as it is filled. -/
def Filled (columns finished : List α) (count : ℕ) (row : List ℕ) : Prop :=
  row.length = columns.length+1 ∧
    ∀ j ≤ count, row.getD j 0 = editDistance finished (columns.take j)

theorem getD_set (row : List ℕ) (i j n : ℕ) :
    (row.set i n).getD j 0 = if i = j ∧ j < row.length then n else row.getD j 0 := by
  rw [List.getD_eq_getElem?_getD, List.getElem?_set, List.getD_eq_getElem?_getD]
  by_cases hij : i = j
  · rw [if_pos hij]
    by_cases hj : j < row.length
    · rw [if_pos (hij ▸ hj), if_pos ⟨hij,hj⟩, Option.getD_some]
    · rw [if_neg (hij ▸ hj), if_neg fun h => hj h.2, List.getElem?_eq_none (Nat.not_lt.mp hj)]
  · rw [if_neg hij, if_neg fun h => hij h.1]

/-- A written cell holds the distance of its column. -/
theorem writeCell_filled {row column : α} {before rest : List α}
    (hcolumns : columns = before++column::rest)
    (hprevious : Filled columns finished columns.length previous)
    (hcurrent : Filled columns (finished++[row]) before.length current) :
    Filled columns (finished++[row]) (before.length+1)
      (writeCell row previous current (column,before.length)) := by
  have hlength : before.length < columns.length := by
    rw [hcolumns, List.length_append, List.length_cons]
    omega
  have htake : columns.take (before.length+1) = columns.take before.length++[column] := by
    rw [hcolumns, List.take_append, List.take_append]
    simp
  constructor
  · rw [writeCell, List.length_set]
    exact hcurrent.1
  · intro j hj
    rw [writeCell, getD_set]
    by_cases hcell : before.length+1 = j
    · have hin : j < current.length := by
        rw [hcurrent.1]
        omega
      rw [if_pos ⟨hcell,hin⟩, ← hcell, htake, editDistance_concat, replacement, ← htake,
        hcurrent.2 before.length le_rfl, hprevious.2 (before.length+1) hlength,
        hprevious.2 before.length hlength.le]
      simp only [ne_eq, ite_not]
    · rw [if_neg fun h => hcell h.1]
      exact hcurrent.2 j (by omega)

/-- The inner loop, over the columns which are left. -/
theorem foldl_writeCell_filled {row : α} {before rest : List α} (hcolumns : columns = before++rest)
    (hprevious : Filled columns finished columns.length previous)
    (hcurrent : Filled columns (finished++[row]) before.length current) :
    Filled columns (finished++[row]) columns.length
      ((rest.zipIdx before.length).foldl (writeCell row previous) current) := by
  induction rest generalizing before current with
  | nil =>
    rw [List.append_nil] at hcolumns
    rw [hcolumns] at hcurrent ⊢
    exact hcurrent
  | cons column rest ih =>
    have hcell := writeCell_filled hcolumns hprevious hcurrent
    have hnext : columns = (before++[column])++rest := by
      rw [hcolumns, List.append_assoc]
      rfl
    have hlength : (before++[column]).length = before.length+1 := List.length_append
    have hrest := ih hnext (hlength ▸ hcell)
    rw [hlength] at hrest
    exact hrest

theorem fillRow_filled (row : α) (hprevious : Filled columns finished columns.length previous)
    (hlength : current.length = columns.length+1) :
    Filled columns (finished++[row]) columns.length
      (fillRow columns (row,finished.length) previous current) := by
  have hfirst : Filled columns (finished++[row]) 0 (current.set 0 (finished.length+1)) := by
    constructor
    · rw [List.length_set, hlength]
    · intro j hj
      have hin : 0 = j ∧ j < current.length := by omega
      rw [getD_set, if_pos hin, ← hin.1, List.take_zero, editDistance_nil, List.length_append]
      rfl
  exact foldl_writeCell_filled (List.nil_append columns).symm hprevious hfirst

/-- The outer loop, over the rows which are left. -/
theorem foldl_nextRow_filled (rest : List α)
    (hprevious : Filled columns finished columns.length previous)
    (hlength : current.length = columns.length+1) :
    Filled columns (finished++rest) columns.length
      ((rest.zipIdx finished.length).foldl (nextRow columns) (previous,current)).1 := by
  induction rest generalizing finished previous current with
  | nil =>
    rw [List.append_nil]
    exact hprevious
  | cons row rest ih =>
    have hrow := fillRow_filled row hprevious hlength
    have hrest := ih hrow hprevious.1
    rw [List.append_assoc, List.length_append] at hrest
    exact hrest

theorem range_filled (columns : List α) :
    Filled columns [] columns.length (List.range (columns.length+1)) := by
  constructor
  · exact List.length_range
  · intro j hj
    rw [List.getD_eq_getElem?_getD, List.getElem?_range (by omega), Option.getD_some,
      editDistance, List.length_take, Nat.min_eq_left hj]

/-- The loops over rows and columns compute the distance of their lists. -/
theorem rows_distance (rows columns : List α) :
    (rows.zipIdx.foldl (nextRow columns) (List.range (columns.length+1),
      List.replicate (columns.length+1) 0)).1.getD columns.length 0 =
        editDistance rows columns := by
  have hrows := foldl_nextRow_filled rows (range_filled columns)
    (List.length_replicate (n := columns.length+1) (a := 0))
  have hlast := hrows.2 columns.length le_rfl
  rw [List.take_length] at hlast
  exact hlast

theorem levenshtein_eq (left right : List α) :
    levenshtein left right = editDistance left right := by
  rw [levenshtein]
  by_cases h : right.length ≤ left.length
  · rw [if_pos h]
    exact rows_distance left right
  · rw [if_neg h, editDistance_comm]
    exact rows_distance right left

end Levenshtein

/-! ### What the rates are made of -/

theorem rate_none {edits referenceUnits candidateUnits : ℕ} :
    (ErrorRate.new edits referenceUnits candidateUnits).rate = none ↔
      referenceUnits = 0 ∧ candidateUnits ≠ 0 := by
  rw [ErrorRate.new]
  by_cases hreference : referenceUnits = 0
  · by_cases hcandidate : candidateUnits = 0
    · simp [hreference, hcandidate]
    · simp [hreference, hcandidate]
  · simp [hreference]

/-- The texts are compared by their normalized characters and the words of these. -/
theorem evaluateText_ok {nfc : List Char → List Char} {reference candidate : List Char}
    {limits : TextEvaluationLimits} {e : TextEvaluation}
    (h : evaluateText nfc reference candidate limits = .ok e) :
    e = ⟨compare (nfc reference) (nfc candidate),
      compare (splitWhitespace (nfc reference)) (splitWhitespace (nfc candidate))⟩ := by
  obtain ⟨_,_,h⟩ := Table.bind_ok.mp h
  obtain ⟨_,_,h⟩ := Table.bind_ok.mp h
  obtain ⟨characterCells,_,h⟩ := Table.bind_ok.mp h
  obtain ⟨wordCells,_,h⟩ := Table.bind_ok.mp h
  split at h
  · cases h
  · cases h
    rfl

/-! ### Sums in any order -/

/-- The loop over the rates from sums which fit. -/
theorem foldlM_addRate (rates : List ErrorRate) {totals : ℕ×ℕ}
    (h : totals.1 ≤ usizeMax ∧ totals.2 ≤ usizeMax) :
    rates.foldlM addRate totals =
      if totals.1+(rates.map (·.edits)).sum ≤ usizeMax ∧
          totals.2+(rates.map (·.referenceUnits)).sum ≤ usizeMax then
        .ok (totals.1+(rates.map (·.edits)).sum,totals.2+(rates.map (·.referenceUnits)).sum)
      else .error .aggregateOverflow := by
  induction rates generalizing totals with
  | nil => exact (if_pos h).symm
  | cons rate rates ih =>
    rw [List.foldlM_cons, List.map_cons, List.map_cons, List.sum_cons, List.sum_cons,
      ← Nat.add_assoc, ← Nat.add_assoc, addRate]
    by_cases hedits : totals.1+rate.edits ≤ usizeMax
    · by_cases hunits : totals.2+rate.referenceUnits ≤ usizeMax
      · rw [capped, if_pos hedits, capped, if_pos hunits]
        exact ih ⟨hedits,hunits⟩
      · rw [capped, if_pos hedits, capped, if_neg hunits, if_neg (by omega)]
        rfl
    · rw [capped, if_neg hedits, if_neg (by omega)]
      rfl

theorem aggregateErrorRates_perm {rates others : List ErrorRate} (h : rates.Perm others) :
    aggregateErrorRates rates = aggregateErrorRates others := by
  have hzero : (0,0).1 ≤ usizeMax ∧ (0,0).2 ≤ usizeMax := ⟨Nat.zero_le _,Nat.zero_le _⟩
  rw [aggregateErrorRates, aggregateErrorRates, foldlM_addRate rates hzero,
    foldlM_addRate others hzero, (h.map (·.edits)).sum_eq, (h.map (·.referenceUnits)).sum_eq]

theorem aggregateTextEvaluations_perm {evaluations others : List TextEvaluation}
    (h : evaluations.Perm others) :
    aggregateTextEvaluations evaluations = aggregateTextEvaluations others := by
  rw [aggregateTextEvaluations, aggregateTextEvaluations,
    aggregateErrorRates_perm (h.map (·.characters)), aggregateErrorRates_perm (h.map (·.words))]

/-- The two rows compute the edit distance, a metric; the rates are those of the distances,
and depend neither on which text comes first nor on the order in which they are summed. -/
theorem levenshtein_exact :
    (∀ {α : Type} [DecidableEq α] (a b c : List α),
      levenshtein a b = editDistance a b ∧ levenshtein a b = levenshtein b a ∧
        (levenshtein a b = 0 ↔ a = b) ∧ levenshtein a c ≤ levenshtein a b+levenshtein b c) ∧
    (∀ (nfc : List Char → List Char) (reference candidate : List Char)
        (limits : TextEvaluationLimits) (e : TextEvaluation),
      evaluateText nfc reference candidate limits = .ok e →
        e.characters = .new (editDistance (nfc reference) (nfc candidate))
          (nfc reference).length (nfc candidate).length ∧
        e.words = .new
          (editDistance (splitWhitespace (nfc reference)) (splitWhitespace (nfc candidate)))
          (splitWhitespace (nfc reference)).length (splitWhitespace (nfc candidate)).length ∧
        (e.characters.rate = none ↔ nfc reference = [] ∧ nfc candidate ≠ []) ∧
        (e.words.rate = none ↔
          splitWhitespace (nfc reference) = [] ∧ splitWhitespace (nfc candidate) ≠ [])) ∧
    (∀ (nfc : List Char → List Char) (reference candidate : List Char)
        (limits limits' : TextEvaluationLimits) (e e' : TextEvaluation),
      evaluateText nfc reference candidate limits = .ok e →
      evaluateText nfc candidate reference limits' = .ok e' →
        e.characters.edits = e'.characters.edits ∧ e.words.edits = e'.words.edits) ∧
    (∀ evaluations others : List TextEvaluation, evaluations.Perm others →
      aggregateTextEvaluations evaluations = aggregateTextEvaluations others) := by
  refine ⟨?_,?_,?_,fun _ _ => aggregateTextEvaluations_perm⟩
  · intro α _ a b c
    rw [levenshtein_eq, levenshtein_eq, levenshtein_eq, levenshtein_eq]
    exact ⟨rfl,editDistance_comm a b,editDistance_eq_zero,editDistance_triangle a b c⟩
  · intro nfc reference candidate limits e h
    rw [evaluateText_ok h, compare, compare, levenshtein_eq, levenshtein_eq]
    simp only [rate_none, List.length_eq_zero_iff, ne_eq, and_self]
  · intro nfc reference candidate limits limits' e e' h h'
    rw [evaluateText_ok h, evaluateText_ok h']
    simp only [compare, ErrorRate.new, levenshtein_eq]
    exact ⟨editDistance_comm _ _,editDistance_comm _ _⟩

def smallLimits : TextEvaluationLimits :=
  ⟨100,100,1000,by decide,by decide,by decide⟩

/-- One of two words and one of five characters is read wrongly. -/
def misread : TextEvaluation := ⟨.new 1 5 5,.new 1 2 2⟩

/-- As `misread`, with a word which is not there. -/
def overread : TextEvaluation := ⟨.new 3 5 8,.new 2 2 3⟩

theorem misread_rates :
    (misread.characters = .new (editDistance "no 12".toList "no 17".toList) 5 5 ∧
      misread.words = .new
        (editDistance (splitWhitespace "no 12".toList) (splitWhitespace "no 17".toList)) 2 2 ∧
      (misread.characters.rate = none ↔ "no 12".toList = [] ∧ "no 17".toList ≠ []) ∧
      (misread.words.rate = none ↔
        splitWhitespace "no 12".toList = [] ∧ splitWhitespace "no 17".toList ≠ [])) ∧
    aggregateTextEvaluations [misread,overread] = aggregateTextEvaluations [overread,misread] :=
  ⟨levenshtein_exact.2.1 id "no 12".toList "no 17".toList smallLimits misread (by rfl),
    levenshtein_exact.2.2.2 [misread,overread] [overread,misread] (List.Perm.swap _ _ _)⟩

end DocumentIntelligence.ErrorRates
