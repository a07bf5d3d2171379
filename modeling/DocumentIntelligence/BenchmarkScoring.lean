import DocumentIntelligence.AccessGrants
import DocumentIntelligence.ErrorRates
import DocumentIntelligence.Json
import DocumentIntelligence.NearestRank
import DocumentIntelligence.Table

/-!
# Benchmark scoring

The samples of a run are matched with the cases of a manifest by their ids and digests. Each
case is scored on its text and on its expected fields, and the latencies are summarised by
two percentiles.
-/

set_option autoImplicit false

namespace DocumentIntelligence.BenchmarkScoring
open ErrorRates (TextEvaluation TextEvaluationLimits evaluateText normalizationPolicyVersion)
open NearestRank

/-- A JSON value; its numbers are only ever taken as floating point numbers. -/
abbrev Value := AccessGrants.Value Float

/-- `BTreeMap<String, Value>` -/
structure FieldMap where
  entries : List (String×Value)
  distinct : (entries.map (·.1)).Nodup

def FieldMap.get (fields : FieldMap) (key : String) : Option Value :=
  (fields.entries.find? (·.1 == key)).map (·.2)

structure Case where
  id : String
  sha256 : String
  referenceText : Option String
  expectedFields : FieldMap

structure Manifest where
  cases : List Case

structure Sample where
  id : String
  sha256 : String
  status : String
  elapsedMs : ℕ
  text : String
  fields : FieldMap

structure CaseScore where
  id : String
  status : String
  characterErrorRate : Option Float
  wordErrorRate : Option Float
  expectedFields : ℕ
  correctFields : ℕ
  missingFields : ℕ
  wrongFields : ℕ
  elapsedMs : ℕ

structure BenchmarkReport where
  normalizationPolicy : String
  cases : List CaseScore
  p50Ms : ℕ
  p95Ms : ℕ

/-- The two errors, and the panic of an index which is out of range. -/
inductive BenchmarkError where
  | invalid
  | evaluation (e : ErrorRates.Error)
  | panicked
  deriving DecidableEq, Repr

/-! ### Fields -/

mutual
def equivalent : Value → Value → Bool
  | .number a, .number b => (a-b).abs ≤ 0.01
  | .object a, .object b => a.length == b.length && equivalentMembers a b
  | .array a, .array b => a.length == b.length && equivalentItems a b
  | .null, .null => true
  | .bool a, .bool b => a == b
  | .string a, .string b => a == b
  | _, _ => false

def equivalentMembers : List (String×Value) → List (String×Value) → Bool
  | [], _ => true
  | (key,value)::members, b =>
    (match (b.find? (·.1 == key)).map (·.2) with
      | none => false
      | some other => equivalent value other) && equivalentMembers members b

def equivalentItems : List Value → List Value → Bool
  | a::as, b::bs => equivalent a b && equivalentItems as bs
  | _, _ => true
end

/-- `field.get("value")` -/
def fieldValue : Value → Option Value
  | .object members => (members.find? (·.1 == "value")).map (·.2)
  | _ => none

inductive Verdict where
  | correct
  | missing
  | wrong
  deriving DecidableEq, Repr

/-- What becomes of an expected field. -/
def verdict (sample : Sample) (expected : String×Value) : Verdict :=
  match (sample.fields.get expected.1).bind fieldValue with
  | none => .missing
  | some value => if equivalent expected.2 value then .correct else .wrong

structure Counts where
  correct : ℕ
  missing : ℕ
  wrong : ℕ
  deriving DecidableEq, Repr

def Counts.add (counts : Counts) : Verdict → Counts
  | .correct => { counts with correct := counts.correct+1 }
  | .missing => { counts with missing := counts.missing+1 }
  | .wrong => { counts with wrong := counts.wrong+1 }

def countFields (case : Case) (sample : Sample) : Counts :=
  case.expectedFields.entries.foldl (fun counts expected => counts.add (verdict sample expected))
    ⟨0,0,0⟩

/-! ### Cases -/

def maximumTextBytes : ℕ := 16*1024*1024

def statuses : List String := ["completed","partial","review_required","failed","cancelled"]

/-- One round of the loop over the samples, which are kept by their ids. -/
def insertSample (byId : List Sample) (sample : Sample) : Except BenchmarkError (List Sample) :=
  if !statuses.contains sample.status || byId.any (·.id == sample.id) then .error .invalid
  else .ok (byId++[sample])

/-- A case without a reference text is not evaluated. -/
def evaluate (nfc : List Char → List Char) (case : Case) (sample : Sample) :
    Except BenchmarkError (Option TextEvaluation) :=
  match case.referenceText with
  | none => .ok none
  | some text =>
    let evaluation := do
      let limits ← TextEvaluationLimits.new 100000 100000 10000000
      evaluateText nfc text.toList sample.text.toList limits
    match evaluation with
    | .error e => .error (.evaluation e)
    | .ok evaluation => .ok (some evaluation)

def caseScore (case : Case) (sample : Sample) (evaluation : Option TextEvaluation) : CaseScore where
  id := case.id
  status := sample.status
  characterErrorRate := evaluation.bind (·.characters.rate)
  wordErrorRate := evaluation.bind (·.words.rate)
  expectedFields := case.expectedFields.entries.length
  correctFields := (countFields case sample).correct
  missingFields := (countFields case sample).missing
  wrongFields := (countFields case sample).wrong
  elapsedMs := sample.elapsedMs

/-- One round of the loop over the cases: the ids seen and the scores so far. -/
def scoreCase (nfc : List Char → List Char) (byId : List Sample)
    (state : List String×List CaseScore) (case : Case) :
    Except BenchmarkError (List String×List CaseScore) :=
  if case.id.utf8ByteSize = 0 ∨ 128 < case.id.utf8ByteSize ∨ state.1.contains case.id = true then
    .error .invalid
  else match byId.find? (·.id == case.id) with
  | none => .error .invalid
  | some sample =>
    if sample.sha256 ≠ case.sha256 then .error .invalid
    else do
      let evaluation ← evaluate nfc case sample
      return (state.1++[case.id],state.2++[caseScore case sample evaluation])

/-- `times[(times.len() * percent).div_ceil(100) - 1]` -/
def percentile (times : List ℕ) (percent : ℕ) : Except BenchmarkError ℕ :=
  match times[(times.length*percent+99)/100-1]? with
  | none => .error .panicked
  | some time => .ok time

def report (scores : List CaseScore) : Except BenchmarkError BenchmarkReport := do
  let times := (scores.map (·.elapsedMs)).mergeSort
  let p50Ms ← percentile times 50
  let p95Ms ← percentile times 95
  return ⟨normalizationPolicyVersion,scores,p50Ms,p95Ms⟩

/-- What is done with the manifest and the samples which were read. -/
def score (nfc : List Char → List Char) (manifest : Manifest) (samples : List Sample) :
    Except BenchmarkError BenchmarkReport :=
  if manifest.cases.isEmpty ∨ 1000 < manifest.cases.length ∨
      samples.length ≠ manifest.cases.length then .error .invalid
  else do
    let byId ← samples.foldlM insertSample []
    let state ← manifest.cases.foldlM (scoreCase nfc byId) ([],[])
    report state.2

/-- The deserializers of the manifest and of the samples. -/
structure Reader where
  manifest : String → Option Manifest
  samples : String → Option (List Sample)

def scoreBenchmark (reader : Reader) (nfc : List Char → List Char) (manifest samples : String) :
    Except BenchmarkError BenchmarkReport :=
  if maximumTextBytes < manifest.utf8ByteSize ∨ maximumTextBytes < samples.utf8ByteSize then
    .error .invalid
  else match reader.manifest manifest with
  | none => .error .invalid
  | some manifest => match reader.samples samples with
    | none => .error .invalid
    | some samples => score nfc manifest samples

/-! ### Fields are counted once -/

theorem foldl_counts (sample : Sample) (expected : List (String×Value))
    (counts : Counts) :
    expected.foldl (fun counts field => counts.add (verdict sample field)) counts =
      ⟨counts.correct+expected.countP (verdict sample · == .correct),
        counts.missing+expected.countP (verdict sample · == .missing),
        counts.wrong+expected.countP (verdict sample · == .wrong)⟩ := by
  induction expected generalizing counts with
  | nil => rfl
  | cons field expected ih =>
    rw [List.foldl_cons, ih, List.countP_cons, List.countP_cons, List.countP_cons]
    cases verdict sample field with
    | correct => simp [Counts.add]; omega
    | missing => simp [Counts.add]; omega
    | wrong => simp [Counts.add]; omega

/-- Each expected field has one verdict. -/
theorem verdicts_length (sample : Sample) (expected : List (String×Value)) :
    expected.countP (verdict sample · == .correct)+expected.countP (verdict sample · == .missing)+
      expected.countP (verdict sample · == .wrong) = expected.length := by
  induction expected with
  | nil => rfl
  | cons field expected ih =>
    rw [List.countP_cons, List.countP_cons, List.countP_cons, List.length_cons, ← ih]
    cases verdict sample field with
    | correct => simp; omega
    | missing => simp; omega
    | wrong => simp; omega

/-! ### Samples are kept by their ids -/

section Samples
variable {samples others : List Sample}

/-- What the samples have to be. -/
def Admitted (samples : List Sample) : Prop :=
  (∀ s ∈ samples, statuses.contains s.status = true) ∧ (samples.map (·.id)).Nodup

instance (samples : List Sample) : Decidable (Admitted samples) :=
  inferInstanceAs (Decidable (_ ∧ _))

theorem admitted_perm (h : samples.Perm others) : Admitted samples ↔ Admitted others := by
  rw [Admitted, Admitted, (h.map _).nodup_iff]
  simp only [h.mem_iff]

theorem admitted_nil : Admitted [] := ⟨by simp,List.nodup_nil⟩

/-- The loop over the samples, which finds every repeated id. -/
theorem foldlM_insertSample {before : List Sample} (h : Admitted before) (samples : List Sample) :
    samples.foldlM insertSample before =
      if Admitted (before++samples) then .ok (before++samples) else .error .invalid := by
  induction samples generalizing before with
  | nil => rw [List.append_nil, if_pos h]; rfl
  | cons sample samples ih =>
    have hsplit : before++sample::samples = (before++[sample])++samples := by
      rw [List.append_assoc]
      rfl
    rw [List.foldlM_cons, insertSample]
    by_cases hbad : (!statuses.contains sample.status || before.any (·.id == sample.id)) = true
    · have hnot : ¬Admitted (before++sample::samples) := by
        intro hadmitted
        rw [Bool.or_eq_true, Bool.not_eq_true', List.any_eq_true] at hbad
        rcases hbad with hstatus | ⟨old,hold,hid⟩
        · have hvalid := hadmitted.1 sample (List.mem_append_right before List.mem_cons_self)
          rw [hvalid] at hstatus
          cases hstatus
        · have hnodup := hadmitted.2
          rw [List.map_append, List.nodup_append] at hnodup
          exact hnodup.2.2 old.id (List.mem_map_of_mem hold) sample.id
            (List.mem_map_of_mem List.mem_cons_self) (beq_iff_eq.mp hid)
      rw [if_pos hbad, if_neg hnot]
      rfl
    · have hadmitted : Admitted (before++[sample]) := by
        rw [Bool.or_eq_true, Bool.not_eq_true', List.any_eq_true] at hbad
        push Not at hbad
        constructor
        · intro s hs
          rcases List.mem_append.mp hs with hs | hs
          · exact h.1 s hs
          · rw [List.mem_singleton.mp hs]
            exact Bool.eq_true_of_not_eq_false hbad.1
        · apply Table.nodup_append_key h.2
          exact fun x hx hid => hbad.2 x hx (beq_iff_eq.mpr hid)
      rw [if_neg hbad, hsplit]
      exact ih hadmitted

theorem find?_perm (h : samples.Perm others) (hnodup : (samples.map (·.id)).Nodup) (id : String) :
    samples.find? (·.id == id) = others.find? (·.id == id) := by
  cases hfind : samples.find? (·.id == id) with
  | none =>
    rw [List.find?_eq_none] at hfind
    exact (List.find?_eq_none.mpr fun x hx => hfind x (h.mem_iff.mpr hx)).symm
  | some sample =>
    obtain ⟨hmem,hid⟩ := Table.mem_of_find? hfind
    refine (Table.find?_eq_of_unique (h.mem_iff.mp hmem) hid ?_).symm
    intro other hother hoid
    apply Table.eq_of_key hnodup (h.mem_iff.mpr hother) hmem
    exact (beq_iff_eq.mp hoid).trans (beq_iff_eq.mp hid).symm

end Samples

/-! ### Cases are scored once -/

section Cases
variable {nfc : List Char → List Char} {samples : List Sample} {cases : List Case}

/-- The score of a case is that of its own sample, whose digest is the expected one. -/
structure Scored (nfc : List Char → List Char) (samples : List Sample) (case : Case)
    (score : CaseScore) (sample : Sample) : Prop where
  mem : sample ∈ samples
  id : sample.id = case.id
  sha256 : sample.sha256 = case.sha256
  evaluated : ∃ evaluation, evaluate nfc case sample = .ok evaluation ∧
    score = caseScore case sample evaluation

theorem scoreCase_ok {state state' : List String×List CaseScore} {case : Case}
    (h : scoreCase nfc samples state case = .ok state') :
    case.id ∉ state.1 ∧ state'.1 = state.1++[case.id] ∧
      ∃ score sample, state'.2 = state.2++[score] ∧ Scored nfc samples case score sample := by
  rw [scoreCase] at h
  split at h
  · cases h
  rename_i hid
  split at h
  · cases h
  rename_i sample hfind
  split at h
  · cases h
  rename_i hsha
  obtain ⟨evaluation,hevaluate,h⟩ := Table.bind_ok.mp h
  cases h
  obtain ⟨hmem,hkey⟩ := Table.mem_of_find? hfind
  push Not at hid
  refine ⟨fun hseen => hid.2.2 (List.contains_iff_mem.mpr hseen),rfl,_,sample,rfl,?_⟩
  exact ⟨hmem,beq_iff_eq.mp hkey,not_not.mp hsha,evaluation,hevaluate,rfl⟩

/-- The loop over the cases keeps the ids which it has seen distinct. -/
theorem foldlM_scoreCase {state state' : List String×List CaseScore}
    (h : cases.foldlM (scoreCase nfc samples) state = .ok state') (hseen : state.1.Nodup) :
    state'.1 = state.1++cases.map (·.id) ∧ state'.1.Nodup ∧ ∃ scores,
      state'.2 = state.2++scores ∧
        List.Forall₂ (fun case score => ∃ sample, Scored nfc samples case score sample)
          cases scores := by
  induction cases generalizing state with
  | nil =>
    cases h
    exact ⟨(List.append_nil _).symm,hseen,[],(List.append_nil _).symm,List.Forall₂.nil⟩
  | cons case cases ih =>
    obtain ⟨next,hcase,hrest⟩ := Table.bind_ok.mp h
    obtain ⟨hnew,hids,score,sample,hscores,hscored⟩ := scoreCase_ok hcase
    have hnext : next.1.Nodup := by
      rw [hids, List.nodup_append]
      refine ⟨hseen,List.nodup_singleton _,?_⟩
      intro x hx y hy heq
      exact hnew (List.mem_singleton.mp hy ▸ heq ▸ hx)
    obtain ⟨hids',hnodup,scores,hscores',hall⟩ := ih hrest hnext
    refine ⟨?_,hnodup,score::scores,?_,List.Forall₂.cons ⟨sample,hscored⟩ hall⟩
    · rw [hids', hids, List.append_assoc]
      rfl
    · rw [hscores', hscores, List.append_assoc]
      rfl

end Cases

/-! ### Percentiles -/

theorem percentile_ok {times : List ℕ} (percent : ℕ) (htimes : times ≠ [])
    (hpercent : 1 ≤ percent ∧ percent ≤ 100) :
    ∃ time, percentile times percent = .ok time ∧
      (times.Pairwise (· ≤ ·) → IsNearestRank percent times time) := by
  have hpos : 1 ≤ times.length := List.length_pos_iff.mpr htimes
  have hproduct : times.length*1 ≤ times.length*percent ∧
      times.length*percent ≤ times.length*100 :=
    ⟨Nat.mul_le_mul_left _ hpercent.1,Nat.mul_le_mul_left _ hpercent.2⟩
  have hindex : (times.length*percent+99)/100-1 < times.length := by omega
  have htime := List.getElem?_eq_getElem hindex
  refine ⟨times[(times.length*percent+99)/100-1],?_,?_⟩
  · rw [percentile, htime]
  · intro hsorted
    exact sorted_nearestRank hsorted htime (by omega) (by omega)

theorem report_ok {scores : List CaseScore} (hscores : scores ≠ []) :
    ∃ p50Ms p95Ms, report scores = .ok ⟨normalizationPolicyVersion,scores,p50Ms,p95Ms⟩ ∧
      IsNearestRank 50 (scores.map (·.elapsedMs)) p50Ms ∧
      IsNearestRank 95 (scores.map (·.elapsedMs)) p95Ms := by
  have hperm := List.mergeSort_perm (scores.map (·.elapsedMs)) (· ≤ ·)
  have hne : (scores.map (·.elapsedMs)).mergeSort ≠ [] := by
    intro hnil
    rw [hnil] at hperm
    exact hscores (List.map_eq_nil_iff.mp hperm.nil_eq.symm)
  have hsorted : (scores.map (·.elapsedMs)).mergeSort.Pairwise (· ≤ ·) := by
    have hpairwise := @List.pairwise_mergeSort ℕ (fun a b => decide (a ≤ b))
      (by simp; omega) (by simp; omega) (scores.map (·.elapsedMs))
    exact hpairwise.imp of_decide_eq_true
  obtain ⟨p50Ms,h50,hrank50⟩ := percentile_ok 50 hne (by decide)
  obtain ⟨p95Ms,h95,hrank95⟩ := percentile_ok 95 hne (by decide)
  refine ⟨p50Ms,p95Ms,?_,(hrank50 hsorted).perm hperm,(hrank95 hsorted).perm hperm⟩
  rw [report, h50, h95]
  rfl

/-! ### The benchmark -/

/-- What a report accounts for. -/
structure Accounted (nfc : List Char → List Char) (manifest : Manifest) (samples : List Sample)
    (report : BenchmarkReport) : Prop where
  sampleIds : (samples.map (·.id)).Nodup
  caseIds : (manifest.cases.map (·.id)).Nodup
  matched : (samples.map (·.id)).Perm (manifest.cases.map (·.id))
  digests : ∀ case ∈ manifest.cases, ∀ sample ∈ samples, sample.id = case.id →
    sample.sha256 = case.sha256
  scored : List.Forall₂ (fun case score => ∃ sample, Scored nfc samples case score sample)
    manifest.cases report.cases
  fields : ∀ score ∈ report.cases,
    score.correctFields+score.missingFields+score.wrongFields = score.expectedFields
  p50 : IsNearestRank 50 (report.cases.map (·.elapsedMs)) report.p50Ms
  p95 : IsNearestRank 95 (report.cases.map (·.elapsedMs)) report.p95Ms
  ordered : report.p50Ms ≤ report.p95Ms

section Benchmark
variable {nfc : List Char → List Char} {manifest : Manifest} {samples others : List Sample}

theorem caseScore_fields (case : Case) (sample : Sample) (evaluation : Option TextEvaluation) :
    (caseScore case sample evaluation).correctFields+
      (caseScore case sample evaluation).missingFields+
      (caseScore case sample evaluation).wrongFields =
        (caseScore case sample evaluation).expectedFields := by
  have hverdicts := verdicts_length sample case.expectedFields.entries
  simp only [caseScore, countFields, foldl_counts]
  omega

/-- A run of the loops, from the samples to the report. -/
theorem score_ok {r : BenchmarkReport} (h : score nfc manifest samples = .ok r) :
    manifest.cases ≠ [] ∧ samples.length = manifest.cases.length ∧ Admitted samples ∧
      ∃ state, manifest.cases.foldlM (scoreCase nfc samples) ([],[]) = .ok state ∧
        report state.2 = .ok r := by
  rw [score] at h
  split at h
  · cases h
  rename_i hsizes
  push Not at hsizes
  obtain ⟨byId,hsamples,h⟩ := Table.bind_ok.mp h
  obtain ⟨state,hstate,hreport⟩ := Table.bind_ok.mp h
  rw [foldlM_insertSample admitted_nil, List.nil_append, Table.ite_ok_iff] at hsamples
  rw [hsamples.2] at hstate
  refine ⟨?_,hsizes.2.2,hsamples.1,state,hstate,hreport⟩
  intro hnil
  exact hsizes.1 (List.isEmpty_iff.mpr hnil)

theorem score_accounted {r : BenchmarkReport} (h : score nfc manifest samples = .ok r) :
    Accounted nfc manifest samples r := by
  obtain ⟨hne,hlength,hadmitted,state,hstate,hreport⟩ := score_ok h
  obtain ⟨hids,hnodup,scores,hscores,hall⟩ := foldlM_scoreCase hstate List.nodup_nil
  rw [List.nil_append] at hids hscores
  rw [hids] at hnodup
  have hscoresNe : scores ≠ [] := by
    intro hnil
    rw [hnil, List.forall₂_nil_right_iff] at hall
    exact hne hall
  obtain ⟨p50Ms,p95Ms,hok,h50,h95⟩ := report_ok hscoresNe
  rw [hscores, hok] at hreport
  cases hreport
  have hexists : ∀ case ∈ manifest.cases, ∃ score sample, Scored nfc samples case score sample :=
    Table.forall₂_exists hall
  have hsubset : manifest.cases.map (·.id) ⊆ samples.map (·.id) := by
    intro id hid
    obtain ⟨case,hcase,rfl⟩ := List.mem_map.mp hid
    obtain ⟨_,sample,hscored⟩ := hexists case hcase
    exact hscored.id ▸ List.mem_map_of_mem hscored.mem
  have hsubperm := List.subperm_of_subset hnodup hsubset
  constructor
  · exact hadmitted.2
  · exact hnodup
  · apply (hsubperm.perm_of_length_le _).symm
    rw [List.length_map, List.length_map, hlength]
  · intro case hcase sample hsample hid
    obtain ⟨_,own,hscored⟩ := hexists case hcase
    have heq : sample = own :=
      Table.eq_of_key hadmitted.2 hsample hscored.mem (hid.trans hscored.id.symm)
    rw [heq]
    exact hscored.sha256
  · exact hall
  · intro score hscore
    obtain ⟨case,sample,hscored⟩ := Table.forall₂_exists hall.flip score hscore
    obtain ⟨evaluation,_,rfl⟩ := hscored.evaluated
    exact caseScore_fields case sample evaluation
  · exact h50
  · exact h95
  · exact h50.mono h95 (by decide)

theorem scoreCase_perm (h : samples.Perm others) (hnodup : (samples.map (·.id)).Nodup) :
    scoreCase nfc samples = scoreCase nfc others := by
  funext state case
  rw [scoreCase, find?_perm h hnodup, scoreCase]

/-- The samples in another order are kept, found and scored alike. -/
theorem score_perm (nfc : List Char → List Char) (manifest : Manifest)
    (h : samples.Perm others) : score nfc manifest samples = score nfc manifest others := by
  rw [score, score, h.length_eq, foldlM_insertSample admitted_nil,
    foldlM_insertSample admitted_nil, List.nil_append, List.nil_append]
  by_cases hadmitted : Admitted samples
  · rw [if_pos hadmitted, if_pos ((admitted_perm h).mp hadmitted), Table.ok_bind, Table.ok_bind,
      scoreCase_perm h hadmitted.2]
  · rw [if_neg hadmitted, if_neg fun hothers => hadmitted ((admitted_perm h).mpr hothers)]

/-! No index is out of range: there is a case, and so there is a latency. -/

theorem evaluate_total {case : Case} {sample : Sample} :
    evaluate nfc case sample ≠ .error .panicked := by
  rw [evaluate]
  split
  · exact nofun
  · dsimp only
    split <;> exact nofun

theorem scoreCase_total (state : List String×List CaseScore) (case : Case) :
    scoreCase nfc samples state case ≠ .error .panicked := by
  rw [scoreCase]
  split
  · exact nofun
  split
  · exact nofun
  split
  · exact nofun
  · rename_i sample _ _
    cases hevaluate : evaluate nfc case sample with
    | error e =>
      intro h
      cases h
      exact evaluate_total hevaluate
    | ok evaluation => exact nofun

theorem foldlM_scoreCase_total (cases : List Case) (state : List String×List CaseScore) :
    cases.foldlM (scoreCase nfc samples) state ≠ .error .panicked := by
  induction cases generalizing state with
  | nil => exact nofun
  | cons case cases ih =>
    rw [List.foldlM_cons]
    cases hcase : scoreCase nfc samples state case with
    | error e =>
      intro h
      cases h
      exact scoreCase_total state case hcase
    | ok next => exact ih next

theorem score_total : score nfc manifest samples ≠ .error .panicked := by
  rw [score]
  split
  · exact nofun
  rename_i hsizes
  push Not at hsizes
  rw [foldlM_insertSample admitted_nil, List.nil_append]
  split
  · rw [Table.ok_bind]
    cases hstate : manifest.cases.foldlM (scoreCase nfc samples) ([],[]) with
    | error e =>
      intro h
      cases h
      exact foldlM_scoreCase_total _ _ hstate
    | ok state =>
      obtain ⟨_,_,scores,hscores,hall⟩ := foldlM_scoreCase hstate List.nodup_nil
      have hne : state.2 ≠ [] := by
        intro hnil
        rw [hnil, List.nil_append] at hscores
        rw [← hscores, List.forall₂_nil_right_iff] at hall
        exact hsizes.1 (List.isEmpty_iff.mpr hall)
      obtain ⟨_,_,hok,_⟩ := report_ok hne
      rw [Table.ok_bind, hok]
      exact nofun
  · exact nofun

theorem scoreBenchmark_ok {reader : Reader} {manifestText samplesText : String}
    {r : BenchmarkReport} (h : scoreBenchmark reader nfc manifestText samplesText = .ok r) :
    ∃ manifest samples, reader.manifest manifestText = some manifest ∧
      reader.samples samplesText = some samples ∧ score nfc manifest samples = .ok r := by
  rw [scoreBenchmark] at h
  split at h
  · cases h
  split at h
  · cases h
  rename_i manifest hmanifest
  split at h
  · cases h
  rename_i samples hsamples
  exact ⟨manifest,samples,hmanifest,hsamples,h⟩

theorem scoreBenchmark_total (reader : Reader) (nfc : List Char → List Char)
    (manifestText samplesText : String) :
    scoreBenchmark reader nfc manifestText samplesText ≠ .error .panicked := by
  rw [scoreBenchmark]
  split
  · exact nofun
  split
  · exact nofun
  split
  · exact nofun
  · exact score_total

/-- A report accounts for every case and every expected field once; no percentile is read
out of range; and the order of the samples plays no part, in the list and in its text. -/
theorem scoreBenchmark_accounts (reader : Reader) (nfc : List Char → List Char) :
    (∀ manifestText samplesText r,
      scoreBenchmark reader nfc manifestText samplesText = .ok r →
        ∃ manifest samples, reader.manifest manifestText = some manifest ∧
          reader.samples samplesText = some samples ∧ Accounted nfc manifest samples r) ∧
    (∀ manifestText samplesText,
      scoreBenchmark reader nfc manifestText samplesText ≠ .error .panicked) ∧
    (∀ manifest samples others, samples.Perm others →
      score nfc manifest samples = score nfc manifest others) ∧
    (∀ manifestText samplesText othersText samples others,
      reader.samples samplesText = some samples → reader.samples othersText = some others →
      samples.Perm others →
      (maximumTextBytes < samplesText.utf8ByteSize ↔ maximumTextBytes < othersText.utf8ByteSize) →
        scoreBenchmark reader nfc manifestText samplesText =
          scoreBenchmark reader nfc manifestText othersText) := by
  refine ⟨?_,scoreBenchmark_total reader nfc,fun m _ _ => score_perm nfc m,?_⟩
  · intro manifestText samplesText r h
    obtain ⟨manifest,samples,hmanifest,hsamples,hscore⟩ := scoreBenchmark_ok h
    exact ⟨manifest,samples,hmanifest,hsamples,score_accounted hscore⟩
  · intro manifestText samplesText othersText samples others hsamples hothers hperm hsize
    rw [scoreBenchmark, scoreBenchmark, hsamples, hothers]
    simp only [hsize, score_perm nfc _ hperm]

end Benchmark

/-! A receipt which was read, and a label which was not read completely. -/

def manifestText : String :=
  Json.object [Json.member "cases" (Json.array [
    Json.object [Json.member "id" (Json.string "receipt"), Json.member "sha256" (Json.string "abc"),
      Json.member "expected_fields" (Json.object [Json.member "total" (Json.string "18.90")])],
    Json.object [Json.member "id" (Json.string "label"), Json.member "sha256" (Json.string "def"),
      Json.member "expected_fields" (Json.object [Json.member "name" (Json.string "Oats")])]])]

def samplesText : String :=
  Json.array [
    Json.object [Json.member "id" (Json.string "label"), Json.member "sha256" (Json.string "def"),
      Json.member "status" (Json.string "review_required"), Json.member "elapsed_ms" "300",
      Json.member "text" (Json.string ""), Json.member "fields" (Json.object [])],
    Json.object [Json.member "id" (Json.string "receipt"), Json.member "sha256" (Json.string "abc"),
      Json.member "status" (Json.string "completed"), Json.member "elapsed_ms" "100",
      Json.member "text" (Json.string ""), Json.member "fields" (Json.object [
        Json.member "total" (Json.object [Json.member "value" (Json.string "18.90")])])]]

def shop : Manifest :=
  ⟨[⟨"receipt","abc",none,⟨[("total",.string "18.90")],by decide⟩⟩,
    ⟨"label","def",none,⟨[("name",.string "Oats")],by decide⟩⟩]⟩

def shopSamples : List Sample :=
  [⟨"label","def","review_required",300,"",⟨[],by decide⟩⟩,
    ⟨"receipt","abc","completed",100,"",
      ⟨[("total",.object [("value",.string "18.90")])],by decide⟩⟩]

def shopReader : Reader where
  manifest text := if text = manifestText then some shop else none
  samples text := if text = samplesText then some shopSamples else none

def shopReport : BenchmarkReport where
  normalizationPolicy := normalizationPolicyVersion
  cases := [⟨"receipt","completed",none,none,1,1,0,0,100⟩,
    ⟨"label","review_required",none,none,1,0,1,0,300⟩]
  p50Ms := 100
  p95Ms := 300

theorem shop_run : scoreBenchmark shopReader id manifestText samplesText = .ok shopReport := by
  have hmanifest : shopReader.manifest manifestText = some shop := by
    simp only [shopReader, if_true]
  have hsamples : shopReader.samples samplesText = some shopSamples := by
    simp only [shopReader, if_true]
  have hsizes : ¬(maximumTextBytes < manifestText.utf8ByteSize ∨
      maximumTextBytes < samplesText.utf8ByteSize) := by decide +kernel
  have hstate : shopSamples.foldlM insertSample [] = .ok shopSamples := by rfl
  have hscores : shop.cases.foldlM (scoreCase id shopSamples) ([],[]) =
      .ok (["receipt","label"],shopReport.cases) := by rfl
  have htimes : ([100,300] : List ℕ).mergeSort = [100,300] := by
    simp [List.mergeSort, List.MergeSort.Internal.splitInTwo]
  have hreport : report shopReport.cases = .ok shopReport := by
    rw [report, show shopReport.cases.map (·.elapsedMs) = [100,300] from rfl, htimes]
    rfl
  have hscore : score id shop shopSamples = .ok shopReport := by
    rw [score, hstate, Table.ok_bind, hscores, Table.ok_bind, hreport]
    rfl
  rw [scoreBenchmark, if_neg hsizes, hmanifest, hsamples]
  exact hscore

theorem shop_accounted :
    (∃ manifest samples, shopReader.manifest manifestText = some manifest ∧
      shopReader.samples samplesText = some samples ∧
      Accounted id manifest samples shopReport) ∧
    score id shop shopSamples = score id shop shopSamples.reverse :=
  ⟨(scoreBenchmark_accounts shopReader id).1 manifestText samplesText shopReport shop_run,
    (scoreBenchmark_accounts shopReader id).2.2.1 shop shopSamples shopSamples.reverse
      (List.reverse_perm shopSamples).symm⟩

end DocumentIntelligence.BenchmarkScoring
