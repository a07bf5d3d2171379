import DocumentIntelligence.JsonValue
import DocumentIntelligence.PageHistories
import DocumentIntelligence.PageWorkflowStore

/-!
# The text of a checkpoint

A checkpoint is serialized, stored in a `jsonb` column and read back as the text
of that column, which orders the members of an object by the length of their
names and sets blanks after colons and commas. Both texts are far below the size
limit, and both are read back as the checkpoint.
-/

set_option autoImplicit false

namespace DocumentIntelligence.CheckpointText
open Identifiers (JobId)
open PageCheckpoint hiding Error
open PageHistories Transition
open PageWorkflowStore (StoredPageWorkflow)
open Json (Value Spacing compact spaced)

def maximumCheckpointBytes : ℕ := 262144

def encodeProgress : PageProgress → Value
  | .pending failures => .object [("state",.string "pending"),("failures",.number failures)]
  | .running attempt => .object [("state",.string "running"),("attempt",.number attempt)]
  | .succeeded attempt => .object [("state",.string "succeeded"),("attempt",.number attempt)]
  | .exhausted attempts => .object [("state",.string "exhausted"),("attempts",.number attempts)]
  | .permanentlyFailed attempt =>
    .object [("state",.string "permanently_failed"),("attempt",.number attempt)]

def encode (w : PageWorkflow) : Value :=
  .object [("job_id",.string w.jobId.asStr),("max_attempts",.number w.maxAttempts),
    ("pages",.array (w.pages.map encodeProgress)),("cancelled",.bool w.cancelled)]

/-- The value of the one member with this name. -/
def only (name : String) (members : List (String × Value)) : Option Value :=
  match members.filter (·.1 == name) with
  | [(_,v)] => some v
  | _ => none

def decodeByte : Value → Option ℕ
  | .number n => if n ≤ 255 then some n else none
  | _ => none

/-- The tag decides which member is read; others are ignored. -/
def decodeProgress : Value → Option PageProgress
  | .object members => match only "state" members with
    | some (.string "pending") => ((only "failures" members).bind decodeByte).map .pending
    | some (.string "running") => ((only "attempt" members).bind decodeByte).map .running
    | some (.string "succeeded") => ((only "attempt" members).bind decodeByte).map .succeeded
    | some (.string "exhausted") => ((only "attempts" members).bind decodeByte).map .exhausted
    | some (.string "permanently_failed") =>
      ((only "attempt" members).bind decodeByte).map .permanentlyFailed
    | _ => none
  | _ => none

def decodeJobId : Value → Option JobId
  | .string s => (JobId.new s).toOption
  | _ => none

def decodePages : Value → Option (List PageProgress)
  | .array items => items.mapM decodeProgress
  | _ => none

/-- `cancelled` has a default, the other members are required. -/
def decodeCancelled (members : List (String × Value)) : Option Bool :=
  match members.filter (·.1 == "cancelled") with
  | [] => some false
  | [(_,.bool b)] => some b
  | _ => none

/-- Unknown members are refused. -/
def decodeRaw : Value → Option RawPageWorkflow
  | .object members =>
    if members.all fun m => ["job_id","max_attempts","pages","cancelled"].contains m.1 then do
      let jobId ← (only "job_id" members).bind decodeJobId
      let maxAttempts ← (only "max_attempts" members).bind decodeByte
      let pages ← (only "pages" members).bind decodePages
      let cancelled ← decodeCancelled members
      some ⟨jobId,maxAttempts,pages,cancelled⟩
    else none
  | _ => none

def fromStr (text : String) : Option PageWorkflow := do
  let raw ← (← Json.parse text) |> decodeRaw
  raw.tryInto.toOption

def serializePageWorkflow (w : PageWorkflow) : Except Schema.Error String :=
  let checkpoint := (encode w).text compact
  if checkpoint.isEmpty || decide (checkpoint.utf8ByteSize > maximumCheckpointBytes) then
    .error .invalidStoredPageWorkflow
  else .ok checkpoint

/-- The order in which the column keeps the members of an object. -/
def keyBefore (a b : String × Value) : Prop :=
  a.1.utf8ByteSize < b.1.utf8ByteSize ∨ a.1.utf8ByteSize = b.1.utf8ByteSize ∧ a.1 ≤ b.1

instance : DecidableRel keyBefore := fun _ _ => inferInstanceAs (Decidable (_ ∨ _))

mutual
def toJsonb : Value → Value
  | .array items => .array (toJsonbItems items)
  | .object members => .object ((toJsonbMembers members).insertionSort keyBefore)
  | v => v

def toJsonbItems : List Value → List Value
  | [] => []
  | item::items => toJsonb item::toJsonbItems items

def toJsonbMembers : List (String × Value) → List (String × Value)
  | [] => []
  | (name,value)::members => (name,toJsonb value)::toJsonbMembers members
end

/-- `$4::jsonb` -/
def column (text : String) : Option Value := (Json.parse text).map toJsonb

/-- The check of the column on its own text. -/
def columnCheck : Value → Bool
  | .object members => decide (1 ≤ ((Value.object members).text spaced).utf8ByteSize ∧
      ((Value.object members).text spaced).utf8ByteSize ≤ maximumCheckpointBytes)
  | _ => false

/-- What a row with this revision and this text is loaded as. -/
def storedPageWorkflow (revision : ℤ) (checkpoint : String) :
    Except Schema.Error StoredPageWorkflow :=
  if decide (revision < 0) || checkpoint.isEmpty ||
      decide (checkpoint.utf8ByteSize > maximumCheckpointBytes) then
    .error .invalidStoredPageWorkflow
  else match fromStr checkpoint with
  | some workflow => .ok ⟨workflow,revision.toNat⟩
  | none => .error .invalidStoredPageWorkflow

section Reading
variable {w : PageWorkflow}

theorem decodeByte_number {n : ℕ} (h : n ≤ maximumPageAttempts) :
    decodeByte (.number n) = some n := by
  have hle : n ≤ 255 := h.trans (by decide)
  rw [decodeByte, if_pos hle]

theorem decodeProgress_encode {p : PageProgress} {maxAttempts : ℕ}
    (hp : p.valid maxAttempts = true) (hmax : maxAttempts ≤ maximumPageAttempts) :
    decodeProgress (encodeProgress p) = some p := by
  cases p with
  | pending n =>
    simp only [PageProgress.valid, decide_eq_true_eq] at hp
    show ((some (Value.number n)).bind decodeByte).map PageProgress.pending = _
    rw [Option.bind_some, decodeByte_number (hp.le.trans hmax)]
    rfl
  | running n =>
    simp only [PageProgress.valid, Bool.and_eq_true, decide_eq_true_eq] at hp
    show ((some (Value.number n)).bind decodeByte).map PageProgress.running = _
    rw [Option.bind_some, decodeByte_number (hp.2.trans hmax)]
    rfl
  | succeeded n =>
    simp only [PageProgress.valid, Bool.and_eq_true, decide_eq_true_eq] at hp
    show ((some (Value.number n)).bind decodeByte).map PageProgress.succeeded = _
    rw [Option.bind_some, decodeByte_number (hp.2.trans hmax)]
    rfl
  | exhausted n =>
    simp only [PageProgress.valid, beq_iff_eq] at hp
    show ((some (Value.number n)).bind decodeByte).map PageProgress.exhausted = _
    rw [Option.bind_some, decodeByte_number (hp.le.trans hmax)]
    rfl
  | permanentlyFailed n =>
    simp only [PageProgress.valid, Bool.and_eq_true, decide_eq_true_eq] at hp
    show ((some (Value.number n)).bind decodeByte).map PageProgress.permanentlyFailed = _
    rw [Option.bind_some, decodeByte_number (hp.2.trans hmax)]
    rfl

theorem decodePages_encode {maxAttempts : ℕ} (hmax : maxAttempts ≤ maximumPageAttempts)
    {pages : List PageProgress} (h : pages.all (PageProgress.valid maxAttempts) = true) :
    decodePages (.array (pages.map encodeProgress)) = some pages := by
  rw [decodePages]
  induction pages with
  | nil => rfl
  | cons p pages ih =>
    rw [List.all_cons, Bool.and_eq_true] at h
    rw [List.map_cons, List.mapM_cons, decodeProgress_encode h.1 hmax, ih h.2]
    rfl

theorem decodeJobId_asStr (jobId : JobId) : decodeJobId (.string jobId.asStr) = some jobId := by
  simp only [decodeJobId, JobId.new, dif_pos jobId.valid]
  rfl

/-- The members are found in whatever order they stand. -/
theorem decodeRaw_members {members : List (String × Value)}
    (hnames : members.all (fun m => ["job_id","max_attempts","pages","cancelled"].contains m.1) = true)
    (hjob : only "job_id" members = some (.string w.jobId.asStr))
    (hmax : only "max_attempts" members = some (.number w.maxAttempts))
    (hpages : only "pages" members = some (.array (w.pages.map encodeProgress)))
    (hcancelled : decodeCancelled members = some w.cancelled) :
    (decodeRaw (.object members)).bind (fun raw => raw.tryInto.toOption) = some w := by
  have hbounds := And.intro w.attempts_bounded (And.intro w.pages_bounded w.pages_valid)
  simp only [decodeRaw, if_pos hnames, hjob, hmax, hpages, hcancelled, Option.bind_eq_bind,
    Option.bind_some, decodeJobId_asStr, decodeByte_number w.attempts_bounded.2,
    decodePages_encode w.attempts_bounded.2 w.pages_valid, RawPageWorkflow.tryInto, dif_pos hbounds]
  rfl

theorem toJsonb_progress (p : PageProgress) : toJsonb (encodeProgress p) = encodeProgress p := by
  cases p <;> rfl

theorem toJsonbItems_pages (pages : List PageProgress) :
    toJsonbItems (pages.map encodeProgress) = pages.map encodeProgress := by
  induction pages with
  | nil => rfl
  | cons p pages ih => rw [List.map_cons, toJsonbItems, toJsonb_progress, ih]

/-- The members of a stored checkpoint in the order of the column. -/
theorem toJsonb_encode (w : PageWorkflow) : toJsonb (encode w) =
    .object [("pages",.array (w.pages.map encodeProgress)),("job_id",.string w.jobId.asStr),
      ("cancelled",.bool w.cancelled),("max_attempts",.number w.maxAttempts)] := by
  rw [← toJsonbItems_pages w.pages]
  rfl

theorem decode_encode (w : PageWorkflow) :
    (decodeRaw (encode w)).bind (fun raw => raw.tryInto.toOption) = some w :=
  decodeRaw_members rfl rfl rfl rfl rfl

theorem decode_jsonb (w : PageWorkflow) :
    (decodeRaw (toJsonb (encode w))).bind (fun raw => raw.tryInto.toOption) = some w := by
  rw [toJsonb_encode]
  exact decodeRaw_members rfl rfl rfl rfl rfl

/-- A text with either spacing, in either order, is read back as the checkpoint. -/
theorem fromStr_text {sp : Spacing} (hsp : sp.Blank) {v : Value}
    (h : (decodeRaw v).bind (fun raw => raw.tryInto.toOption) = some w) :
    fromStr (v.text sp) = some w := by
  rw [fromStr, Json.parse_text hsp]
  exact h

end Reading

section Size
variable {sp : Spacing} (hcolon : Json.charsSize sp.colon ≤ 1) (hcomma : Json.charsSize sp.comma ≤ 1)

variable (sp) in
theorem attempt_size {n : ℕ} (h : n ≤ maximumPageAttempts) :
    Json.charsSize ((Value.number n).chars sp) ≤ 2 :=
  Json.number_size (by decide) (h.trans_lt (by decide))

theorem plain_size {s : String} (h : s.toList.all Json.plain = true) :
    Json.charsSize ((Value.string s).chars sp) = s.utf8ByteSize+2 := by
  rw [Value.chars, Json.charsSize_toList, Json.size_string_of_plain (List.all_eq_true.mp h)]

theorem name_size {s : String} (h : s.toList.all Json.plain = true) :
    (Json.string s).utf8ByteSize = s.utf8ByteSize+2 :=
  Json.size_string_of_plain (List.all_eq_true.mp h)

include hcolon hcomma

theorem progress_size {p : PageProgress} {maxAttempts : ℕ} (hp : p.valid maxAttempts = true)
    (hmax : maxAttempts ≤ maximumPageAttempts) :
    Json.charsSize ((encodeProgress p).chars sp) ≤ 46 := by
  have hobject : ∀ (state name : String) (n : ℕ), state.toList.all Json.plain = true →
      name.toList.all Json.plain = true → state.utf8ByteSize ≤ 18 → name.utf8ByteSize ≤ 8 →
      state.utf8ByteSize+name.utf8ByteSize ≤ 25 → n ≤ maximumPageAttempts →
      Json.charsSize ((Value.object [("state",.string state),(name,.number n)]).chars sp) ≤ 46 := by
    intro state name n hstate hname _ _ hsum hn
    have htag : (Json.string "state").utf8ByteSize = 7 := name_size (by decide)
    have hattempt := attempt_size sp hn
    rw [Json.object_size, Json.memberChars_size, Json.memberChars_nil_size, plain_size hstate,
      name_size hname, htag]
    omega
  cases p with
  | pending n =>
    simp only [PageProgress.valid, decide_eq_true_eq] at hp
    exact hobject "pending" "failures" n (by decide) (by decide) (by decide) (by decide) (by decide)
      (hp.le.trans hmax)
  | running n =>
    simp only [PageProgress.valid, Bool.and_eq_true, decide_eq_true_eq] at hp
    exact hobject "running" "attempt" n (by decide) (by decide) (by decide) (by decide) (by decide)
      (hp.2.trans hmax)
  | succeeded n =>
    simp only [PageProgress.valid, Bool.and_eq_true, decide_eq_true_eq] at hp
    exact hobject "succeeded" "attempt" n (by decide) (by decide) (by decide) (by decide)
      (by decide) (hp.2.trans hmax)
  | exhausted n =>
    simp only [PageProgress.valid, beq_iff_eq] at hp
    exact hobject "exhausted" "attempts" n (by decide) (by decide) (by decide) (by decide)
      (by decide) (hp.le.trans hmax)
  | permanentlyFailed n =>
    simp only [PageProgress.valid, Bool.and_eq_true, decide_eq_true_eq] at hp
    exact hobject "permanently_failed" "attempt" n (by decide) (by decide) (by decide) (by decide)
      (by decide) (hp.2.trans hmax)

theorem pages_size (w : PageWorkflow) :
    Json.charsSize ((Value.array (w.pages.map encodeProgress)).chars sp) ≤ 48002 := by
  have hpage : ∀ item ∈ w.pages.map encodeProgress, Json.charsSize (item.chars sp) ≤ 46 := by
    intro item hm
    obtain ⟨p,hp,rfl⟩ := List.mem_map.mp hm
    exact progress_size hcolon hcomma (List.all_eq_true.mp w.pages_valid p hp) w.attempts_bounded.2
  have hsize := Json.array_size hpage
  have hcount : w.pages.length ≤ 1000 := w.pages_bounded.2
  have hproduct : (w.pages.map encodeProgress).length*(1+Json.charsSize sp.comma+46) ≤ 1000*48 := by
    rw [List.length_map]
    exact Nat.mul_le_mul hcount (by omega)
  omega

/-- The size does not depend on the order of the members. -/
theorem encode_size (w : PageWorkflow) :
    Json.charsSize ((encode w).chars sp) ≤ maximumCheckpointBytes ∧
      Json.charsSize ((toJsonb (encode w)).chars sp) ≤ maximumCheckpointBytes := by
  have hpages := pages_size hcolon hcomma w
  have hmax := attempt_size sp w.attempts_bounded.2
  obtain ⟨hplain,hbytes⟩ := Identifiers.validatedId_json w.jobId.valid (by decide)
  have hid : Json.charsSize ((Value.string w.jobId.asStr).chars sp) ≤ 70 := by
    rw [plain_size (List.all_eq_true.mpr hplain)]
    exact Nat.add_le_add_right hbytes 2
  have hcancelled : Json.charsSize ((Value.bool w.cancelled).chars sp) ≤ 5 := by
    cases w.cancelled <;> rw [Value.chars] <;> decide
  have hnames : (Json.string "job_id").utf8ByteSize = 8 ∧
      (Json.string "max_attempts").utf8ByteSize = 14 ∧ (Json.string "pages").utf8ByteSize = 7 ∧
      (Json.string "cancelled").utf8ByteSize = 11 :=
    ⟨name_size (by decide),name_size (by decide),name_size (by decide),name_size (by decide)⟩
  have hlimit : maximumCheckpointBytes = 262144 := rfl
  rw [toJsonb_encode, encode]
  simp only [Json.object_size, Json.memberChars_size, Json.memberChars_nil_size, hnames]
  omega

end Size

theorem compact_size (w : PageWorkflow) :
    ((encode w).text compact).utf8ByteSize ≤ maximumCheckpointBytes := by
  have hcolon : Json.charsSize compact.colon ≤ 1 := by decide
  rw [Json.text_size]
  exact (encode_size hcolon (by decide) w).1

theorem column_size (w : PageWorkflow) :
    ((toJsonb (encode w)).text spaced).utf8ByteSize ≤ maximumCheckpointBytes := by
  have hcolon : Json.charsSize spaced.colon ≤ 1 := by decide
  rw [Json.text_size]
  exact (encode_size hcolon (by decide) w).2

theorem text_nonempty (sp : Spacing) (v : Value) :
    (v.text sp).isEmpty = false ∧ 1 ≤ (v.text sp).utf8ByteSize := by
  have hpos : 1 ≤ (v.text sp).utf8ByteSize := by
    obtain ⟨c,cs,hc,_,_⟩ : ∃ c cs, v.chars sp = c::cs ∧ _ := Json.chars_head v
    have hsize := Char.utf8Size_pos c
    rw [Json.text_size, hc, Json.charsSize_cons]
    omega
  refine ⟨?_,hpos⟩
  rw [String.isEmpty, beq_eq_false_iff_ne]
  omega

/-- Every checkpoint is stored, and loaded as itself. -/
theorem stored_and_loaded (w : PageWorkflow) : ∃ text, serializePageWorkflow w = .ok text ∧
    text.utf8ByteSize ≤ maximumCheckpointBytes ∧ fromStr text = some w ∧
    ∃ c, column text = some c ∧ columnCheck c = true ∧
      (c.text spaced).utf8ByteSize ≤ maximumCheckpointBytes ∧ fromStr (c.text spaced) = some w ∧
      ∀ revision : ℕ, storedPageWorkflow revision (c.text spaced) = .ok ⟨w,revision⟩ := by
  have hcompact := compact_size w
  have hcolumn := column_size w
  have hread := fromStr_text Json.spaced_blank (decode_jsonb w)
  have hempty := (text_nonempty compact (encode w)).1
  obtain ⟨hcolumnEmpty,hcolumnPos⟩ := text_nonempty spaced (toJsonb (encode w))
  refine ⟨(encode w).text compact,?_,hcompact,fromStr_text Json.compact_blank (decode_encode w),
    toJsonb (encode w),?_,?_,hcolumn,hread,?_⟩
  · simp only [serializePageWorkflow, hempty, decide_eq_false (Nat.not_lt.mpr hcompact),
      Bool.or_false, Bool.false_eq_true, if_false]
  · rw [column, Json.parse_text Json.compact_blank]
    rfl
  · rw [toJsonb_encode] at hcolumn hcolumnPos ⊢
    exact decide_eq_true ⟨hcolumnPos,hcolumn⟩
  · intro revision
    have hrevision : ¬(revision : ℤ) < 0 := by omega
    simp only [storedPageWorkflow, hcolumnEmpty, decide_eq_false (Nat.not_lt.mpr hcolumn),
      decide_eq_false hrevision, hread, Bool.or_false, Bool.false_eq_true, if_false, Int.toNat_natCast]

section Run
variable {jobId : JobId} {pageCount maxAttempts : ℕ} {workflow : PageWorkflow}

/-- Whatever was done to a checkpoint, it can be stored and reloaded. -/
theorem run_stored_and_loaded (_ : PageWorkflow.new jobId pageCount maxAttempts = .ok workflow)
    (ops : List Operation) :
    let w := (run step ⟨workflow,[]⟩ ops).workflow
    ∃ text, serializePageWorkflow w = .ok text ∧
      text.utf8ByteSize ≤ maximumCheckpointBytes ∧ fromStr text = some w ∧
      ∃ c, column text = some c ∧ columnCheck c = true ∧
        (c.text spaced).utf8ByteSize ≤ maximumCheckpointBytes ∧ fromStr (c.text spaced) = some w ∧
        ∀ revision : ℕ, storedPageWorkflow revision (c.text spaced) = .ok ⟨w,revision⟩ :=
  stored_and_loaded _

/-- A page which is claimed, fails and is claimed again. -/
theorem retried_page_stored_and_loaded :
    let w := (run step ⟨PageWorkflow.fresh default 1 2 (by decide) (by decide),[]⟩
      [.claimReady 8,.record (pageTask default 0 1) .retryableFailure,.claimReady 8]).workflow
    ∃ text, serializePageWorkflow w = .ok text ∧
      text.utf8ByteSize ≤ maximumCheckpointBytes ∧ fromStr text = some w ∧
      ∃ c, column text = some c ∧ columnCheck c = true ∧
        (c.text spaced).utf8ByteSize ≤ maximumCheckpointBytes ∧ fromStr (c.text spaced) = some w ∧
        ∀ revision : ℕ, storedPageWorkflow revision (c.text spaced) = .ok ⟨w,revision⟩ := by
  have hnew : PageWorkflow.new default 1 2 =
      .ok (PageWorkflow.fresh default 1 2 (by decide) (by decide)) := rfl
  exact run_stored_and_loaded hnew _

end Run

end DocumentIntelligence.CheckpointText
