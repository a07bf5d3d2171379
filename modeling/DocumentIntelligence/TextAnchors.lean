import DocumentIntelligence.DocumentPages
import DocumentIntelligence.JsonValue
import DocumentIntelligence.Table

/-!
# Text anchors

An anchor names ranges of characters of a document's text, which is kept in bytes. A
slice whose ends are out of order or inside of a character is a result of its own,
`panic`, beside the error which the calls return.
-/

set_option autoImplicit false

namespace DocumentIntelligence.TextAnchors
open DocumentPages (isWhitespace)
open Json (charsSize charsSize_append charsSize_cons charsSize_toList)
open Table (bind_ok ok_bind error_bind)

inductive Stop where
  | permanent
  | panic
  deriving DecidableEq, Repr

def okOr {α : Type} : Option α → Except Stop α
  | some value => .ok value
  | none => .error .permanent

/-! ### Offsets -/

def digitsValue (digits : List Char) : ℕ := digits.foldl (fun n c => 10*n+(c.toNat-48)) 0

/-- `str::parse::<usize>` -/
def parseUsize (value : String) : Option ℕ :=
  let digits := match value.toList with
    | '+'::digits => digits
    | digits => digits
  if digits ≠ [] ∧ digits.all Char.isDigit ∧ digitsValue digits < 2^64 then
    some (digitsValue digits)
  else none

inductive WireOffset where
  | number (value : UInt64)
  | string (value : String)
  deriving DecidableEq, Repr

def WireOffset.value : WireOffset → Except Stop ℕ
  | .number value => .ok value.toNat
  | .string value => okOr (parseUsize value)

structure WireTextSegment where
  startIndex : Option WireOffset
  endIndex : Option WireOffset
  deriving DecidableEq, Repr

structure WireTextAnchor where
  textSegments : List WireTextSegment
  deriving DecidableEq, Repr

/-! ### Slices of a text -/

/-- `str::char_indices`, of which only the bytes are read -/
def charIndices (byte : ℕ) : List Char → List ℕ
  | [] => []
  | c::cs => byte::charIndices (byte+c.utf8Size) cs

/-- `str::split_at`, which fails inside of a character and behind the end -/
def splitAt : List Char → ℕ → Option (List Char×List Char)
  | cs, 0 => some ([],cs)
  | [], _+1 => none
  | c::cs, byte+1 =>
    if c.utf8Size ≤ byte+1 then
      (splitAt cs (byte+1-c.utf8Size)).map fun (before,after) => (c::before,after)
    else none

/-- `&text[start..finish]` -/
def slice (text : List Char) (start finish : ℕ) : Except Stop (List Char) :=
  if finish < start then .error .panic
  else match splitAt text finish with
    | none => .error .panic
    | some (before,_) => match splitAt before start with
      | none => .error .panic
      | some (_,value) => .ok value

structure AnchoredText where
  text : List Char
  boundaries : List ℕ

def AnchoredText.new (text : String) : AnchoredText :=
  ⟨text.toList,charIndices 0 text.toList++[text.utf8ByteSize]⟩

def AnchoredText.byte (anchored : AnchoredText) (character : ℕ) : Except Stop ℕ :=
  okOr anchored.boundaries[character]?

def AnchoredText.segment (anchored : AnchoredText) (segment : WireTextSegment) :
    Except Stop (List Char) := do
  let start ← segment.startIndex.elim (.ok 0) WireOffset.value
  let finish ← okOr segment.endIndex >>= WireOffset.value
  if finish < start then .error .permanent
  else slice anchored.text (← anchored.byte start) (← anchored.byte finish)

def maximumTextBytes : ℕ := 65536

def AnchoredText.resolve (anchored : AnchoredText) (anchor : WireTextAnchor) :
    Except Stop String :=
  if anchor.textSegments = [] then .error .permanent
  else do
    let value ← anchor.textSegments.foldlM
      (fun value segment => do .ok (value++(← anchored.segment segment))) []
    if value.all isWhitespace ∨ maximumTextBytes < charsSize value then .error .permanent
    else .ok (String.ofList value)

/-! ### Boundaries -/

theorem charIndices_get (cs : List Char) (byte k : ℕ) (h : k < cs.length) :
    (charIndices byte cs)[k]? = some (byte+charsSize (cs.take k)) := by
  induction cs generalizing byte k with
  | nil => exact absurd h (Nat.not_lt_zero k)
  | cons c cs ih =>
    cases k with
    | zero => rfl
    | succ k =>
      rw [charIndices, List.getElem?_cons_succ, ih _ k (Nat.lt_of_succ_lt_succ h),
        List.take_succ_cons, charsSize_cons, Nat.add_assoc]

theorem length_charIndices (cs : List Char) (byte : ℕ) :
    (charIndices byte cs).length = cs.length := by
  induction cs generalizing byte with
  | nil => rfl
  | cons c cs ih => rw [charIndices, List.length_cons, ih, List.length_cons]

/-- The boundaries are the bytes before each character, and the end. -/
theorem byte_new (text : String) (k : ℕ) : (AnchoredText.new text).byte k =
    if k ≤ text.toList.length then .ok (charsSize (text.toList.take k)) else .error .permanent := by
  have hlength := length_charIndices text.toList 0
  rw [AnchoredText.byte, AnchoredText.new]
  rcases lt_trichotomy k text.toList.length with hlt | rfl | hgt
  · rw [List.getElem?_append_left (by omega), charIndices_get _ _ _ hlt, if_pos hlt.le,
      Nat.zero_add]
    rfl
  · rw [List.getElem?_append_right hlength.le, hlength, Nat.sub_self, if_pos le_rfl,
      List.take_length, charsSize_toList]
    rfl
  · rw [List.getElem?_eq_none (by rw [List.length_append, hlength, List.length_singleton]; omega),
      if_neg (by omega)]
    rfl

theorem splitAt_boundary (before after : List Char) :
    splitAt (before++after) (charsSize before) = some (before,after) := by
  induction before with
  | nil =>
    cases after with
    | nil => rfl
    | cons c after => rfl
  | cons c before ih =>
    have hpos := Char.utf8Size_pos c
    obtain ⟨byte,hbyte⟩ : ∃ byte, charsSize (c::before) = byte+1 :=
      ⟨charsSize (c::before)-1,by rw [charsSize_cons]; omega⟩
    have hrest : byte+1-c.utf8Size = charsSize before := by
      rw [← hbyte, charsSize_cons]
      omega
    rw [hbyte, List.cons_append, splitAt, if_pos (by rw [← hbyte, charsSize_cons]; omega), hrest, ih]
    rfl

/-- Two boundaries cut the characters between them. -/
theorem slice_boundaries (text : List Char) {start finish : ℕ} (h : start ≤ finish) :
    slice text (charsSize (text.take start)) (charsSize (text.take finish)) =
      .ok ((text.take finish).drop start) := by
  have hfirst := splitAt_boundary (text.take finish) (text.drop finish)
  have hsecond := splitAt_boundary ((text.take finish).take start) ((text.take finish).drop start)
  have htake : (text.take finish).take start = text.take start := by
    rw [List.take_take, min_eq_left h]
  rw [List.take_append_drop] at hfirst hsecond
  have hsize := charsSize_append ((text.take finish).take start) ((text.take finish).drop start)
  rw [List.take_append_drop, htake] at hsize
  rw [htake] at hsecond
  rw [slice, if_neg (by omega), hfirst]
  simp only [hsecond]

/-! ### Segments -/

section Segments
variable (text : String) (segment : WireTextSegment)

/-- A segment without a start begins with the text. -/
def WireTextSegment.StartsAt (start : ℕ) : Prop :=
  segment.startIndex.elim (.ok 0) WireOffset.value = .ok start

def WireTextSegment.EndsAt (finish : ℕ) : Prop :=
  ∃ offset, segment.endIndex = some offset ∧ offset.value = .ok finish

/-- The characters which the segment denotes. -/
def Denotes (piece : List Char) : Prop :=
  ∃ start finish, segment.StartsAt start ∧ segment.EndsAt finish ∧ start ≤ finish ∧
    finish ≤ text.toList.length ∧ piece = (text.toList.take finish).drop start

/-- An offset is a string which is no number of 64 bits. -/
def Malformed : Prop :=
  ∃ value, (segment.startIndex = some (.string value) ∨ segment.endIndex = some (.string value)) ∧
    parseUsize value = none

def Inverted : Prop :=
  ∃ start finish, segment.StartsAt start ∧ segment.EndsAt finish ∧ finish < start

def OutOfRange : Prop := ∃ finish, segment.EndsAt finish ∧ text.toList.length < finish

/-- The segment denotes nothing. -/
def Faulty : Prop :=
  segment.endIndex = none ∨ Malformed segment ∨ Inverted segment ∨ OutOfRange text segment

variable {text segment}

theorem startsAt_unique {start start' : ℕ} (h : segment.StartsAt start)
    (h' : segment.StartsAt start') : start = start' :=
  Except.ok.inj (h.symm.trans h')

theorem endsAt_unique {finish finish' : ℕ} (h : segment.EndsAt finish)
    (h' : segment.EndsAt finish') : finish = finish' := by
  obtain ⟨offset,hoffset,hvalue⟩ := h
  obtain ⟨offset',hoffset',hvalue'⟩ := h'
  rw [hoffset, Option.some.injEq] at hoffset'
  rw [← hoffset'] at hvalue'
  exact Except.ok.inj (hvalue.symm.trans hvalue')

theorem value_error {offset : WireOffset} {e : Stop} (h : offset.value = .error e) :
    e = .permanent ∧ ∃ value, offset = .string value ∧ parseUsize value = none := by
  cases offset with
  | number value => cases h
  | string value =>
    rw [WireOffset.value] at h
    cases hparsed : parseUsize value with
    | none =>
      rw [hparsed] at h
      cases h
      exact ⟨rfl,value,rfl,hparsed⟩
    | some n =>
      rw [hparsed] at h
      cases h

/-- A segment is resolved to the characters which it denotes, or denotes nothing. -/
theorem segment_resolves (text : String) (segment : WireTextSegment) :
    (∃ piece, (AnchoredText.new text).segment segment = .ok piece ∧ Denotes text segment piece) ∨
    ((AnchoredText.new text).segment segment = .error .permanent ∧ Faulty text segment) := by
  rw [AnchoredText.segment]
  cases hstart : segment.startIndex.elim (.ok 0) WireOffset.value with
  | error e =>
    right
    cases hindex : segment.startIndex with
    | none =>
      rw [hindex] at hstart
      cases hstart
    | some offset =>
      rw [hindex] at hstart
      obtain ⟨rfl,value,rfl,hparsed⟩ := value_error hstart
      exact ⟨error_bind _ _,.inr (.inl ⟨value,.inl hindex,hparsed⟩)⟩
  | ok start =>
    rw [ok_bind]
    cases hindex : segment.endIndex with
    | none => exact Or.inr ⟨rfl,.inl hindex⟩
    | some offset =>
      cases hvalue : offset.value with
      | error e =>
        right
        obtain ⟨rfl,value,rfl,hparsed⟩ := value_error hvalue
        rw [okOr, ok_bind, hvalue]
        exact ⟨error_bind _ _,.inr (.inl ⟨value,.inr hindex,hparsed⟩)⟩
      | ok finish =>
        have hends : segment.EndsAt finish := ⟨offset,hindex,hvalue⟩
        rw [okOr, ok_bind, hvalue, ok_bind]
        by_cases hinverted : finish < start
        · rw [if_pos hinverted]
          exact Or.inr ⟨rfl,.inr (.inr (.inl ⟨start,finish,hstart,hends,hinverted⟩))⟩
        rw [if_neg hinverted]
        by_cases hrange : finish ≤ text.toList.length
        · left
          rw [byte_new, if_pos (by omega), ok_bind, byte_new, if_pos hrange, ok_bind]
          exact ⟨_,slice_boundaries text.toList (by omega),start,finish,hstart,hends,by omega,
            hrange,rfl⟩
        · right
          refine ⟨?_,.inr (.inr (.inr ⟨finish,hends,by omega⟩))⟩
          rw [byte_new]
          split
          · rw [ok_bind, byte_new, if_neg hrange]
            rfl
          · rfl

theorem denotes_not_faulty {piece : List Char} (h : Denotes text segment piece) :
    ¬Faulty text segment := by
  obtain ⟨start,finish,hstarts,hends,hle,hrange,_⟩ := h
  obtain ⟨offset,hindex,hvalue⟩ := hends
  rintro (hnone | ⟨value,hstring,hparsed⟩ | ⟨start',finish',hstarts',hends',hlt⟩ |
    ⟨finish',hends',hlt⟩)
  · rw [hnone] at hindex
    cases hindex
  · rcases hstring with hstring | hstring
    · rw [WireTextSegment.StartsAt, hstring, Option.elim_some, WireOffset.value, hparsed] at hstarts
      cases hstarts
    · rw [hindex, Option.some.injEq] at hstring
      rw [hstring, WireOffset.value, hparsed] at hvalue
      cases hvalue
  · rw [startsAt_unique hstarts' hstarts, endsAt_unique hends' ⟨offset,hindex,hvalue⟩] at hlt
    omega
  · rw [endsAt_unique hends' ⟨offset,hindex,hvalue⟩] at hlt
    omega

theorem denotes_unique {piece piece' : List Char} (h : Denotes text segment piece)
    (h' : Denotes text segment piece') : piece = piece' := by
  obtain ⟨start,finish,hstarts,hends,_,_,rfl⟩ := h
  obtain ⟨start',finish',hstarts',hends',_,_,rfl⟩ := h'
  rw [startsAt_unique hstarts hstarts', endsAt_unique hends hends']

end Segments

/-! ### The text of an anchor -/

/-- The loop joins what the segments denote, or stops at one which denotes nothing. -/
theorem segments_resolve (text : String) (segments : List WireTextSegment) (value : List Char) :
    (∃ pieces, List.Forall₂ (Denotes text) segments pieces ∧ segments.foldlM
        (fun value segment => do .ok (value++(← (AnchoredText.new text).segment segment))) value =
          .ok (value++pieces.flatten)) ∨
    ((∃ segment ∈ segments, Faulty text segment) ∧ segments.foldlM
      (fun value segment => do .ok (value++(← (AnchoredText.new text).segment segment))) value =
        .error .permanent) := by
  induction segments generalizing value with
  | nil =>
    left
    refine ⟨[],.nil,?_⟩
    rw [List.flatten_nil, List.append_nil]
    rfl
  | cons segment segments ih =>
    rw [List.foldlM_cons]
    rcases segment_resolves text segment with ⟨piece,hpiece,hdenotes⟩ | ⟨herror,hfaulty⟩
    · rw [hpiece, ok_bind, ok_bind]
      rcases ih (value++piece) with ⟨pieces,hpieces,hvalue⟩ | ⟨⟨faulty,hmem,hfaulty⟩,herror⟩
      · left
        refine ⟨piece::pieces,.cons hdenotes hpieces,?_⟩
        rw [hvalue, List.flatten_cons, List.append_assoc]
      · exact Or.inr ⟨⟨faulty,List.mem_cons_of_mem segment hmem,hfaulty⟩,herror⟩
    · right
      rw [herror, error_bind, error_bind]
      exact ⟨⟨segment,List.mem_cons_self,hfaulty⟩,rfl⟩

/-- The segments denote the characters. -/
def Resolves (text : String) (segments : List WireTextSegment) (value : List Char) : Prop :=
  ∃ pieces, List.Forall₂ (Denotes text) segments pieces ∧ value = pieces.flatten

theorem resolves_unique {text : String} {segments : List WireTextSegment}
    {value value' : List Char} (h : Resolves text segments value)
    (h' : Resolves text segments value') : value = value' := by
  obtain ⟨pieces,hpieces,rfl⟩ := h
  obtain ⟨pieces',hpieces',rfl⟩ := h'
  congr 1
  induction hpieces generalizing pieces' with
  | nil =>
    cases hpieces'
    rfl
  | cons hdenotes _ ih =>
    cases hpieces' with
    | cons hdenotes' hrest' => rw [denotes_unique hdenotes hdenotes', ih _ hrest']

theorem resolves_not_faulty {text : String} {segments : List WireTextSegment}
    {value : List Char} (h : Resolves text segments value) :
    ¬∃ segment ∈ segments, Faulty text segment := by
  obtain ⟨pieces,hpieces,rfl⟩ := h
  rintro ⟨segment,hmem,hfaulty⟩
  induction hpieces with
  | nil => cases hmem
  | cons hdenotes _ ih =>
    rcases List.mem_cons.mp hmem with rfl | hmem
    · exact denotes_not_faulty hdenotes hfaulty
    · exact ih hmem

/-- The text is blank or longer than a recognized text may be. -/
def Unusable (value : List Char) : Prop :=
  value.all isWhitespace = true ∨ maximumTextBytes < (String.ofList value).utf8ByteSize

/-- What `resolve` returns, by what the segments denote. -/
inductive Outcome (text : String) (segments : List WireTextSegment) : Except Stop String → Prop
  | empty : segments = [] → Outcome text segments (.error .permanent)
  | faulty : (∃ segment ∈ segments, Faulty text segment) → Outcome text segments (.error .permanent)
  | unusable {value : List Char} : Resolves text segments value → Unusable value →
      Outcome text segments (.error .permanent)
  | text {value : List Char} : segments ≠ [] → Resolves text segments value → ¬Unusable value →
      Outcome text segments (.ok (String.ofList value))

theorem resolve_outcome (text : String) (anchor : WireTextAnchor) :
    Outcome text anchor.textSegments ((AnchoredText.new text).resolve anchor) := by
  rw [AnchoredText.resolve]
  by_cases hempty : anchor.textSegments = []
  · rw [if_pos hempty]
    exact .empty hempty
  rw [if_neg hempty]
  rcases segments_resolve text anchor.textSegments [] with ⟨pieces,hpieces,hvalue⟩ | ⟨hfaulty,herror⟩
  · have hresolves : Resolves text anchor.textSegments pieces.flatten := ⟨pieces,hpieces,rfl⟩
    have hunusable : Unusable pieces.flatten ↔
        pieces.flatten.all isWhitespace = true ∨ maximumTextBytes < charsSize pieces.flatten := by
      rw [Unusable, ← charsSize_toList, String.toList_ofList]
    rw [hvalue, ok_bind, List.nil_append]
    split
    · rename_i h
      exact .unusable hresolves (hunusable.mpr h)
    · rename_i h
      exact .text hempty hresolves fun hbad => h (hunusable.mp hbad)
  · rw [herror, error_bind]
    exact .faulty hfaulty

/-- An anchor is resolved to the characters which its segments denote, and fails exactly
when it has none, when one of them denotes nothing and when the text is of no use. -/
theorem resolve_exact (text : String) (anchor : WireTextAnchor) :
    (AnchoredText.new text).resolve anchor ≠ .error .panic ∧
    (∀ value, (AnchoredText.new text).resolve anchor = .ok value ↔
      anchor.textSegments ≠ [] ∧ Resolves text anchor.textSegments value.toList ∧
      ¬Unusable value.toList) ∧
    ((AnchoredText.new text).resolve anchor = .error .permanent ↔
      anchor.textSegments = [] ∨ (∃ segment ∈ anchor.textSegments, Faulty text segment) ∨
      ∃ value, Resolves text anchor.textSegments value ∧ Unusable value) := by
  have houtcome := resolve_outcome text anchor
  generalize hresult : (AnchoredText.new text).resolve anchor = result at houtcome
  cases houtcome with
  | empty hempty =>
    refine ⟨nofun,fun value => ?_,iff_of_true rfl (Or.inl hempty)⟩
    exact iff_of_false nofun fun h => h.1 hempty
  | faulty hfaulty =>
    refine ⟨nofun,fun value => ?_,iff_of_true rfl (Or.inr (Or.inl hfaulty))⟩
    exact iff_of_false nofun fun h => resolves_not_faulty h.2.1 hfaulty
  | unusable hresolves hunusable =>
    refine ⟨nofun,fun value => ?_,iff_of_true rfl (Or.inr (Or.inr ⟨_,hresolves,hunusable⟩))⟩
    exact iff_of_false nofun fun h => h.2.2 (resolves_unique h.2.1 hresolves ▸ hunusable)
  | text hne hresolves husable =>
    rename_i resolved
    refine ⟨nofun,fun value => ?_,iff_of_false nofun ?_⟩
    · rw [Except.ok.injEq]
      constructor
      · intro heq
        rw [← heq, String.toList_ofList]
        exact ⟨hne,hresolves,husable⟩
      · intro h
        rw [resolves_unique hresolves h.2.1, String.ofList_toList]
    · rintro (hempty | hfaulty | ⟨other,hother,hunusable⟩)
      · exact hne hempty
      · exact resolves_not_faulty hresolves hfaulty
      · exact husable (resolves_unique hother hresolves ▸ hunusable)

/-! ### An offset which is no number -/

def misspelled : WireTextAnchor := ⟨[⟨none,some (.string "1x")⟩]⟩

/-- An anchor fails for an offset which cannot be read, though the segment has an end and
is neither inverted nor out of range. -/
theorem misspelled_fails : (AnchoredText.new "Total").resolve misspelled = .error .permanent ∧
    ¬(misspelled.textSegments = [] ∨
      (∃ segment ∈ misspelled.textSegments, segment.endIndex = none ∨ Inverted segment ∨
        OutOfRange "Total" segment) ∨
      ∃ value, Resolves "Total" misspelled.textSegments value ∧ Unusable value) := by
  have hends : ∀ finish, ¬(⟨none,some (.string "1x")⟩ : WireTextSegment).EndsAt finish := by
    rintro finish ⟨offset,hoffset,hvalue⟩
    rw [Option.some.injEq] at hoffset
    rw [← hoffset] at hvalue
    cases hvalue
  constructor
  · rfl
  · rintro (hempty | ⟨segment,hmem,hsegment⟩ | ⟨value,⟨pieces,hpieces,_⟩,_⟩)
    · cases hempty
    · rw [misspelled, List.mem_singleton] at hmem
      subst segment
      rcases hsegment with hnone | ⟨_,finish,_,hend,_⟩ | ⟨finish,hend,_⟩
      · cases hnone
      · exact hends finish hend
      · exact hends finish hend
    · cases hpieces with
      | cons hdenotes _ =>
        obtain ⟨_,finish,_,hend,_⟩ := hdenotes
        exact hends finish hend

end DocumentIntelligence.TextAnchors
