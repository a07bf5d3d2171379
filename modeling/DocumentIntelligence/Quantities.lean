import Mathlib

/-!
# Quantities in a line of text

The scanner reads the numbers of a line with their units. The value of a decimal number is a
parameter, so a number is known by its digits.
-/

set_option autoImplicit false

namespace DocumentIntelligence.Quantities

/-- `char::is_alphabetic` -/
structure Letters where
  alphabetic : Char → Bool
  ascii : ∀ c, c.toNat < 128 → alphabetic c = c.isAlpha
  micro : alphabetic 'µ' = true

inductive Unit where
  | kj
  | kcal
  | g
  | mg
  | mcg
  | ml
  | percent
  | other
  deriving DecidableEq, Repr

/-- What the scanner reads at one place, before the number is parsed. -/
structure Token where
  start : ℕ
  number : List Char
  unit : Option Unit
  upperBound : Bool
  deriving DecidableEq, Repr

structure Quantity (F : Type) where
  amount : F
  unit : Option Unit
  upperBound : Bool

def nextIsDigit (cs : List Char) : Bool := cs.head?.any Char.isDigit

/-- The digits of a number, with a point for a decimal comma and without the commas of groups,
and what comes after it. -/
def readNumber : List Char → List Char × List Char
  | [] => ([],[])
  | c::cs =>
    if c.isDigit then (c::(readNumber cs).1,(readNumber cs).2)
    else if c == '.' && nextIsDigit cs then ('.'::(readNumber cs).1,(readNumber cs).2)
    else if c == ',' && nextIsDigit cs then
      if (cs.takeWhile Char.isDigit).length ≠ 3 then ('.'::(readNumber cs).1,(readNumber cs).2)
      else readNumber cs
    else ([],c::cs)

def knownUnits : List (List Char × Unit) :=
  [("kj".toList,.kj),("kcal".toList,.kcal),("cal".toList,.kcal),("calories".toList,.kcal),
    ("g".toList,.g),("gm".toList,.g),("grams".toList,.g),("mg".toList,.mg),("mcg".toList,.mcg),
    ("µg".toList,.mcg),("ug".toList,.mcg),("ml".toList,.ml),("%".toList,.percent)]

def unitOf (word : List Char) : Option Unit :=
  if word = [] then none else some (((knownUnits.find? (·.1 == word)).map (·.2)).getD .other)

section Scan
variable (letters : Letters)

def wordCharacter (c : Char) : Bool := letters.alphabetic c || c == '%'

def isBlank (c : Char) : Bool := c == ' '

def word (rest : List Char) : List Char :=
  (rest.dropWhile isBlank).takeWhile (wordCharacter letters)

/-- Where the scan goes on after a number and its unit. -/
def next (rest : List Char) : List Char :=
  if (unitOf (word letters rest)).isSome then
    (rest.dropWhile isBlank).dropWhile (wordCharacter letters)
  else rest

/-- What is before the number, from its end, says that the number is a bound. -/
def isUpperBound (before : List Char) : Bool :=
  let before := before.dropWhile isBlank
  before.head? == some '<' || before.take 9 == "less than".toList.reverse

def token (before rest : List Char) : Token where
  start := before.length
  number := (readNumber rest).1
  unit := unitOf (word letters (readNumber rest).2)
  upperBound := isUpperBound before

/-- What is before the place where the rest is `after`, from its end. -/
def past (before rest after : List Char) : List Char :=
  (rest.take (rest.length-after.length)).reverse++before

/-- No number starts at the character. -/
def skipped (before : List Char) (c : Char) : Bool :=
  !c.isDigit || before.head?.any letters.alphabetic

/-- The scan of a text after what is before it, from its end. It gives no result if the fuel
does not reach to the end. -/
def scan : ℕ → List Char → List Char → Option (List Token)
  | _,_,[] => some []
  | 0,_,_::_ => none
  | fuel+1,before,c::cs =>
    if skipped letters before c then scan fuel (c::before) cs
    else
      let after := next letters (readNumber (c::cs)).2
      (scan fuel (past before (c::cs) after) after).map (token letters before (c::cs)::·)

def tokens (text : List Char) : List Token := (scan letters text.length [] text).getD []

/-- A decimal number has at most one point. -/
def Token.readable (t : Token) : Bool := decide (t.number.count '.' ≤ 1)

section Amounts
variable {F : Type} (decimal : List Char → F)

/-- `str::parse` of digits with points between them. -/
def parse (number : List Char) : Option F :=
  if number.count '.' ≤ 1 then some (decimal number) else none

def Token.quantity (t : Token) : Option (Quantity F) :=
  (parse decimal t.number).map fun amount => ⟨amount,t.unit,t.upperBound⟩

def quantities (text : List Char) : List (Quantity F) :=
  (tokens letters text).filterMap (Token.quantity decimal)

end Amounts

/-! ### The scan as a relation -/

/-- The scan reads the tokens. -/
inductive Scans : List Char → List Char → List Token → Prop
  | done (before : List Char) : Scans before [] []
  | skip {before cs : List Char} {c : Char} {ts : List Token} : skipped letters before c = true →
      Scans (c::before) cs ts → Scans before (c::cs) ts
  | read {before cs : List Char} {c : Char} {ts : List Token} : skipped letters before c = false →
      Scans (past before (c::cs) (next letters (readNumber (c::cs)).2))
        (next letters (readNumber (c::cs)).2) ts →
      Scans before (c::cs) (token letters before (c::cs)::ts)

theorem skipped_eq_false {before : List Char} {c : Char} :
    skipped letters before c = false ↔
      c.isDigit = true ∧ before.head?.any letters.alphabetic = false := by
  simp [skipped]

theorem readNumber_digit {c : Char} (h : c.isDigit = true) (cs : List Char) :
    readNumber (c::cs) = (c::(readNumber cs).1,(readNumber cs).2) := by
  rw [readNumber, if_pos h]

theorem readNumber_suffix (cs : List Char) : (readNumber cs).2 <:+ cs := by
  induction cs with
  | nil => exact List.suffix_rfl
  | cons c cs ih =>
    rw [readNumber]
    split_ifs
    · exact ih.trans (List.suffix_cons c cs)
    · exact ih.trans (List.suffix_cons c cs)
    · exact ih.trans (List.suffix_cons c cs)
    · exact ih.trans (List.suffix_cons c cs)
    · exact List.suffix_rfl

theorem next_suffix (rest : List Char) : next letters rest <:+ rest := by
  unfold next
  split
  · exact (List.dropWhile_suffix _).trans (List.dropWhile_suffix _)
  · exact List.suffix_rfl

/-- The scan gets on behind each number. -/
theorem next_shorter {c : Char} (h : c.isDigit = true) (cs : List Char) :
    (next letters (readNumber (c::cs)).2).length < (c::cs).length := by
  rw [readNumber_digit h, List.length_cons]
  exact Nat.lt_succ_of_le
    (((next_suffix letters _).trans (readNumber_suffix cs)).length_le)

theorem past_eq {before rest consumed after : List Char} (h : rest = consumed++after) :
    past before rest after = consumed.reverse++before := by
  rw [h, past, List.length_append, Nat.add_sub_cancel, List.take_left]

theorem past_reverse {before rest after : List Char} (h : after <:+ rest) :
    (past before rest after).reverse++after = before.reverse++rest := by
  obtain ⟨consumed,rfl⟩ := h
  rw [past_eq rfl, List.reverse_append, List.reverse_reverse, List.append_assoc]

/-- The scan ends, and more fuel than characters changes nothing. -/
theorem scan_scans {fuel : ℕ} (before : List Char) {rest : List Char} (h : rest.length ≤ fuel) :
    ∃ ts, scan letters fuel before rest = some ts ∧ Scans letters before rest ts := by
  induction fuel generalizing before rest with
  | zero =>
    rw [List.length_eq_zero_iff.mp (Nat.le_zero.mp h)]
    exact ⟨[],by rw [scan],Scans.done before⟩
  | succ fuel ih =>
    cases rest with
    | nil => exact ⟨[],by rw [scan],Scans.done before⟩
    | cons c cs =>
      rw [List.length_cons] at h
      rw [scan]
      by_cases hskip : skipped letters before c = true
      · obtain ⟨ts,hscan,hread⟩ := ih (c::before) (Nat.le_of_succ_le_succ h)
        exact ⟨ts,by rw [if_pos hskip, hscan],Scans.skip hskip hread⟩
      · have hread := Bool.not_eq_true _ ▸ hskip
        have hdigit := ((skipped_eq_false letters).mp hread).1
        have hshort := next_shorter letters hdigit cs
        rw [List.length_cons] at hshort
        have hfuel : (next letters (readNumber (c::cs)).2).length ≤ fuel := by omega
        obtain ⟨ts,hscan,hscans⟩ :=
          ih (past before (c::cs) (next letters (readNumber (c::cs)).2)) hfuel
        refine ⟨_,?_,Scans.read hread hscans⟩
        rw [if_neg hskip]
        show (scan letters fuel _ _).map _ = _
        rw [hscan, Option.map_some]

theorem scans_unique {before rest : List Char} {ts us : List Token} (h : Scans letters before rest ts)
    (h' : Scans letters before rest us) : ts = us := by
  induction h generalizing us with
  | done before =>
    cases h'
    rfl
  | skip hskip _ ih =>
    cases h' with
    | skip _ h' => exact ih h'
    | read hread _ => exact absurd (hskip.symm.trans hread) (by decide)
  | read hread _ ih =>
    cases h' with
    | skip hskip _ => exact absurd (hskip.symm.trans hread) (by decide)
    | read _ h' => rw [ih h']

theorem tokens_scans (text : List Char) : Scans letters [] text (tokens letters text) := by
  obtain ⟨ts,hscan,hscans⟩ := scan_scans letters [] (le_refl text.length)
  rw [tokens, hscan]
  exact hscans

theorem tokens_eq {text : List Char} {ts : List Token} (h : Scans letters [] text ts) :
    tokens letters text = ts :=
  scans_unique letters (tokens_scans letters text) h

/-! ### What one number takes up -/

def numeric (c : Char) : Bool := c.isDigit || c == '.' || c == ','

theorem isDigit_bound {c : Char} (h : c.isDigit = true) : 48 ≤ c.toNat ∧ c.toNat ≤ 57 := by
  simp only [Char.isDigit, Bool.and_eq_true, decide_eq_true_eq, ge_iff_le,
    UInt32.le_iff_toNat_le] at h
  exact h

theorem digit_alphabetic {c : Char} (h : c.isDigit = true) : letters.alphabetic c = false := by
  have hbound := isDigit_bound h
  rw [letters.ascii c (by omega), Char.isAlpha, Char.isUpper, Char.isLower]
  have hval : c.val.toNat = c.toNat := rfl
  have hA : 'A'.val.toNat = 65 := rfl
  have ha : 'a'.val.toNat = 97 := rfl
  simp only [Bool.or_eq_false_iff, Bool.and_eq_false_iff, decide_eq_false_iff_not, ge_iff_le,
    UInt32.le_iff_toNat_le]
  omega

theorem numeric_alphabetic {c : Char} (h : numeric c = true) : letters.alphabetic c = false := by
  simp only [numeric, Bool.or_eq_true, beq_iff_eq] at h
  rcases h with (hdigit | rfl) | rfl
  · exact digit_alphabetic letters hdigit
  · rw [letters.ascii _ (by decide)]
    decide
  · rw [letters.ascii _ (by decide)]
    decide

theorem wordCharacter_digit {c : Char} (h : wordCharacter letters c = true) : c.isDigit = false := by
  by_contra hdigit
  rw [Bool.not_eq_false] at hdigit
  rw [wordCharacter, digit_alphabetic letters hdigit, Bool.false_or, beq_iff_eq] at h
  rw [h] at hdigit
  exact absurd hdigit (by decide)

theorem readNumber_parts (cs : List Char) : ∃ read, cs = read++(readNumber cs).2 ∧
    (∀ c ∈ read, numeric c = true) ∧ ∀ c, (readNumber cs).2.head? = some c → c.isDigit = false := by
  induction cs with
  | nil => exact ⟨[],rfl,by simp,by simp [readNumber]⟩
  | cons c cs ih =>
    obtain ⟨read,hsplit,hnumeric,hend⟩ := ih
    have hmore : numeric c = true → (readNumber (c::cs)).2 = (readNumber cs).2 →
        ∃ read, c::cs = read++(readNumber (c::cs)).2 ∧ (∀ c ∈ read, numeric c = true) ∧
          ∀ d, (readNumber (c::cs)).2.head? = some d → d.isDigit = false := by
      intro hc hsame
      rw [hsame]
      refine ⟨c::read,by rw [List.cons_append, ← hsplit],?_,hend⟩
      intro d hd
      rcases List.mem_cons.mp hd with rfl | hd
      · exact hc
      · exact hnumeric d hd
    by_cases hdigit : c.isDigit = true
    · exact hmore (by simp [numeric, hdigit]) (by rw [readNumber_digit hdigit])
    · by_cases hpoint : (c == '.' && nextIsDigit cs) = true
      · refine hmore ?_ (by rw [readNumber, if_neg hdigit, if_pos hpoint])
        rw [Bool.and_eq_true] at hpoint
        simp [numeric, hpoint.1]
      · by_cases hcomma : (c == ',' && nextIsDigit cs) = true
        · refine hmore ?_ ?_
          · rw [Bool.and_eq_true] at hcomma
            simp [numeric, hcomma.1]
          · rw [readNumber, if_neg hdigit, if_neg hpoint, if_pos hcomma]
            split <;> rfl
        · have hstop : readNumber (c::cs) = ([],c::cs) := by
            rw [readNumber, if_neg hdigit, if_neg hpoint, if_neg hcomma]
          rw [hstop]
          refine ⟨[],rfl,by simp,?_⟩
          intro d hd
          rw [List.head?_cons, Option.some.injEq] at hd
          rw [← hd]
          exact Bool.not_eq_true _ ▸ hdigit

theorem next_parts (rest : List Char) : ∃ read, rest = read++next letters rest ∧
    ∀ c ∈ read, c.isDigit = false := by
  have hno : ∀ blanks word : List Char, (∀ c ∈ blanks, isBlank c = true) →
      (∀ c ∈ word, wordCharacter letters c = true) → ∀ c ∈ blanks++word, c.isDigit = false := by
    intro blanks word hblanks hword c hc
    rcases List.mem_append.mp hc with hc | hc
    · have hblank := hblanks c hc
      rw [isBlank, beq_iff_eq] at hblank
      rw [hblank]
      rfl
    · exact wordCharacter_digit letters (hword c hc)
  unfold next
  split
  · refine ⟨rest.takeWhile isBlank++word letters rest,?_,?_⟩
    · rw [List.append_assoc, word, List.takeWhile_append_dropWhile, List.takeWhile_append_dropWhile]
    · exact hno _ _ (fun c hc => List.mem_takeWhile_imp hc) (fun c hc => List.mem_takeWhile_imp hc)
  · exact ⟨[],rfl,by simp⟩

/-- A number and its unit take up digits, points and commas, and then no digits. -/
theorem read_parts (rest : List Char) : ∃ number unit,
    rest = number++unit++next letters (readNumber rest).2 ∧ (∀ d ∈ number, numeric d = true) ∧
      (∀ d ∈ unit, d.isDigit = false) ∧
      (unit = [] → ∀ d, (next letters (readNumber rest).2).head? = some d → d.isDigit = false) := by
  obtain ⟨number,hnumber,hnumeric,hend⟩ := readNumber_parts rest
  obtain ⟨unit,hunit,hno⟩ := next_parts letters (readNumber rest).2
  refine ⟨number,unit,?_,hnumeric,hno,?_⟩
  · rw [List.append_assoc, ← hunit, ← hnumber]
  · intro hnil d hd
    rw [hnil, List.nil_append] at hunit
    exact hend d (by rw [hunit]; exact hd)

/-! ### Digits which follow a letter -/

/-- The place is the first digit of a run of digits which no letter precedes. -/
def StartsRun (text : List Char) (start : ℕ) : Prop :=
  ∃ before c rest, text = before++c::rest ∧ before.length = start ∧ c.isDigit = true ∧
    ∀ d, before.getLast? = some d → letters.alphabetic d = false ∧ d.isDigit = false

/-- A digit which follows a digit at the place of the scan is the second one after a letter. -/
def Glued (before rest : List Char) : Prop :=
  ∀ c cs d ds, before = c::cs → rest = d::ds → c.isDigit = true → d.isDigit = true →
    ∃ l ls, cs = l::ls ∧ letters.alphabetic l = true

theorem glued_skip {before cs : List Char} {c : Char} (h : skipped letters before c = true) :
    Glued letters (c::before) cs := by
  intro d ds e es hbefore hrest hd _
  rw [List.cons.injEq] at hbefore
  rw [← hbefore.1] at hd
  rw [skipped, hd, Bool.not_true, Bool.false_or] at h
  rw [← hbefore.2]
  cases hhead : before with
  | nil =>
    rw [hhead] at h
    cases h
  | cons l ls =>
    rw [hhead] at h
    exact ⟨l,ls,rfl,h⟩

theorem glued_read (before rest : List Char) :
    Glued letters (past before rest (next letters (readNumber rest).2))
      (next letters (readNumber rest).2) := by
  obtain ⟨number,unit,hsplit,hnumeric,hno,hend⟩ := read_parts letters rest
  intro c cs d ds hbefore hrest hc hd
  cases hunit : unit.reverse with
  | nil =>
    have hdigit := hend (List.reverse_eq_nil_iff.mp hunit) d (by rw [hrest]; rfl)
    rw [hd] at hdigit
    cases hdigit
  | cons e es =>
    rw [past_eq hsplit, List.reverse_append, hunit, List.cons_append, List.cons_append, List.cons.injEq]
      at hbefore
    have hmem : e ∈ unit := List.mem_reverse.mp (hunit ▸ List.mem_cons_self)
    rw [← hbefore.1, hno e hmem] at hc
    cases hc

/-- Where the scan reads a token, and what is before it. -/
theorem scans_mem {before rest : List Char} {ts : List Token} (h : Scans letters before rest ts)
    (hglued : Glued letters before rest) : ∀ t ∈ ts, ∃ b c cs,
      b.reverse++c::cs = before.reverse++rest ∧ skipped letters b c = false ∧
        Glued letters b (c::cs) ∧ t = token letters b (c::cs) := by
  induction h with
  | done before => exact fun t ht => absurd ht (by simp)
  | skip hskip _ ih =>
    intro t ht
    obtain ⟨b,c,cs,hsplit,hrest⟩ := ih (glued_skip letters hskip) t ht
    refine ⟨b,c,cs,?_,hrest⟩
    rw [hsplit, List.reverse_cons, List.append_assoc]
    rfl
  | @read before cs c ts hread _ ih =>
    intro t ht
    rcases List.mem_cons.mp ht with rfl | ht
    · exact ⟨before,c,cs,rfl,hread,hglued,rfl⟩
    · obtain ⟨b,d,ds,hsplit,hrest⟩ := ih (glued_read letters before (c::cs)) t ht
      refine ⟨b,d,ds,?_,hrest⟩
      rw [hsplit]
      exact past_reverse ((next_suffix letters _).trans (readNumber_suffix _))

/-- The scan stops at each digit which follows a letter. -/
theorem scans_visit {before rest : List Char} {ts : List Token} (h : Scans letters before rest ts)
    {front tail : List Char} {l d : Char} (hrest : rest = front++d::tail) (hd : d.isDigit = true)
    (hl : (front.reverse++before).head? = some l) (hletter : letters.alphabetic l = true) :
    ∃ us, Scans letters (front.reverse++before) (d::tail) us ∧ us ⊆ ts := by
  induction h generalizing front with
  | done before =>
    cases front <;> cases hrest
  | @skip before cs c ts hskip hscans ih =>
    cases front with
    | nil =>
      rw [List.nil_append] at hrest
      rw [← hrest]
      exact ⟨ts,Scans.skip hskip hscans,List.Subset.refl _⟩
    | cons e front =>
      rw [List.cons_append, List.cons.injEq] at hrest
      have hfront : (e::front).reverse++before = front.reverse++c::before := by
        rw [List.reverse_cons, List.append_assoc, hrest.1]
        rfl
      rw [hfront] at hl ⊢
      exact ih hrest.2 hl
  | @read before cs c ts hread hscans ih =>
    obtain ⟨number,unit,hsplit,hnumeric,hno,_⟩ := read_parts letters (c::cs)
    by_cases hempty : front = []
    · rw [hempty] at hrest ⊢
      rw [List.nil_append] at hrest
      rw [← hrest]
      exact ⟨_,Scans.read hread hscans,List.Subset.refl _⟩
    -- The number holds no letter, and the unit no digit.
    have hlast : l ∈ front := by
      cases hf : front.reverse with
      | nil => exact absurd (List.reverse_eq_nil_iff.mp hf) hempty
      | cons e es =>
        rw [hf, List.cons_append, List.head?_cons, Option.some.injEq] at hl
        rw [← hl, ← List.mem_reverse, hf]
        exact List.mem_cons_self
    have hbehind : ∃ more, front = number++unit++more := by
      rw [hrest, List.append_assoc] at hsplit
      rcases List.append_eq_append_iff.mp hsplit with ⟨as,has,hds⟩ | ⟨bs,hbs,hds⟩
      · exact absurd (numeric_alphabetic letters (hnumeric l (has ▸ List.mem_append_left _ hlast)))
          (by rw [hletter]; decide)
      · rcases List.append_eq_append_iff.mp hds with ⟨as,has,_⟩ | ⟨as,has,has'⟩
        · exact ⟨as,by rw [hbs, has, List.append_assoc]⟩
        · cases as with
          | nil =>
            exact ⟨[],by rw [hbs, has, List.append_nil, List.append_nil]⟩
          | cons a as =>
            rw [List.cons_append, List.cons.injEq] at has'
            have hmem : d ∈ unit := by
              rw [has, has'.1]
              exact List.mem_append_right _ List.mem_cons_self
            rw [hno d hmem] at hd
            cases hd
    obtain ⟨more,hmore⟩ := hbehind
    have hnext : next letters (readNumber (c::cs)).2 = more++d::tail := by
      have hsame := hrest.symm.trans hsplit
      rw [hmore, List.append_assoc] at hsame
      exact (List.append_cancel_left hsame).symm
    have hfront : front.reverse++before =
        more.reverse++past before (c::cs) (next letters (readNumber (c::cs)).2) := by
      rw [hmore, past_eq hsplit, List.reverse_append, List.append_assoc]
    rw [hfront] at hl ⊢
    obtain ⟨us,hus,hsub⟩ := ih hnext hl
    exact ⟨us,hus,fun t ht => List.mem_cons_of_mem _ (hsub ht)⟩

/-- The number which follows the first digit after a letter does not parse. -/
def Unglued (text : List Char) : Prop :=
  ∀ front l d e rest, text = front++l::d::e::rest → letters.alphabetic l = true →
    d.isDigit = true → e.isDigit = true → 1 < (readNumber (e::rest)).1.count '.'

theorem parse_some {F : Type} {decimal : List Char → F} {number : List Char} {amount : F} :
    parse decimal number = some amount ↔ number.count '.' ≤ 1 ∧ decimal number = amount := by
  unfold parse
  split <;> simp_all

theorem quantity_some {F : Type} {decimal : List Char → F} {t : Token} {q : Quantity F} :
    t.quantity decimal = some q ↔ t.number.count '.' ≤ 1 ∧
      q = ⟨decimal t.number,t.unit,t.upperBound⟩ := by
  rw [Token.quantity, Option.map_eq_some_iff]
  simp only [parse_some]
  constructor
  · rintro ⟨_,⟨hcount,rfl⟩,rfl⟩
    exact ⟨hcount,rfl⟩
  · rintro ⟨hcount,rfl⟩
    exact ⟨_,⟨hcount,rfl⟩,rfl⟩

/-- Each quantity starts a run of digits which no letter precedes exactly if no letter is
followed by a digit and a readable number. -/
theorem quantities_start {F : Type} (decimal : List Char → F) (text : List Char) :
    (∀ t ∈ tokens letters text, ∀ q, t.quantity decimal = some q →
      StartsRun letters text t.start) ↔ Unglued letters text := by
  constructor
  · intro hstart front l d e rest htext hl hd he
    by_contra hcount
    have hsplit : text = (front++[l])++d::e::rest := by
      rw [htext, List.append_assoc]
      rfl
    obtain ⟨us,hus,hsub⟩ :=
      scans_visit letters (tokens_scans letters text) hsplit hd (by simp) hl
    have hskip : skipped letters ((front++[l]).reverse++[]) d = true := by
      simp [skipped, hl]
    have hread : skipped letters (d::((front++[l]).reverse++[])) e = false := by
      rw [skipped_eq_false]
      exact ⟨he,digit_alphabetic letters hd⟩
    cases hus with
    | read hnot _ => exact absurd (hskip.symm.trans hnot) (by decide)
    | skip _ hus =>
      cases hus with
      | skip hnot _ => exact absurd (hnot.symm.trans hread) (by decide)
      | read _ _ =>
        obtain ⟨before,c,cs,hsplit,hlength,_,hbefore⟩ := hstart _ (hsub List.mem_cons_self) _
          (quantity_some.mpr ⟨not_lt.mp hcount,rfl⟩)
        have hfront : before = front++[l,d] := by
          have hsame : before++c::cs = (front++[l,d])++e::rest := by
            rw [← hsplit, htext, List.append_assoc]
            rfl
          refine (List.append_inj hsame ?_).1
          rw [hlength]
          simp [token]
        have hlast := (hbefore d (by rw [hfront]; simp)).2
        rw [hd] at hlast
        cases hlast
  · intro hunglued t ht q hq
    obtain ⟨b,c,cs,hsplit,hread,hglued,rfl⟩ := scans_mem letters (tokens_scans letters text)
      (fun _ _ _ _ hnil => by cases hnil) t ht
    obtain ⟨hdigit,hletter⟩ := (skipped_eq_false letters).mp hread
    refine ⟨b.reverse,c,cs,hsplit.symm,by rw [List.length_reverse]; rfl,hdigit,?_⟩
    intro d hlast
    rw [List.getLast?_reverse] at hlast
    rw [hlast, Option.any_some] at hletter
    refine ⟨hletter,?_⟩
    by_contra hd
    rw [Bool.not_eq_false] at hd
    cases b with
    | nil => cases hlast
    | cons d' ds =>
      rw [List.head?_cons, Option.some.injEq] at hlast
      obtain ⟨l,ls,rfl,hl⟩ := hglued d' ds c cs rfl rfl (hlast ▸ hd) hdigit
      have hcount := hunglued ls.reverse l d' c cs (by simpa using hsplit.symm) hl (hlast ▸ hd) hdigit
      exact absurd (quantity_some.mp hq).1 (not_le.mpr hcount)

end Scan

/-- The letters of ASCII and the sign of a millionth. -/
def asciiLetters : Letters where
  alphabetic := fun c => c.isAlpha || c == 'µ'
  ascii := by
    intro c hc
    by_cases hmicro : c = 'µ'
    · rw [hmicro] at hc
      exact absurd hc (by decide)
    · simp [hmicro]
  micro := by decide

theorem glued_digits : ¬ ∀ t ∈ tokens asciiLetters "b12".toList, ∀ q,
    t.quantity (fun number => number) = some q → StartsRun asciiLetters "b12".toList t.start := by
  intro h
  have htoken : tokens asciiLetters "b12".toList = [⟨2,['2'],none,false⟩] := by decide
  rw [htoken] at h
  obtain ⟨before,c,rest,htext,hlength,_,hbefore⟩ := h _ List.mem_cons_self _ rfl
  have hfront : before = ['b','1'] :=
    (List.append_inj (htext.symm.trans (show "b12".toList = ['b','1']++['2'] from rfl)) hlength).1
  have hlast := (hbefore '1' (by rw [hfront]; rfl)).2
  exact absurd hlast (by decide)

end DocumentIntelligence.Quantities
