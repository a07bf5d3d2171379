import DocumentIntelligence.Quantities

/-!
# Quantities as they are written

A line which holds numbers with units between other texts is read back by the scanner: the
numbers in their decimal form, with their units, in order.
-/

set_option autoImplicit false

namespace DocumentIntelligence.WrittenQuantities
open Quantities

/-- Digits, and at least one. -/
structure Digits where
  chars : List Char
  nonempty : chars ≠ []
  digits : ∀ c ∈ chars, c.isDigit = true

/-- A number of a label. -/
inductive Numeral where
  | grouped (whole : Digits) (groups : List {g : Digits // g.chars.length = 3})
      (fraction : Option Digits)
  | decimalComma (whole fraction : Digits) (h : fraction.chars.length ≠ 3)

def fractionChars : Option Digits → List Char
  | none => []
  | some fraction => '.'::fraction.chars

/-- The number as it is written. -/
def Numeral.chars : Numeral → List Char
  | .grouped whole groups fraction =>
    whole.chars++(groups.flatMap fun g => ','::g.1.chars)++fractionChars fraction
  | .decimalComma whole fraction _ => whole.chars++ ','::fraction.chars

/-- The number with a decimal point and without groups. -/
def Numeral.decimal : Numeral → List Char
  | .grouped whole groups fraction =>
    whole.chars++(groups.flatMap fun g => g.1.chars)++fractionChars fraction
  | .decimalComma whole fraction _ => whole.chars++ '.'::fraction.chars

/-- A unit which the scanner knows. -/
structure KnownUnit where
  chars : List Char
  unit : Quantities.Unit
  known : (chars,unit) ∈ knownUnits

structure Item where
  numeral : Numeral
  spaces : ℕ
  unit : KnownUnit

def Item.chars (item : Item) : List Char :=
  item.numeral.chars++(List.replicate item.spaces ' '++item.unit.chars)

section Lines
variable (letters : Letters)

/-- The text does not go on with the word before it. -/
def EndsWord (cs : List Char) : Prop := ∀ c, cs.head? = some c → wordCharacter letters c = false

/-- A text without digits which may follow a unit. -/
def Follows (cs : List Char) : Prop := (∀ c ∈ cs, c.isDigit = false) ∧ EndsWord letters cs

/-- A text without digits which does not end with a letter. -/
def Leads (cs : List Char) : Prop :=
  (∀ c ∈ cs, c.isDigit = false) ∧ ∀ c, cs.getLast? = some c → letters.alphabetic c = false

/-- A text between two quantities. -/
structure Separator where
  chars : List Char
  nonempty : chars ≠ []
  follows : Follows letters chars
  leads : Leads letters chars

/-- Quantities with texts around them. -/
structure WrittenLine where
  lead : List Char
  first : Item
  more : List (Separator letters × Item)
  trail : List Char
  leads : Leads letters lead
  follows : Follows letters trail

variable {letters}

def WrittenLine.items (line : WrittenLine letters) : List Item := line.first::line.more.map (·.2)

def moreChars (more : List (Separator letters × Item)) (trail : List Char) : List Char :=
  more.flatMap (fun m => m.1.chars++m.2.chars)++trail

def WrittenLine.chars (line : WrittenLine letters) : List Char :=
  line.lead++(line.first.chars++moreChars line.more line.trail)

/-! ### Numbers -/

/-- What follows a number is no digit and no part of it. -/
def NumberEnd (rest : List Char) : Prop :=
  ∀ c, rest.head? = some c → c.isDigit = false ∧ c ≠ '.' ∧ c ≠ ','

theorem readNumber_end {rest : List Char} (h : NumberEnd rest) : readNumber rest = ([],rest) := by
  cases rest with
  | nil => rfl
  | cons c cs =>
    obtain ⟨hdigit,hpoint,hcomma⟩ := h c rfl
    rw [readNumber, if_neg (by rw [hdigit]; decide), if_neg (by simp [hpoint]),
      if_neg (by simp [hcomma])]

theorem readNumber_digits {digits : List Char} (h : ∀ c ∈ digits, c.isDigit = true)
    (rest : List Char) :
    readNumber (digits++rest) = (digits++(readNumber rest).1,(readNumber rest).2) := by
  induction digits with
  | nil => rfl
  | cons c cs ih =>
    rw [List.cons_append, readNumber_digit (h c List.mem_cons_self),
      ih fun d hd => h d (List.mem_cons_of_mem _ hd)]
    rfl

theorem nextIsDigit_digits (digits : Digits) (rest : List Char) :
    nextIsDigit (digits.chars++rest) = true := by
  cases hchars : digits.chars with
  | nil => exact absurd hchars digits.nonempty
  | cons c cs =>
    have hdigit := digits.digits c (hchars ▸ List.mem_cons_self)
    simp [nextIsDigit, hdigit]

theorem takeWhile_digits (digits : Digits) {rest : List Char}
    (h : ∀ c, rest.head? = some c → c.isDigit = false) :
    (digits.chars++rest).takeWhile Char.isDigit = digits.chars := by
  rw [List.takeWhile_append_of_pos digits.digits]
  cases rest with
  | nil => simp
  | cons c cs => rw [List.takeWhile_cons_of_neg (by rw [h c rfl]; decide), List.append_nil]

theorem readNumber_point (fraction : Digits) (rest : List Char) :
    readNumber ('.'::(fraction.chars++rest)) =
      ('.'::(fraction.chars++(readNumber rest).1),(readNumber rest).2) := by
  rw [readNumber, if_neg (by decide), if_pos (by simp [nextIsDigit_digits]),
    readNumber_digits fraction.digits]

theorem readNumber_comma (digits : Digits) {rest : List Char}
    (h : ∀ c, rest.head? = some c → c.isDigit = false) :
    readNumber (','::(digits.chars++rest)) =
      ((if digits.chars.length ≠ 3 then ['.'] else [])++(digits.chars++(readNumber rest).1),
        (readNumber rest).2) := by
  rw [readNumber, if_neg (by decide), if_neg (by simp), if_pos (by simp [nextIsDigit_digits]),
    takeWhile_digits digits h, readNumber_digits digits.digits]
  split <;> rfl

theorem readNumber_fraction (fraction : Option Digits) {rest : List Char} (h : NumberEnd rest) :
    readNumber (fractionChars fraction++rest) = (fractionChars fraction,rest) := by
  cases fraction with
  | none => exact readNumber_end h
  | some digits =>
    rw [fractionChars, List.cons_append, readNumber_point, readNumber_end h, List.append_nil]

theorem fraction_head (fraction : Option Digits) {rest : List Char} (h : NumberEnd rest) :
    ∀ c, (fractionChars fraction++rest).head? = some c → c.isDigit = false := by
  cases fraction with
  | none => exact fun c hc => (h c hc).1
  | some digits =>
    intro c hc
    rw [fractionChars, List.cons_append, List.head?_cons, Option.some.injEq] at hc
    rw [← hc]
    rfl

theorem readNumber_groups (groups : List {g : Digits // g.chars.length = 3})
    (fraction : Option Digits) {rest : List Char} (h : NumberEnd rest) :
    readNumber ((groups.flatMap fun g => ','::g.1.chars)++(fractionChars fraction++rest)) =
      ((groups.flatMap fun g => g.1.chars)++fractionChars fraction,rest) := by
  induction groups with
  | nil => exact readNumber_fraction fraction h
  | cons g groups ih =>
    have hhead : ∀ c, ((groups.flatMap fun g => ','::g.1.chars)++
        (fractionChars fraction++rest)).head? = some c → c.isDigit = false := by
      cases groups with
      | nil => exact fraction_head fraction h
      | cons g' groups =>
        intro c hc
        rw [List.flatMap_cons, List.cons_append, List.cons_append, List.head?_cons,
          Option.some.injEq] at hc
        rw [← hc]
        rfl
    rw [List.flatMap_cons, List.cons_append, List.cons_append, List.append_assoc,
      readNumber_comma g.1 hhead, ih, if_neg (by rw [g.2]; decide), List.flatMap_cons]
    simp only [List.nil_append, List.append_assoc]

/-- A number is read as it is written. -/
theorem readNumber_numeral (numeral : Numeral) {rest : List Char} (h : NumberEnd rest) :
    readNumber (numeral.chars++rest) = (numeral.decimal,rest) := by
  cases numeral with
  | grouped whole groups fraction =>
    rw [Numeral.chars, Numeral.decimal, List.append_assoc, List.append_assoc,
      readNumber_digits whole.digits, readNumber_groups groups fraction h, List.append_assoc]
  | decimalComma whole fraction hlength =>
    rw [Numeral.chars, Numeral.decimal, List.append_assoc, List.cons_append,
      readNumber_digits whole.digits, readNumber_comma fraction fun c hc => (h c hc).1,
      if_pos hlength, readNumber_end h, List.append_nil]
    rfl

theorem count_digits {digits : List Char} (h : ∀ c ∈ digits, c.isDigit = true) :
    digits.count '.' = 0 := by
  rw [List.count_eq_zero]
  intro hmem
  exact absurd (h '.' hmem) (by decide)

theorem fraction_count (fraction : Option Digits) : (fractionChars fraction).count '.' ≤ 1 := by
  cases fraction with
  | none => decide
  | some digits => rw [fractionChars, List.count_cons_self, count_digits digits.digits]

theorem decimal_readable (numeral : Numeral) : numeral.decimal.count '.' ≤ 1 := by
  cases numeral with
  | grouped whole groups fraction =>
    have hgroups : (groups.flatMap fun g => g.1.chars).count '.' = 0 := by
      apply count_digits
      intro c hc
      obtain ⟨g,_,hmem⟩ := List.mem_flatMap.mp hc
      exact g.1.digits c hmem
    rw [Numeral.decimal, List.count_append, List.count_append, count_digits whole.digits, hgroups,
      zero_add, zero_add]
    exact fraction_count fraction
  | decimalComma whole fraction _ =>
    rw [Numeral.decimal, List.count_append, List.count_cons_self, count_digits whole.digits,
      count_digits fraction.digits]

/-! ### Units -/

/-- The characters of the units which the scanner knows. -/
def unitCharacter (c : Char) : Bool :=
  (decide (c.toNat < 128) && c.isAlpha) || c == 'µ' || c == '%'

theorem knownUnits_checked : ∀ p ∈ knownUnits, p.1 ≠ [] ∧ unitOf p.1 = some p.2 ∧
    p.1.all unitCharacter = true := by
  decide

theorem unitCharacter_word {c : Char} (h : unitCharacter c = true) :
    wordCharacter letters c = true := by
  simp only [unitCharacter, Bool.or_eq_true, Bool.and_eq_true, decide_eq_true_eq, beq_iff_eq] at h
  rcases h with (⟨hascii,halpha⟩ | rfl) | rfl
  · rw [wordCharacter, letters.ascii c hascii, halpha, Bool.true_or]
  · rw [wordCharacter, letters.micro, Bool.true_or]
  · rw [wordCharacter, beq_self_eq_true, Bool.or_true]

theorem unitCharacter_ne {c d : Char} (h : unitCharacter c = true) (hd : unitCharacter d = false) :
    c ≠ d := by
  intro heq
  rw [heq, hd] at h
  cases h

theorem KnownUnit.head (unit : KnownUnit) :
    ∃ c cs, unit.chars = c::cs ∧ unitCharacter c = true := by
  obtain ⟨hne,_,hall⟩ := knownUnits_checked _ unit.known
  cases hchars : unit.chars with
  | nil => exact absurd hchars hne
  | cons c cs =>
    rw [hchars, List.all_cons, Bool.and_eq_true] at hall
    exact ⟨c,cs,rfl,hall.1⟩

theorem blanks_number (n : ℕ) (unit : KnownUnit) (rest : List Char) :
    NumberEnd (List.replicate n ' '++unit.chars++rest) := by
  intro c hc
  cases n with
  | zero =>
    obtain ⟨d,ds,hchars,hd⟩ := unit.head
    rw [hchars, List.replicate_zero, List.nil_append, List.cons_append, List.head?_cons,
      Option.some.injEq] at hc
    subst hc
    exact ⟨wordCharacter_digit asciiLetters (unitCharacter_word hd),
      unitCharacter_ne hd (by decide),unitCharacter_ne hd (by decide)⟩
  | succ n =>
    rw [List.replicate_succ, List.cons_append, List.cons_append, List.head?_cons,
      Option.some.injEq] at hc
    subst hc
    decide

theorem blanks_dropped (n : ℕ) (unit : KnownUnit) (rest : List Char) :
    (List.replicate n ' '++unit.chars++rest).dropWhile isBlank = unit.chars++rest := by
  obtain ⟨d,ds,hchars,hd⟩ := unit.head
  have hblank : isBlank d = false := by
    rw [isBlank, beq_eq_false_iff_ne]
    exact unitCharacter_ne hd (by decide)
  rw [List.append_assoc, List.dropWhile_append_of_pos
    (fun c hc => by rw [List.eq_of_mem_replicate hc]; rfl), hchars, List.cons_append,
    List.dropWhile_cons_of_neg (by rw [hblank]; decide)]

theorem unit_split (unit : KnownUnit) {rest : List Char} (h : EndsWord letters rest) :
    (unit.chars++rest).takeWhile (wordCharacter letters) = unit.chars ∧
      (unit.chars++rest).dropWhile (wordCharacter letters) = rest := by
  have hall : ∀ c ∈ unit.chars, wordCharacter letters c = true := fun c hc =>
    unitCharacter_word (List.all_eq_true.mp (knownUnits_checked _ unit.known).2.2 c hc)
  rw [List.takeWhile_append_of_pos hall, List.dropWhile_append_of_pos hall]
  cases rest with
  | nil => simp
  | cons c cs =>
    have hc : ¬wordCharacter letters c = true := by rw [h c rfl]; decide
    rw [List.takeWhile_cons_of_neg hc, List.dropWhile_cons_of_neg hc, List.append_nil]
    exact ⟨rfl,rfl⟩

/-! ### Items -/

/-- The token of an item shows its number and its unit. -/
def Shows (item : Item) (t : Token) : Prop :=
  t.number = item.numeral.decimal ∧ t.unit = some item.unit.unit

theorem Item.head (item : Item) (rest : List Char) :
    ∃ c cs, item.chars++rest = c::cs ∧ c.isDigit = true := by
  have hdigits : ∀ (digits : Digits) (rest : List Char),
      ∃ c cs, digits.chars++rest = c::cs ∧ c.isDigit = true := by
    intro digits rest
    cases hchars : digits.chars with
    | nil => exact absurd hchars digits.nonempty
    | cons c cs => exact ⟨c,cs++rest,rfl,digits.digits c (hchars ▸ List.mem_cons_self)⟩
  rw [Item.chars, List.append_assoc]
  cases item.numeral with
  | grouped whole groups fraction =>
    rw [Numeral.chars, List.append_assoc, List.append_assoc]
    exact hdigits whole _
  | decimalComma whole fraction _ =>
    rw [Numeral.chars, List.append_assoc]
    exact hdigits whole _

/-- The scanner reads an item and goes on behind it. -/
theorem scans_item (item : Item) {before rest : List Char} {ts : List Token}
    (hbefore : before.head?.any letters.alphabetic = false) (hrest : EndsWord letters rest)
    (h : Scans letters (item.chars.reverse++before) rest ts) :
    ∃ t, Shows item t ∧ Scans letters before (item.chars++rest) (t::ts) := by
  have hread : readNumber (item.chars++rest) = (item.numeral.decimal,
      List.replicate item.spaces ' '++item.unit.chars++rest) := by
    rw [Item.chars, List.append_assoc]
    exact readNumber_numeral item.numeral (blanks_number _ _ _)
  have hword : word letters (readNumber (item.chars++rest)).2 = item.unit.chars := by
    rw [hread, word, blanks_dropped, (unit_split item.unit hrest).1]
  have hunit := (knownUnits_checked _ item.unit.known).2.1
  have hnext : next letters (readNumber (item.chars++rest)).2 = rest := by
    rw [next, hword, hunit, if_pos (by rfl), hread, blanks_dropped, (unit_split item.unit hrest).2]
  refine ⟨token letters before (item.chars++rest),⟨?_,?_⟩,?_⟩
  · rw [token, hread]
  · rw [token, hword]
    exact hunit
  · obtain ⟨c,cs,hchars,hc⟩ := item.head rest
    have hpast : past before (item.chars++rest) rest = item.chars.reverse++before := past_eq rfl
    rw [← hpast] at h
    rw [hchars] at hnext h ⊢
    refine Scans.read ((skipped_eq_false letters).mpr ⟨hc,hbefore⟩) ?_
    rw [hnext]
    exact h

/-- The scanner passes over a text without digits. -/
theorem scans_skip {gap before rest : List Char} {ts : List Token}
    (hgap : ∀ c ∈ gap, c.isDigit = false) (h : Scans letters (gap.reverse++before) rest ts) :
    Scans letters before (gap++rest) ts := by
  induction gap generalizing before with
  | nil => exact h
  | cons c gap ih =>
    rw [List.reverse_cons, List.append_assoc] at h
    refine Scans.skip ?_ (ih (fun d hd => hgap d (List.mem_cons_of_mem _ hd)) h)
    rw [skipped, hgap c List.mem_cons_self]
    rfl

theorem leads_head {gap before : List Char} (h : Leads letters gap)
    (hbefore : gap = [] → before.head?.any letters.alphabetic = false) :
    (gap.reverse++before).head?.any letters.alphabetic = false := by
  by_cases hnil : gap = []
  · rw [hnil]
    exact hbefore hnil
  · obtain ⟨front,last,hlast⟩ := List.eq_nil_or_concat gap |>.resolve_left hnil
    have hletter := h.2 last (by rw [hlast]; simp)
    rw [hlast]
    simpa using hletter

theorem follows_more {trail : List Char} (htrail : Follows letters trail)
    (more : List (Separator letters × Item)) : EndsWord letters (moreChars more trail) := by
  cases more with
  | nil => exact htrail.2
  | cons m more =>
    intro c hc
    apply m.1.follows.2 c
    cases hchars : m.1.chars with
    | nil => exact absurd hchars m.1.nonempty
    | cons d ds =>
      rw [moreChars, List.flatMap_cons, hchars, List.cons_append, List.cons_append,
        List.cons_append, List.head?_cons] at hc
      rw [List.head?_cons]
      exact hc

theorem scans_items {trail : List Char} (htrail : Follows letters trail) (first : Item)
    (more : List (Separator letters × Item)) {before : List Char}
    (hbefore : before.head?.any letters.alphabetic = false) :
    ∃ ts, Scans letters before (first.chars++moreChars more trail) ts ∧
      List.Forall₂ Shows (first::more.map (·.2)) ts := by
  induction more generalizing first before with
  | nil =>
    have hend : Scans letters (first.chars.reverse++before) (trail++[]) [] :=
      scans_skip htrail.1 (Scans.done _)
    rw [List.append_nil] at hend
    obtain ⟨t,ht,hscans⟩ := scans_item first hbefore htrail.2 hend
    exact ⟨[t],hscans,List.Forall₂.cons ht List.Forall₂.nil⟩
  | cons m more ih =>
    obtain ⟨ts,hscans,hshows⟩ := ih m.2
      (leads_head m.1.leads fun hnil => absurd hnil m.1.nonempty)
    have hgap := @scans_skip _ _ (first.chars.reverse++before) _ _ m.1.leads.1 hscans
    have hmore : moreChars (m::more) trail = m.1.chars++(m.2.chars++moreChars more trail) := by
      rw [moreChars, List.flatMap_cons, List.append_assoc, List.append_assoc]
      rfl
    rw [← hmore] at hgap
    obtain ⟨t,ht,hread⟩ := scans_item first hbefore (follows_more htrail (m::more)) hgap
    exact ⟨t::ts,hread,List.Forall₂.cons ht hshows⟩

theorem scans_line (line : WrittenLine letters) :
    List.Forall₂ Shows line.items (tokens letters line.chars) := by
  have hbefore : (line.lead.reverse++[]).head?.any letters.alphabetic = false :=
    leads_head line.leads fun _ => rfl
  obtain ⟨ts,hscans,hshows⟩ := scans_items line.follows line.first line.more hbefore
  have htokens := tokens_eq letters (scans_skip line.leads.1 hscans)
  rw [WrittenLine.chars, htokens]
  exact hshows

theorem shown_tokens {items : List Item} {ts : List Token} (h : List.Forall₂ Shows items ts) :
    ts.map (fun t => (t.number,t.unit)) =
      items.map fun item => (item.numeral.decimal,some item.unit.unit) := by
  induction h with
  | nil => rfl
  | cons hshows _ ih => rw [List.map_cons, List.map_cons, ih, hshows.1, hshows.2]

theorem shown_quantities {F : Type} (decimal : List Char → F) {items : List Item} {ts : List Token}
    (h : List.Forall₂ Shows items ts) :
    (ts.filterMap (Token.quantity decimal)).map (fun q => (q.amount,q.unit)) =
      items.map fun item => (decimal item.numeral.decimal,some item.unit.unit) := by
  induction h with
  | nil => rfl
  | @cons item t items ts hshows _ ih =>
    have hquantity : t.quantity decimal = some ⟨decimal t.number,t.unit,t.upperBound⟩ :=
      quantity_some.mpr ⟨hshows.1 ▸ decimal_readable item.numeral,rfl⟩
    rw [List.filterMap_cons_some hquantity, List.map_cons, List.map_cons, ih, hshows.1, hshows.2]

/-- The scan of a text ends, and a line is read back as it is written. -/
theorem quantities_written {F : Type} (decimal : List Char → F) :
    (∀ fuel before rest, rest.length ≤ fuel → (scan letters fuel before rest).isSome = true) ∧
    ∀ line : WrittenLine letters,
      (tokens letters line.chars).map (fun t => (t.number,t.unit)) =
        line.items.map (fun item => (item.numeral.decimal,some item.unit.unit)) ∧
      (quantities letters decimal line.chars).map (fun q => (q.amount,q.unit)) =
        line.items.map fun item => (decimal item.numeral.decimal,some item.unit.unit) := by
  constructor
  · intro fuel before rest hfuel
    obtain ⟨ts,hscan,_⟩ := scan_scans letters before hfuel
    rw [hscan]
    rfl
  · intro line
    exact ⟨shown_tokens (scans_line line),shown_quantities decimal (scans_line line)⟩

end Lines

end DocumentIntelligence.WrittenQuantities
