import DocumentIntelligence.Json

/-!
# JSON values and their text

Values with natural numbers, written with a given spacing and read again by a
parser which skips white space. The fuel of the parser bounds the depth and the
breadth of what it reads; the length of the text is always enough.
-/

set_option autoImplicit false

namespace DocumentIntelligence.Json

inductive Value where
  | null
  | bool (b : Bool)
  | number (n : ℕ)
  | string (s : String)
  | array (items : List Value)
  | object (members : List (String × Value))

/-- The blanks after a colon and after a comma. -/
structure Spacing where
  colon : List Char
  comma : List Char
  deriving DecidableEq, Repr

def compact : Spacing := ⟨[],[]⟩
def spaced : Spacing := ⟨[' '],[' ']⟩

def isBlank (c : Char) : Bool := c == ' ' || c == '\n' || c == '\r' || c == '\t'

def Spacing.Blank (sp : Spacing) : Prop :=
  (∀ c ∈ sp.colon, isBlank c = true) ∧ ∀ c ∈ sp.comma, isBlank c = true

theorem compact_blank : compact.Blank := by simp [Spacing.Blank, compact]

theorem spaced_blank : spaced.Blank := by simp [Spacing.Blank, spaced, isBlank]

section Writer
variable (sp : Spacing)

mutual
def Value.chars : Value → List Char
  | .null => ['n','u','l','l']
  | .bool true => ['t','r','u','e']
  | .bool false => ['f','a','l','s','e']
  | .number n => Nat.toDigits 10 n
  | .string s => (Json.string s).toList
  | .array [] => ['[',']']
  | .array (item::items) => '['::(item.chars++itemChars items)
  | .object [] => ['\x7b','\x7d']
  | .object ((name,value)::members) =>
    '\x7b'::((Json.string name).toList++ ':'::(sp.colon++(value.chars++memberChars members)))

/-- The rest of an array after an item. -/
def itemChars : List Value → List Char
  | [] => [']']
  | item::items => ','::(sp.comma++(item.chars++itemChars items))

/-- The rest of an object after a member. -/
def memberChars : List (String × Value) → List Char
  | [] => ['\x7d']
  | (name,value)::members => ','::(sp.comma++((Json.string name).toList++
      ':'::(sp.colon++(value.chars++memberChars members))))
end

def Value.text (v : Value) : String := String.ofList (v.chars sp)

end Writer

def skip (cs : List Char) : List Char := cs.dropWhile isBlank

def hexValue (c : Char) : ℕ := "0123456789abcdef".toList.idxOf c

/-- The characters of a string up to its closing quote, and what follows it. -/
def stringBody : List Char → Option (List Char × List Char)
  | '\\':: 'u':: '0':: '0'::high::low::cs => (stringBody cs).map fun (body,rest) =>
      (Char.ofNat (16*hexValue high+hexValue low)::body,rest)
  | '\\':: 'b'::cs => (stringBody cs).map fun (body,rest) => (Char.ofNat 8::body,rest)
  | '\\':: 't'::cs => (stringBody cs).map fun (body,rest) => (Char.ofNat 9::body,rest)
  | '\\':: 'n'::cs => (stringBody cs).map fun (body,rest) => (Char.ofNat 10::body,rest)
  | '\\':: 'f'::cs => (stringBody cs).map fun (body,rest) => (Char.ofNat 12::body,rest)
  | '\\':: 'r'::cs => (stringBody cs).map fun (body,rest) => (Char.ofNat 13::body,rest)
  | '\\':: '\"'::cs => (stringBody cs).map fun (body,rest) => ('\"'::body,rest)
  | '\\':: '\\'::cs => (stringBody cs).map fun (body,rest) => ('\\'::body,rest)
  | '\\'::_ => none
  | '\"'::cs => some ([],cs)
  | c::cs => (stringBody cs).map fun (body,rest) => (c::body,rest)
  | [] => none

def name (cs : List Char) : Option (String × List Char) :=
  match skip cs with
  | '\"'::cs => (stringBody cs).map fun (body,rest) => (String.ofList body,rest)
  | _ => none

def numeral (cs : List Char) : Option (ℕ × List Char) :=
  match cs.takeWhile Char.isDigit with
  | [] => none
  | digits => some (Nat.ofDigitChars 10 digits 0,cs.dropWhile Char.isDigit)

mutual
def value : ℕ → List Char → Option (Value × List Char)
  | 0, _ => none
  | fuel+1, cs => match skip cs with
    | 'n':: 'u':: 'l':: 'l'::rest => some (.null,rest)
    | 't':: 'r':: 'u':: 'e'::rest => some (.bool true,rest)
    | 'f':: 'a':: 'l':: 's':: 'e'::rest => some (.bool false,rest)
    | '\"'::cs => (stringBody cs).map fun (body,rest) => (.string (String.ofList body),rest)
    | '['::cs => match skip cs with
      | ']'::rest => some (.array [],rest)
      | cs => (items fuel cs).map fun (read,rest) => (.array read,rest)
    | '\x7b'::cs => match skip cs with
      | '\x7d'::rest => some (.object [],rest)
      | cs => (members fuel cs).map fun (read,rest) => (.object read,rest)
    | cs => (numeral cs).map fun (n,rest) => (.number n,rest)

def items : ℕ → List Char → Option (List Value × List Char)
  | 0, _ => none
  | fuel+1, cs => do
    let (item,cs) ← value fuel cs
    match skip cs with
    | ','::cs => (items fuel cs).map fun (read,rest) => (item::read,rest)
    | ']'::rest => some ([item],rest)
    | _ => none

def members : ℕ → List Char → Option (List (String × Value) × List Char)
  | 0, _ => none
  | fuel+1, cs => do
    let (key,cs) ← name cs
    match skip cs with
    | ':'::cs =>
      let (member,cs) ← value fuel cs
      match skip cs with
      | ','::cs => (members fuel cs).map fun (read,rest) => ((key,member)::read,rest)
      | '\x7d'::rest => some ([(key,member)],rest)
      | _ => none
    | _ => none
end

/-- The value of a text, with nothing but blanks around it. -/
def parse (text : String) : Option Value :=
  match value (text.toList.length+1) text.toList with
  | some (v,rest) => if (skip rest).isEmpty then some v else none
  | none => none

theorem skip_append {blanks cs : List Char} (h : ∀ c ∈ blanks, isBlank c = true) :
    skip (blanks++cs) = skip cs := by
  unfold skip
  rw [List.dropWhile_append_of_pos h]

theorem skip_cons {c : Char} (h : isBlank c = false) (cs : List Char) : skip (c::cs) = c::cs := by
  simp [skip, h]

theorem hexValue_hexDigit {n : ℕ} (h : n < 16) : hexValue (hexDigit n) = n := by
  have hall : ∀ n < 16, hexValue (hexDigit n) = n := by decide
  exact hall n h

theorem stringBody_escape (c : Char) (cs : List Char) :
    stringBody ((escape c).toList++cs) =
      (stringBody cs).map fun (body,rest) => (c::body,rest) := by
  have hcode : ∀ n, c.toNat = n → Char.ofNat n = c := by
    rintro n rfl
    exact Char.ofNat_toNat c
  unfold escape
  split
  · rename_i h
    rw [h]
    rfl
  split
  · rename_i h
    rw [h]
    rfl
  split
  · rename_i h
    rw [← hcode 8 h]
    rfl
  split
  · rename_i h
    rw [← hcode 9 h]
    rfl
  split
  · rename_i h
    rw [← hcode 10 h]
    rfl
  split
  · rename_i h
    rw [← hcode 12 h]
    rfl
  split
  · rename_i h
    rw [← hcode 13 h]
    rfl
  split
  · have hhigh : c.toNat/16 < 16 := by omega
    have hlow : c.toNat%16 < 16 := by omega
    have hsum : 16*(c.toNat/16)+c.toNat%16 = c.toNat := by omega
    simp only [String.toList_append, String.toList_ofList]
    show stringBody ('\\':: 'u':: '0':: '0'::hexDigit (c.toNat/16)::hexDigit (c.toNat%16)::cs) = _
    rw [stringBody, hexValue_hexDigit hhigh, hexValue_hexDigit hlow, hsum, Char.ofNat_toNat]
  · rename_i hquote hslash _ _ _ _ _ _
    rw [String.toList_singleton, List.singleton_append, stringBody.eq_def]
    split <;> simp_all

theorem stringBody_escaped (cs rest : List Char) :
    stringBody ((escaped cs).toList++ '\"'::rest) = some (cs,rest) := by
  induction cs with
  | nil => rfl
  | cons c cs ih =>
    rw [escaped, String.toList_append, List.append_assoc, stringBody_escape, ih]
    rfl

theorem string_chars (s : String) :
    (Json.string s).toList = '\"'::((escaped s.toList).toList++['\"']) := by
  simp [Json.string]

theorem name_string (s : String) (rest : List Char) :
    name ((Json.string s).toList++rest) = some (s,rest) := by
  rw [string_chars, name, List.cons_append, skip_cons rfl]
  simp only [List.append_assoc, List.singleton_append, stringBody_escaped, Option.map_some,
    String.ofList_toList]

/-- What follows a number does not start with a digit. -/
def Ended (rest : List Char) : Prop := ∀ c cs, rest = c::cs → c.isDigit = false

theorem ended_nil : Ended [] := fun _ _ h => by cases h

theorem ended_cons {c : Char} (h : c.isDigit = false) (cs : List Char) : Ended (c::cs) := by
  intro d ds heq
  cases heq
  exact h

theorem toDigits_digits (n : ℕ) : ∀ c ∈ Nat.toDigits 10 n, c.isDigit = true :=
  fun _ h => Nat.isDigit_of_mem_toDigits (by decide) (by decide) h

theorem numeral_toDigits (n : ℕ) {rest : List Char} (h : Ended rest) :
    numeral (Nat.toDigits 10 n++rest) = some (n,rest) := by
  have hrest : rest.takeWhile Char.isDigit = [] ∧ rest.dropWhile Char.isDigit = rest := by
    cases rest with
    | nil => exact ⟨rfl,rfl⟩
    | cons c cs => simp [h c cs rfl]
  have hdigits : (Nat.toDigits 10 n++rest).takeWhile Char.isDigit = Nat.toDigits 10 n := by
    rw [List.takeWhile_append_of_pos (toDigits_digits n), hrest.1, List.append_nil]
  rw [numeral, hdigits, List.dropWhile_append_of_pos (toDigits_digits n), hrest.2]
  split
  · rename_i hnil
    exact absurd hnil Nat.toDigits_ne_nil
  · rw [Nat.ofDigitChars_ten_toDigits]

mutual
/-- The fuel which reading the value takes. -/
def Value.weight : Value → ℕ
  | .array items => 1+itemsWeight items
  | .object members => 1+membersWeight members
  | _ => 1

def itemsWeight : List Value → ℕ
  | [] => 0
  | item::items => 1+item.weight+itemsWeight items

def membersWeight : List (String × Value) → ℕ
  | [] => 0
  | (_,value)::members => 1+value.weight+membersWeight members
end

section Blanks
variable {blanks : List Char} (h : ∀ c ∈ blanks, isBlank c = true) (cs : List Char)
include h

theorem value_blanks (fuel : ℕ) : value fuel (blanks++cs) = value fuel cs := by
  cases fuel with
  | zero => rfl
  | succ fuel => simp only [value, skip_append h]

theorem items_blanks (fuel : ℕ) : items fuel (blanks++cs) = items fuel cs := by
  cases fuel with
  | zero => rfl
  | succ fuel => simp only [items, value_blanks h]

theorem members_blanks (fuel : ℕ) : members fuel (blanks++cs) = members fuel cs := by
  cases fuel with
  | zero => rfl
  | succ fuel => simp only [members, name, skip_append h]

end Blanks

theorem value_number (n fuel : ℕ) {rest : List Char} (h : Ended rest) :
    value (fuel+1) (Nat.toDigits 10 n++rest) = some (.number n,rest) := by
  have hread := numeral_toDigits n h
  obtain ⟨d,ds,hdigits⟩ := List.exists_cons_of_ne_nil (Nat.toDigits_ne_nil (n := n) (b := 10))
  have hd : d.isDigit = true := toDigits_digits n d (hdigits ▸ List.mem_cons_self)
  have hne : ∀ c : Char, c.isDigit = false → d ≠ c := by
    rintro c hc rfl
    rw [hd] at hc
    cases hc
  have hblank : isBlank d = false := by
    simp only [isBlank, Bool.or_eq_false_iff, beq_eq_false_iff_ne]
    exact ⟨⟨⟨hne _ rfl,hne _ rfl⟩,hne _ rfl⟩,hne _ rfl⟩
  rw [hdigits, List.cons_append] at hread ⊢
  simp only [value, skip_cons hblank]
  split
  · rename_i heq
    exact absurd (List.cons.inj heq).1 (hne _ rfl)
  · rename_i heq
    exact absurd (List.cons.inj heq).1 (hne _ rfl)
  · rename_i heq
    exact absurd (List.cons.inj heq).1 (hne _ rfl)
  · rename_i heq
    exact absurd (List.cons.inj heq).1 (hne _ rfl)
  · rename_i heq
    exact absurd (List.cons.inj heq).1 (hne _ rfl)
  · rename_i heq
    exact absurd (List.cons.inj heq).1 (hne _ rfl)
  · rw [hread]
    rfl

theorem value_string (s : String) (fuel : ℕ) (rest : List Char) :
    value (fuel+1) ((Json.string s).toList++rest) = some (.string s,rest) := by
  have hskip : ∀ cs, skip ('\"'::cs) = '\"'::cs := skip_cons rfl
  rw [string_chars, List.cons_append]
  simp only [value, hskip, List.append_assoc, List.singleton_append, stringBody_escaped,
    Option.map_some, String.ofList_toList]

section Reading
variable {sp : Spacing}

/-- A written value starts with a character which is no blank and closes nothing. -/
theorem chars_head (v : Value) :
    ∃ c cs, v.chars sp = c::cs ∧ isBlank c = false ∧ c ≠ ']' := by
  match v with
  | .null => exact ⟨_,_,rfl,rfl,by decide⟩
  | .bool true => exact ⟨_,_,rfl,rfl,by decide⟩
  | .bool false => exact ⟨_,_,rfl,rfl,by decide⟩
  | .number n =>
    obtain ⟨d,ds,hdigits⟩ := List.exists_cons_of_ne_nil (Nat.toDigits_ne_nil (n := n) (b := 10))
    have hd : d.isDigit = true := toDigits_digits n d (hdigits ▸ List.mem_cons_self)
    have hne : ∀ c : Char, c.isDigit = false → d ≠ c := by
      rintro c hc rfl
      rw [hd] at hc
      cases hc
    refine ⟨d,ds,by rw [Value.chars, hdigits],?_,hne _ rfl⟩
    simp only [isBlank, Bool.or_eq_false_iff, beq_eq_false_iff_ne]
    exact ⟨⟨⟨hne _ rfl,hne _ rfl⟩,hne _ rfl⟩,hne _ rfl⟩
  | .string s => exact ⟨_,_,by rw [Value.chars, string_chars],rfl,by decide⟩
  | .array [] => exact ⟨_,_,by rw [Value.chars],rfl,by decide⟩
  | .array (item::items) => exact ⟨_,_,by rw [Value.chars],rfl,by decide⟩
  | .object [] => exact ⟨_,_,by rw [Value.chars],rfl,by decide⟩
  | .object ((key,item)::members) => exact ⟨_,_,by rw [Value.chars],rfl,by decide⟩

theorem itemChars_ended (items : List Value) (rest : List Char) :
    Ended (itemChars sp items++rest) := by
  cases items with
  | nil => exact ended_cons rfl _
  | cons item items =>
    rw [itemChars, List.cons_append]
    exact ended_cons rfl _

theorem memberChars_ended (members : List (String × Value)) (rest : List Char) :
    Ended (memberChars sp members++rest) := by
  cases members with
  | nil => exact ended_cons rfl _
  | cons member members =>
    rw [memberChars, List.cons_append]
    exact ended_cons rfl _

variable (hsp : sp.Blank)
include hsp

mutual
/-- A written value is read as itself. -/
theorem value_chars : ∀ (v : Value) (fuel : ℕ) (rest : List Char), v.weight ≤ fuel → Ended rest →
    value fuel (v.chars sp++rest) = some (v,rest)
  | v, 0, rest, hfuel, _ => by
    exfalso
    cases v <;> simp [Value.weight] at hfuel
  | .null, fuel+1, rest, _, _ => rfl
  | .bool true, fuel+1, rest, _, _ => rfl
  | .bool false, fuel+1, rest, _, _ => rfl
  | .number n, fuel+1, rest, _, hrest => by
    rw [Value.chars]
    exact value_number n fuel hrest
  | .string s, fuel+1, rest, _, _ => by
    rw [Value.chars]
    exact value_string s fuel rest
  | .array [], fuel+1, rest, _, _ => by
    rw [Value.chars]
    rfl
  | .array (item::more), fuel+1, rest, hfuel, _ => by
    have hread := items_chars item more fuel rest (by rw [Value.weight] at hfuel; omega)
    have hskip : ∀ cs, skip ('['::cs) = '['::cs := skip_cons rfl
    obtain ⟨c,cs,hc,hblank,hclose⟩ : ∃ c cs, item.chars sp = c::cs ∧ isBlank c = false ∧ c ≠ ']' :=
      chars_head item
    rw [Value.chars, List.cons_append, List.append_assoc]
    rw [hc, List.cons_append] at hread ⊢
    simp only [value, hskip, skip_cons hblank]
    split
    · rename_i heq
      exact absurd (List.cons.inj heq).1 hclose
    · rw [hread]
      rfl
  | .object [], fuel+1, rest, _, _ => by
    rw [Value.chars]
    rfl
  | .object ((key,member)::more), fuel+1, rest, hfuel, _ => by
    have hread := members_chars key member more fuel rest (by rw [Value.weight] at hfuel; omega)
    have hskip : ∀ cs, skip ('\x7b'::cs) = '\x7b'::cs := skip_cons rfl
    have hquote : ∀ cs, skip ('\"'::cs) = '\"'::cs := skip_cons rfl
    rw [Value.chars, List.cons_append, List.append_assoc, List.cons_append, List.append_assoc,
      List.append_assoc]
    rw [string_chars, List.cons_append] at hread ⊢
    simp only [value, hskip, hquote]
    show Option.map _ (members fuel _) = _
    rw [hread]
    rfl

theorem items_chars : ∀ (item : Value) (more : List Value) (fuel : ℕ) (rest : List Char),
    itemsWeight (item::more) ≤ fuel →
    items fuel (item.chars sp++(itemChars sp more++rest)) = some (item::more,rest)
  | item, more, 0, rest, hfuel => by
    exfalso
    rw [itemsWeight] at hfuel
    omega
  | item, [], fuel+1, rest, hfuel => by
    rw [itemsWeight] at hfuel
    have hitem := value_chars item fuel (itemChars sp []++rest) (by omega) (itemChars_ended [] rest)
    simp only [items, hitem]
    rfl
  | item, next::more, fuel+1, rest, hfuel => by
    rw [itemsWeight] at hfuel
    have hitem := value_chars item fuel (itemChars sp (next::more)++rest) (by omega)
      (itemChars_ended (next::more) rest)
    have hmore := items_chars next more fuel rest (by omega)
    have hskip : ∀ cs, skip (','::cs) = ','::cs := skip_cons rfl
    simp only [items, hitem]
    simp only [itemChars, List.cons_append, List.append_assoc, Option.bind_eq_bind, Option.bind_some,
      hskip, items_blanks hsp.2, hmore]
    rfl

theorem members_chars : ∀ (key : String) (member : Value) (more : List (String × Value)) (fuel : ℕ)
    (rest : List Char), membersWeight ((key,member)::more) ≤ fuel →
    members fuel ((Json.string key).toList++ ':'::(sp.colon++(member.chars sp++
      (memberChars sp more++rest)))) = some ((key,member)::more,rest)
  | key, member, more, 0, rest, hfuel => by
    exfalso
    rw [membersWeight] at hfuel
    omega
  | key, member, [], fuel+1, rest, hfuel => by
    rw [membersWeight] at hfuel
    have hitem := value_chars member fuel (memberChars sp []++rest) (by omega)
      (memberChars_ended [] rest)
    have hskip : ∀ cs, skip (':'::cs) = ':'::cs := skip_cons rfl
    simp only [members, name_string, Option.bind_eq_bind, Option.bind_some, hskip,
      value_blanks hsp.1, hitem]
    rfl
  | key, member, (key',next)::more, fuel+1, rest, hfuel => by
    rw [membersWeight] at hfuel
    have hitem := value_chars member fuel (memberChars sp ((key',next)::more)++rest) (by omega)
      (memberChars_ended ((key',next)::more) rest)
    have hmore := members_chars key' next more fuel rest (by omega)
    have hskip : ∀ cs, skip (':'::cs) = ':'::cs := skip_cons rfl
    have hcomma : ∀ cs, skip (','::cs) = ','::cs := skip_cons rfl
    simp only [members, name_string, Option.bind_eq_bind, Option.bind_some, hskip,
      value_blanks hsp.1, hitem]
    simp only [memberChars, List.cons_append, List.append_assoc, hcomma, members_blanks hsp.2, hmore]
    rfl
end

end Reading

mutual
/-- The fuel is within the length of the text. -/
theorem weight_le (sp : Spacing) : ∀ v : Value, v.weight ≤ (v.chars sp).length
  | .null => by simp [Value.chars, Value.weight]
  | .bool true => by simp [Value.chars, Value.weight]
  | .bool false => by simp [Value.chars, Value.weight]
  | .number n => by
    rw [Value.chars]
    exact Nat.length_toDigits_pos
  | .string s => by simp [Value.chars, Value.weight, string_chars]
  | .array [] => by simp [Value.chars, Value.weight, itemsWeight]
  | .array (item::more) => by
    have h := weight_le sp item
    have hmore := itemsWeight_lt sp more
    simp only [Value.chars, Value.weight, itemsWeight, List.length_cons, List.length_append]
    omega
  | .object [] => by simp [Value.chars, Value.weight, membersWeight]
  | .object ((key,member)::more) => by
    have h := weight_le sp member
    have hmore := membersWeight_lt sp more
    simp only [Value.chars, Value.weight, membersWeight, List.length_cons, List.length_append]
    omega

theorem itemsWeight_lt (sp : Spacing) : ∀ items : List Value,
    itemsWeight items < (itemChars sp items).length
  | [] => by simp [itemsWeight, itemChars]
  | item::items => by
    have h := weight_le sp item
    have hmore := itemsWeight_lt sp items
    simp only [itemsWeight, itemChars, List.length_cons, List.length_append]
    omega

theorem membersWeight_lt (sp : Spacing) : ∀ members : List (String × Value),
    membersWeight members < (memberChars sp members).length
  | [] => by simp [membersWeight, memberChars]
  | (key,member)::members => by
    have h := weight_le sp member
    have hmore := membersWeight_lt sp members
    simp only [membersWeight, memberChars, List.length_cons, List.length_append]
    omega
end

/-- Parsing the text of a value returns the value, however it is spaced. -/
theorem parse_text {sp : Spacing} (hsp : sp.Blank) (v : Value) : parse (v.text sp) = some v := by
  have hread := value_chars hsp v ((v.chars sp).length+1) []
    ((weight_le sp v).trans (Nat.le_succ _)) ended_nil
  rw [List.append_nil] at hread
  rw [parse, Value.text, String.toList_ofList, hread]
  rfl

section Sizes
variable {sp : Spacing}

def charsSize (cs : List Char) : ℕ := (cs.map Char.utf8Size).sum

theorem text_size (v : Value) : (v.text sp).utf8ByteSize = charsSize (v.chars sp) :=
  utf8ByteSize_ofList _

theorem charsSize_append (cs ds : List Char) :
    charsSize (cs++ds) = charsSize cs+charsSize ds := by
  simp [charsSize]

theorem charsSize_cons (c : Char) (cs : List Char) :
    charsSize (c::cs) = c.utf8Size+charsSize cs := by
  simp [charsSize]

theorem charsSize_toList (s : String) : charsSize s.toList = s.utf8ByteSize :=
  (utf8ByteSize_eq_sum s).symm

theorem number_size {n k : ℕ} (hk : 0 < k) (h : n < 10^k) :
    charsSize ((Value.number n).chars sp) ≤ k := by
  have hdigit : ∀ c ∈ Nat.toDigits 10 n, c.utf8Size = 1 := by
    intro c hc
    have hd := toDigits_digits n c hc
    simp only [Char.isDigit, Bool.and_eq_true, decide_eq_true_eq] at hd
    rw [Char.utf8Size_eq_one_iff]
    exact UInt32.le_trans hd.2 (by decide)
  have hlength : charsSize (Nat.toDigits 10 n) = (Nat.toDigits 10 n).length := by
    rw [charsSize, List.map_congr_left hdigit]
    simp
  rw [Value.chars, hlength]
  exact (Nat.length_toDigits_le_iff (by decide) hk).mpr h

theorem itemChars_size {k : ℕ} {items : List Value}
    (h : ∀ item ∈ items, charsSize (item.chars sp) ≤ k) :
    charsSize (itemChars sp items) ≤ 1+items.length*(1+charsSize sp.comma+k) := by
  induction items with
  | nil =>
    rw [itemChars]
    exact Nat.le_add_right 1 _
  | cons item items ih =>
    have hitem := h item List.mem_cons_self
    have hrest := ih fun x hx => h x (List.mem_cons_of_mem item hx)
    have hcomma : (',').utf8Size = 1 := rfl
    simp only [itemChars, charsSize_cons, charsSize_append, List.length_cons, Nat.add_mul, hcomma]
    omega

theorem array_size {k : ℕ} {items : List Value}
    (h : ∀ item ∈ items, charsSize (item.chars sp) ≤ k) :
    charsSize ((Value.array items).chars sp) ≤ 2+items.length*(1+charsSize sp.comma+k) := by
  have hopen : ('[').utf8Size = 1 := rfl
  cases items with
  | nil =>
    rw [Value.chars]
    exact Nat.le_add_right 2 _
  | cons item items =>
    have hitem := h item List.mem_cons_self
    have hrest := itemChars_size fun x hx => h x (List.mem_cons_of_mem item hx)
    simp only [Value.chars, charsSize_cons, charsSize_append, List.length_cons, Nat.add_mul, hopen]
      at hrest ⊢
    omega

theorem memberChars_size (name : String) (v : Value) (members : List (String × Value)) :
    charsSize (memberChars sp ((name,v)::members)) =
      2+charsSize sp.comma+charsSize sp.colon+(Json.string name).utf8ByteSize+
        charsSize (v.chars sp)+charsSize (memberChars sp members) := by
  have hcomma : (',').utf8Size = 1 := rfl
  have hcolon : (':').utf8Size = 1 := rfl
  simp only [memberChars, charsSize_cons, charsSize_append, charsSize_toList, hcomma, hcolon]
  omega

theorem memberChars_nil_size : charsSize (memberChars sp []) = 1 := by
  rw [memberChars]
  rfl

theorem object_size (name : String) (v : Value) (members : List (String × Value)) :
    charsSize ((Value.object ((name,v)::members)).chars sp) =
      2+charsSize sp.colon+(Json.string name).utf8ByteSize+charsSize (v.chars sp)+
        charsSize (memberChars sp members) := by
  have hopen : ('\x7b').utf8Size = 1 := rfl
  have hcolon : (':').utf8Size = 1 := rfl
  simp only [Value.chars, charsSize_cons, charsSize_append, charsSize_toList, hopen, hcolon]
  omega

end Sizes

end DocumentIntelligence.Json
