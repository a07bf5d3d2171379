import Mathlib

/-!
# Compact JSON text

The writers of a compact JSON formatter. A value is written as its text, and
the byte length of a text is the sum of the lengths of its parts.
-/

set_option autoImplicit false

namespace DocumentIntelligence.Json

def hexDigit (n : ℕ) : Char := "0123456789abcdef".toList.getD n '0'

def escape (c : Char) : String :=
  if c = '\"' then "\\\""
  else if c = '\\' then "\\\\"
  else if c.toNat = 8 then "\\b"
  else if c.toNat = 9 then "\\t"
  else if c.toNat = 10 then "\\n"
  else if c.toNat = 12 then "\\f"
  else if c.toNat = 13 then "\\r"
  else if c.toNat < 32 then
    "\\u00" ++ String.ofList [hexDigit (c.toNat/16),hexDigit (c.toNat%16)]
  else String.singleton c

def escaped : List Char → String
  | [] => ""
  | c::cs => escape c ++ escaped cs

def string (value : String) : String := "\"" ++ escaped value.toList ++ "\""

def commaSeparated : List String → String
  | [] => ""
  | [item] => item
  | item::items => item ++ "," ++ commaSeparated items

def array (items : List String) : String := "[" ++ commaSeparated items ++ "]"

def member (name value : String) : String := string name ++ ":" ++ value

def object (members : List String) : String := "\x7b" ++ commaSeparated members ++ "\x7d"

/-- The characters which are written as they are. -/
def plain (c : Char) : Bool := c != '\"' && c != '\\' && decide (32 ≤ c.toNat)

theorem utf8ByteSize_ofList (cs : List Char) :
    (String.ofList cs).utf8ByteSize = (cs.map Char.utf8Size).sum := by
  induction cs with
  | nil => rfl
  | cons c cs ih => simp [String.ofList_cons, ih]

theorem utf8ByteSize_eq_sum (s : String) : s.utf8ByteSize = (s.toList.map Char.utf8Size).sum := by
  rw [← utf8ByteSize_ofList, String.ofList_toList]

theorem length_le_size (value : String) : value.length ≤ value.utf8ByteSize := by
  rw [utf8ByteSize_eq_sum, ← String.length_toList, ← List.length_map Char.utf8Size]
  apply List.length_le_sum_of_one_le
  intro n hn
  obtain ⟨c,_,rfl⟩ := List.mem_map.mp hn
  exact c.utf8Size_pos

theorem escape_of_plain {c : Char} (h : plain c = true) : escape c = String.singleton c := by
  simp only [plain, Bool.and_eq_true, bne_iff_ne, decide_eq_true_eq] at h
  have hc : ∀ n < 32, c.toNat ≠ n := by
    intro n hn
    omega
  simp only [escape, if_neg h.1.1, if_neg h.1.2, if_neg (hc 8 (by decide)), if_neg (hc 9 (by decide)),
    if_neg (hc 10 (by decide)), if_neg (hc 12 (by decide)), if_neg (hc 13 (by decide)),
    if_neg (Nat.not_lt.mpr h.2)]

theorem escaped_of_plain {cs : List Char} (h : ∀ c ∈ cs, plain c = true) :
    escaped cs = String.ofList cs := by
  induction cs with
  | nil => rfl
  | cons c cs ih =>
    rw [escaped, escape_of_plain (h c List.mem_cons_self),
      ih fun x hx => h x (List.mem_cons_of_mem c hx), String.ofList_cons]

theorem size_string_of_plain {value : String} (h : ∀ c ∈ value.toList, plain c = true) :
    (string value).utf8ByteSize = value.utf8ByteSize+2 := by
  have hquote : "\"".utf8ByteSize = 1 := rfl
  rw [string, escaped_of_plain h, String.ofList_toList]
  simp only [String.utf8ByteSize_append, hquote]
  omega

theorem size_escape (c : Char) : c.utf8Size ≤ (escape c).utf8ByteSize := by
  have hsmall : c.toNat ≤ 127 → c.utf8Size = 1 := by
    intro h
    rw [Char.utf8Size_eq_one_iff]
    exact UInt32.le_iff_toNat_le.mpr h
  unfold escape
  split_ifs with hquote hbackslash h8 h9 h10 h12 h13 hcontrol
  · rw [hquote]
    decide
  · rw [hbackslash]
    decide
  iterate 5
    · rw [hsmall (by omega)]
      decide
  · rw [hsmall (by omega), String.utf8ByteSize_append]
    exact le_trans (by decide) (Nat.le_add_right "\\u00".utf8ByteSize _)
  · simp

theorem size_escaped (cs : List Char) :
    (String.ofList cs).utf8ByteSize ≤ (escaped cs).utf8ByteSize := by
  induction cs with
  | nil => exact le_refl _
  | cons c cs ih =>
    have hc := size_escape c
    rw [utf8ByteSize_ofList] at ih ⊢
    rw [List.map_cons, List.sum_cons, escaped, String.utf8ByteSize_append]
    omega

/-- A text is shorter than its JSON. -/
theorem size_string (value : String) :
    value.utf8ByteSize+2 ≤ (string value).utf8ByteSize := by
  have hescaped := size_escaped value.toList
  have hquote : "\"".utf8ByteSize = 1 := rfl
  rw [String.ofList_toList] at hescaped
  rw [string, String.utf8ByteSize_append, String.utf8ByteSize_append, hquote]
  omega

theorem size_member (name value : String) :
    (member name value).utf8ByteSize = (string name).utf8ByteSize+1+value.utf8ByteSize := by
  have hcolon : ":".utf8ByteSize = 1 := rfl
  simp only [member, String.utf8ByteSize_append, hcolon]

theorem size_commaSeparated (items : List String) :
    (commaSeparated items).utf8ByteSize =
      (items.map String.utf8ByteSize).sum+(items.length-1) := by
  have hcomma : ",".utf8ByteSize = 1 := rfl
  induction items with
  | nil => rfl
  | cons item items ih =>
    cases items with
    | nil => simp [commaSeparated]
    | cons next rest =>
      rw [commaSeparated, String.utf8ByteSize_append, String.utf8ByteSize_append, ih, hcomma]
      · simp only [List.map_cons, List.sum_cons, List.length_cons]
        omega
      · exact fun h => List.cons_ne_nil _ _ h

theorem size_array (items : List String) :
    (array items).utf8ByteSize = 2+(items.map String.utf8ByteSize).sum+(items.length-1) := by
  have hopen : "[".utf8ByteSize = 1 := rfl
  have hclose : "]".utf8ByteSize = 1 := rfl
  simp only [array, String.utf8ByteSize_append, size_commaSeparated, hopen, hclose]
  omega

theorem size_object (members : List String) :
    (object members).utf8ByteSize =
      2+(members.map String.utf8ByteSize).sum+(members.length-1) := by
  have hopen : "\x7b".utf8ByteSize = 1 := rfl
  have hclose : "\x7d".utf8ByteSize = 1 := rfl
  simp only [object, String.utf8ByteSize_append, size_commaSeparated, hopen, hclose]
  omega

theorem decimal_size {n : ℕ} (h : n ≤ 1000) : (toString n).utf8ByteSize ≤ 4 := by
  have hall : ∀ k < 1001, (toString k).utf8ByteSize ≤ 4 := by decide +kernel
  exact hall n (Nat.lt_succ_of_le h)

end DocumentIntelligence.Json
