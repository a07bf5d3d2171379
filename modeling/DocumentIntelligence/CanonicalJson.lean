import DocumentIntelligence.AccessGrants
import DocumentIntelligence.JsonValue
import DocumentIntelligence.Table

/-!
# Canonical JSON

Two values have one canonical text exactly if they are equal up to the order of the members
of their objects. The canonical text of a value is the plain text of its normal form, in
which the members of every object are sorted, and a plain text is read in one way only.
-/

set_option autoImplicit false

namespace DocumentIntelligence.CanonicalJson
open AccessGrants

/-- The characters of numbers. -/
def numeric (c : Char) : Bool := c.isDigit || c == '-' || c == '+' || c == '.' || c == 'e' || c == 'E'

/-- A serializer of numbers. -/
structure NumberText (N : Type) where
  text : N → String
  injective : Function.Injective text
  nonempty : ∀ n, (text n).toList ≠ []
  numeric : ∀ n, ∀ c ∈ (text n).toList, numeric c = true

section Values
variable {N : Type}

mutual
/-- The keys of every object are distinct. -/
def Distinct : Value N → Prop
  | .array values => DistinctItems values
  | .object members => (members.map (·.1)).Nodup ∧ DistinctMembers members
  | _ => True

def DistinctItems : List (Value N) → Prop
  | [] => True
  | value::values => Distinct value ∧ DistinctItems values

def DistinctMembers : List (String × Value N) → Prop
  | [] => True
  | (_,value)::members => Distinct value ∧ DistinctMembers members
end

/-- Equality up to the order of the members of objects at every depth. -/
inductive Same : Value N → Value N → Prop
  | refl (v : Value N) : Same v v
  | symm {v w : Value N} : Same v w → Same w v
  | trans {u v w : Value N} : Same u v → Same v w → Same u w
  | order {members others : List (String × Value N)} : members.Perm others →
      Same (.object members) (.object others)
  | item {v w : Value N} (before after : List (Value N)) : Same v w →
      Same (.array (before++v::after)) (.array (before++w::after))
  | member {v w : Value N} (key : String) (before after : List (String × Value N)) : Same v w →
      Same (.object (before++(key,v)::after)) (.object (before++(key,w)::after))

/-- The order in which an object is written. -/
def keyLe {α : Type} (a b : String × α) : Bool := !decide (b.1 < a.1)

mutual
def normal : Value N → Value N
  | .array values => .array (normalItems values)
  | .object members => .object ((normalMembers members).mergeSort keyLe)
  | .null => .null
  | .bool b => .bool b
  | .number n => .number n
  | .string s => .string s

def normalItems : List (Value N) → List (Value N)
  | [] => []
  | value::values => normal value::normalItems values

def normalMembers : List (String × Value N) → List (String × Value N)
  | [] => []
  | (key,value)::members => (key,normal value)::normalMembers members
end

theorem distinctItems_iff (values : List (Value N)) :
    DistinctItems values ↔ ∀ v ∈ values, Distinct v := by
  induction values with
  | nil => simp [DistinctItems]
  | cons v values ih => simp [DistinctItems, ih]

theorem distinctMembers_iff (members : List (String × Value N)) :
    DistinctMembers members ↔ ∀ m ∈ members, Distinct m.2 := by
  induction members with
  | nil => simp [DistinctMembers]
  | cons m members ih => simp [DistinctMembers, ih]

theorem same_distinct {v w : Value N} (h : Same v w) : Distinct v ↔ Distinct w := by
  induction h with
  | refl v => exact Iff.rfl
  | symm _ ih => exact ih.symm
  | trans _ _ ih ih' => exact ih.trans ih'
  | order hperm =>
    rw [Distinct, Distinct, distinctMembers_iff, distinctMembers_iff, (hperm.map _).nodup_iff]
    simp only [hperm.mem_iff]
  | item before after _ ih =>
    rw [Distinct, Distinct, distinctItems_iff, distinctItems_iff]
    simp only [List.forall_mem_append, List.forall_mem_cons, ih]
  | member key before after _ ih =>
    rw [Distinct, Distinct, distinctMembers_iff, distinctMembers_iff]
    simp only [List.forall_mem_append, List.forall_mem_cons, ih, List.map_append, List.map_cons]

/-! A value is the same as its normal form. -/

mutual
theorem same_normal : (v : Value N) → Same v (normal v)
  | .null => Same.refl _
  | .bool _ => Same.refl _
  | .number _ => Same.refl _
  | .string _ => Same.refl _
  | .array values => same_items [] values
  | .object members =>
    (same_members [] members).trans (Same.order (List.mergeSort_perm _ _).symm)

theorem same_items : (before values : List (Value N)) →
    Same (.array (before++values)) (.array (before++normalItems values))
  | _,[] => Same.refl _
  | before,v::values => by
    have hfirst := Same.item before values (same_normal v)
    have hrest := same_items (before++[normal v]) values
    rw [List.append_assoc, List.append_assoc] at hrest
    exact hfirst.trans hrest

theorem same_members : (before members : List (String × Value N)) →
    Same (.object (before++members)) (.object (before++normalMembers members))
  | _,[] => Same.refl _
  | before,(key,v)::members => by
    have hfirst := Same.member key before members (same_normal v)
    have hrest := same_members (before++[(key,normal v)]) members
    rw [List.append_assoc, List.append_assoc] at hrest
    exact hfirst.trans hrest
end

end Values

/-! ### Canonical texts do not depend on the order -/

section Order
variable {N : Type} (text : N → String)

theorem canonicalItems_map (values : List (Value N)) :
    canonicalItems text values = values.map (canonicalJson text) := by
  induction values with
  | nil => rfl
  | cons v values ih => rw [canonicalItems, ih, List.map_cons]

theorem canonicalMembers_map (members : List (String × Value N)) :
    canonicalMembers text members = members.map fun m => (m.1,canonicalJson text m.2) := by
  induction members with
  | nil => rfl
  | cons m members ih => rw [canonicalMembers, ih, List.map_cons]

theorem keyLe_sorted {α : Type} (ms : List (String × α)) :
    (ms.mergeSort keyLe).Pairwise fun a b => a.1 ≤ b.1 := by
  refine (@List.pairwise_mergeSort _ keyLe ?_ ?_ ms).imp fun {a b} h => ?_
  · intro a b c hab hbc
    simp only [keyLe, Bool.not_eq_true', decide_eq_false_iff_not, not_lt] at hab hbc ⊢
    exact hab.trans hbc
  · intro a b
    simp only [keyLe, Bool.or_eq_true, Bool.not_eq_true', decide_eq_false_iff_not, not_lt]
    exact le_total _ _
  · simpa only [keyLe, Bool.not_eq_true', decide_eq_false_iff_not, not_lt] using h

/-- Members under distinct keys have one order. -/
theorem mergeSort_perm_eq {α : Type} {ms ns : List (String × α)} (hperm : ms.Perm ns)
    (hkeys : (ms.map (·.1)).Nodup) : ms.mergeSort keyLe = ns.mergeSort keyLe := by
  have hsorted : (ms.mergeSort keyLe).Perm (ns.mergeSort keyLe) :=
    ((List.mergeSort_perm _ _).trans hperm).trans (List.mergeSort_perm _ _).symm
  refine hsorted.eq_of_pairwise ?_ (keyLe_sorted ms) (keyLe_sorted ns)
  intro a b ha hb hab hba
  have ha : a ∈ ms := (List.mergeSort_perm _ _).mem_iff.mp ha
  have hb : b ∈ ms := hperm.mem_iff.mpr ((List.mergeSort_perm _ _).mem_iff.mp hb)
  exact Table.eq_of_key hkeys ha hb (le_antisymm hab hba)

theorem same_canonical {v w : Value N} (h : Same v w) (hv : Distinct v) :
    canonicalJson text v = canonicalJson text w := by
  induction h with
  | refl v => rfl
  | symm h ih => exact (ih ((same_distinct h).mpr hv)).symm
  | trans h _ ih ih' => exact (ih hv).trans (ih' ((same_distinct h).mp hv))
  | @order members others hperm =>
    have hsort := @mergeSort_perm_eq _ (canonicalMembers text members)
      (canonicalMembers text others)
      (by rw [canonicalMembers_map, canonicalMembers_map]; exact hperm.map _)
      (by rw [canonicalMembers_map, List.map_map]; exact hv.1)
    unfold keyLe at hsort
    rw [canonicalJson, canonicalJson, hsort]
  | item before after _ ih =>
    rw [Distinct, distinctItems_iff] at hv
    rw [canonicalJson, canonicalJson, canonicalItems_map, canonicalItems_map, List.map_append,
      List.map_cons, ih (hv _ (List.mem_append_right _ List.mem_cons_self)), List.map_append,
      List.map_cons]
  | member key before after _ ih =>
    rw [Distinct, distinctMembers_iff] at hv
    rw [canonicalJson, canonicalJson, canonicalMembers_map, canonicalMembers_map, List.map_append,
      List.map_cons, ih (hv.2 _ (List.mem_append_right _ List.mem_cons_self)), List.map_append,
      List.map_cons]

end Order

/-! ### Plain texts are read in one way -/

section Text
variable {N : Type} (numbers : NumberText N)

mutual
def chars : Value N → List Char
  | .null => ['n','u','l','l']
  | .bool true => ['t','r','u','e']
  | .bool false => ['f','a','l','s','e']
  | .number n => (numbers.text n).toList
  | .string s => (Json.string s).toList
  | .array [] => ['[',']']
  | .array (value::values) => '['::(chars value++itemChars values)
  | .object [] => ['\x7b','\x7d']
  | .object ((key,value)::members) =>
    '\x7b'::((Json.string key).toList++ ':'::(chars value++memberChars members))

/-- The rest of an array after an item. -/
def itemChars : List (Value N) → List Char
  | [] => [']']
  | value::values => ','::(chars value++itemChars values)

/-- The rest of an object after a member. -/
def memberChars : List (String × Value N) → List Char
  | [] => ['\x7d']
  | (key,value)::members => ','::((Json.string key).toList++ ':'::(chars value++memberChars members))
end

/-- What a value starts with. -/
def kind (c : Char) : ℕ :=
  if c = 'n' then 0 else if c = 't' then 1 else if c = 'f' then 2 else if c = '\"' then 3
  else if c = '[' then 4 else if c = '\x7b' then 5 else if numeric c then 6 else 7

def valueKind : Value N → ℕ
  | .null => 0
  | .bool true => 1
  | .bool false => 2
  | .string _ => 3
  | .array _ => 4
  | .object _ => 5
  | .number _ => 6

theorem kind_numeric {c : Char} (h : numeric c = true) : kind c = 6 := by
  have hne : ∀ d : Char, numeric d = false → c ≠ d := by
    rintro d hd rfl
    rw [h] at hd
    cases hd
  rw [kind, if_neg (hne _ (by decide)), if_neg (hne _ (by decide)), if_neg (hne _ (by decide)),
    if_neg (hne _ (by decide)), if_neg (hne _ (by decide)), if_neg (hne _ (by decide)), if_pos h]

theorem chars_kind (v : Value N) : ∃ c cs, chars numbers v = c::cs ∧ kind c = valueKind v := by
  cases v with
  | null => exact ⟨_,_,rfl,rfl⟩
  | bool b => cases b <;> exact ⟨_,_,rfl,rfl⟩
  | number n =>
    rw [chars]
    cases hchars : (numbers.text n).toList with
    | nil => exact absurd hchars (numbers.nonempty n)
    | cons c cs =>
      refine ⟨c,cs,rfl,kind_numeric (numbers.numeric n c ?_)⟩
      rw [hchars]
      exact List.mem_cons_self
  | string s =>
    rw [chars, Json.string_chars]
    exact ⟨_,_,rfl,rfl⟩
  | array values => cases values <;> exact ⟨_,_,rfl,rfl⟩
  | object members =>
    cases members with
    | nil => exact ⟨_,_,rfl,rfl⟩
    | cons m members => exact ⟨_,_,rfl,rfl⟩

/-- What follows a number does not go on with it. -/
def Ended (rest : List Char) : Prop := ∀ c cs, rest = c::cs → numeric c = false

theorem ended_cons {c : Char} (h : numeric c = false) (cs : List Char) : Ended (c::cs) := by
  intro d ds heq
  cases heq
  exact h

theorem number_prefix {n k : N} {rest rest' : List Char} (hrest : Ended rest) (hrest' : Ended rest')
    (h : (numbers.text n).toList++rest = (numbers.text k).toList++rest') : n = k ∧ rest = rest' := by
  have hsplit : ∀ m (tail : List Char), Ended tail →
      ((numbers.text m).toList++tail).takeWhile numeric = (numbers.text m).toList := by
    intro m tail htail
    rw [List.takeWhile_append_of_pos (numbers.numeric m)]
    cases tail with
    | nil => rw [List.takeWhile_nil, List.append_nil]
    | cons c cs => rw [List.takeWhile_cons_of_neg (by rw [htail c cs rfl]; decide), List.append_nil]
  have htext : (numbers.text n).toList = (numbers.text k).toList := by
    rw [← hsplit n rest hrest, h, hsplit k rest' hrest']
  rw [htext] at h
  exact ⟨numbers.injective (String.toList_inj.mp htext),List.append_cancel_left h⟩

theorem string_prefix {s t : String} {rest rest' : List Char}
    (h : (Json.string s).toList++rest = (Json.string t).toList++rest') : s = t ∧ rest = rest' := by
  have hread := Json.name_string s rest
  rw [h, Json.name_string, Option.some.injEq, Prod.mk.injEq] at hread
  exact ⟨hread.1.symm,hread.2.symm⟩

/-- No value starts with the end of an array. -/
theorem chars_not_close {v : Value N} {rest tail : List Char} {c : Char} (hc : kind c = 7)
    (h : c::tail = chars numbers v++rest) : False := by
  obtain ⟨d,ds,hchars,hkind⟩ := chars_kind numbers v
  rw [hchars, List.cons_append, List.cons.injEq] at h
  rw [h.1, hkind] at hc
  cases v with
  | bool b => cases b <;> cases hc
  | _ => cases hc

mutual
theorem chars_unique : (v w : Value N) → (rest rest' : List Char) → Ended rest → Ended rest' →
    chars numbers v++rest = chars numbers w++rest' → v = w ∧ rest = rest'
  | v,w,rest,rest',hrest,hrest',h => by
    have hkinds : valueKind v = valueKind w := by
      obtain ⟨c,cs,hv,hkind⟩ := chars_kind numbers v
      obtain ⟨d,ds,hw,hkind'⟩ := chars_kind numbers w
      rw [hv, hw, List.cons_append, List.cons_append, List.cons.injEq] at h
      rw [← hkind, ← hkind', h.1]
    match v,w with
    | .null,.null => exact ⟨rfl,List.append_cancel_left h⟩
    | .bool true,.bool true => exact ⟨rfl,List.append_cancel_left h⟩
    | .bool false,.bool false => exact ⟨rfl,List.append_cancel_left h⟩
    | .number n,.number k =>
      obtain ⟨hn,hend⟩ := number_prefix numbers hrest hrest' h
      exact ⟨by rw [hn],hend⟩
    | .string s,.string t =>
      obtain ⟨hs,hend⟩ := string_prefix h
      exact ⟨by rw [hs],hend⟩
    | .array [],.array [] => exact ⟨rfl,List.append_cancel_left h⟩
    | .array [],.array (w::ws) =>
      simp only [chars, List.cons_append, List.nil_append, List.cons.injEq, true_and,
        List.append_assoc] at h
      exact (chars_not_close numbers (by decide) h).elim
    | .array (v::vs),.array [] =>
      simp only [chars, List.cons_append, List.nil_append, List.cons.injEq, true_and,
        List.append_assoc] at h
      exact (chars_not_close numbers (by decide) h.symm).elim
    | .array (v::vs),.array (w::ws) =>
      simp only [chars, List.cons_append, List.cons.injEq, true_and, List.append_assoc] at h
      obtain ⟨hv,htail⟩ := chars_unique v w _ _ (itemChars_ended vs rest) (itemChars_ended ws rest') h
      obtain ⟨hvs,hend⟩ := items_prefix vs ws rest rest' htail
      exact ⟨by rw [hv, hvs],hend⟩
    | .object [],.object [] => exact ⟨rfl,List.append_cancel_left h⟩
    | .object [],.object ((key,w)::ns) =>
      rw [chars, chars, Json.string_chars] at h
      simp at h
    | .object ((key,v)::ms),.object [] =>
      rw [chars, chars, Json.string_chars] at h
      simp at h
    | .object ((key,v)::ms),.object ((key',w)::ns) =>
      simp only [chars, List.cons_append, List.cons.injEq, true_and, List.append_assoc] at h
      obtain ⟨hkey,htail⟩ := string_prefix h
      rw [List.cons.injEq] at htail
      obtain ⟨hv,htail⟩ := chars_unique v w _ _ (memberChars_ended ms rest)
        (memberChars_ended ns rest') htail.2
      obtain ⟨hms,hend⟩ := members_prefix ms ns rest rest' htail
      exact ⟨by rw [hkey, hv, hms],hend⟩

theorem items_prefix : (vs ws : List (Value N)) → (rest rest' : List Char) →
    itemChars numbers vs++rest = itemChars numbers ws++rest' → vs = ws ∧ rest = rest'
  | [],[],rest,rest',h => ⟨rfl,List.append_cancel_left h⟩
  | [],w::ws,rest,rest',h => by simp [itemChars] at h
  | v::vs,[],rest,rest',h => by simp [itemChars] at h
  | v::vs,w::ws,rest,rest',h => by
    simp only [itemChars, List.cons_append, List.cons.injEq, true_and, List.append_assoc] at h
    obtain ⟨hv,htail⟩ := chars_unique v w _ _ (itemChars_ended vs rest) (itemChars_ended ws rest') h
    obtain ⟨hvs,hend⟩ := items_prefix vs ws rest rest' htail
    exact ⟨by rw [hv, hvs],hend⟩

theorem members_prefix : (ms ns : List (String × Value N)) → (rest rest' : List Char) →
    memberChars numbers ms++rest = memberChars numbers ns++rest' → ms = ns ∧ rest = rest'
  | [],[],rest,rest',h => ⟨rfl,List.append_cancel_left h⟩
  | [],n::ns,rest,rest',h => by simp [memberChars] at h
  | m::ms,[],rest,rest',h => by simp [memberChars] at h
  | (key,v)::ms,(key',w)::ns,rest,rest',h => by
    simp only [memberChars, List.cons_append, List.cons.injEq, true_and, List.append_assoc] at h
    obtain ⟨hkey,htail⟩ := string_prefix h
    rw [List.cons.injEq] at htail
    obtain ⟨hv,htail⟩ := chars_unique v w _ _ (memberChars_ended ms rest)
      (memberChars_ended ns rest') htail.2
    obtain ⟨hms,hend⟩ := members_prefix ms ns rest rest' htail
    exact ⟨by rw [hkey, hv, hms],hend⟩

theorem itemChars_ended : (vs : List (Value N)) → (rest : List Char) →
    Ended (itemChars numbers vs++rest)
  | [],_ => ended_cons (by decide) _
  | _::_,_ => ended_cons (by decide) _

theorem memberChars_ended : (ms : List (String × Value N)) → (rest : List Char) →
    Ended (memberChars numbers ms++rest)
  | [],_ => ended_cons (by decide) _
  | _::_,_ => ended_cons (by decide) _
end

theorem chars_injective {v w : Value N} (h : chars numbers v = chars numbers w) : v = w := by
  have hended : Ended [] := fun _ _ heq => absurd heq (by simp)
  exact (chars_unique numbers v w [] [] hended hended (by rw [h])).1

/-! ### The canonical text is the text of the normal form -/

theorem commaSeparated_chars (text : String) (texts : List String) :
    (Json.commaSeparated (text::texts)).toList =
      text.toList++(texts.map String.toList).flatMap (','::·) := by
  induction texts generalizing text with
  | nil => simp [Json.commaSeparated]
  | cons next texts ih =>
    rw [Json.commaSeparated, String.toList_append, String.toList_append, ih, List.map_cons,
      List.flatMap_cons, List.append_assoc]
    · rfl
    · simp

theorem itemChars_eq (values : List (Value N)) :
    itemChars numbers values = (values.map (chars numbers)).flatMap (','::·)++[']'] := by
  induction values with
  | nil => rfl
  | cons v values ih =>
    rw [itemChars, ih, List.map_cons, List.flatMap_cons, List.cons_append, List.cons_append,
      List.append_assoc]

/-- A key with the characters of its value. -/
def memberText (m : String × List Char) : List Char := (Json.string m.1).toList++ ':'::m.2

theorem memberChars_eq (members : List (String × Value N)) :
    memberChars numbers members =
      ((members.map fun m => (m.1,chars numbers m.2)).map memberText).flatMap (','::·)++['\x7d'] := by
  induction members with
  | nil => rfl
  | cons m members ih =>
    rw [memberChars, ih]
    simp only [List.map_cons, List.flatMap_cons, memberText, List.cons_append, List.append_assoc]

theorem array_chars {texts : List String} {values : List (Value N)}
    (h : texts.map String.toList = values.map (chars numbers)) :
    (Json.array texts).toList = chars numbers (.array values) := by
  match texts,values with
  | [],[] => rfl
  | text::texts,v::values =>
    rw [List.map_cons, List.map_cons, List.cons.injEq] at h
    rw [Json.array, String.toList_append, String.toList_append, commaSeparated_chars, h.1, h.2,
      chars, itemChars_eq, ← List.append_assoc (chars numbers v)]
    rfl

theorem object_chars {texts : List String} {members : List (String × Value N)}
    (h : texts.map String.toList = (members.map fun m => (m.1,chars numbers m.2)).map memberText) :
    (Json.object texts).toList = chars numbers (.object members) := by
  match texts,members with
  | [],[] => rfl
  | text::texts,(key,v)::members =>
    rw [List.map_cons, List.map_cons, List.map_cons, List.cons.injEq] at h
    rw [Json.object, String.toList_append, String.toList_append, commaSeparated_chars, h.1, h.2,
      chars, memberChars_eq]
    simp [memberText]

theorem sorted_map {α β : Type} (f : α → β) (ms : List (String × α)) :
    (ms.mergeSort keyLe).map (fun m => (m.1,f m.2)) =
      (ms.map fun m => (m.1,f m.2)).mergeSort keyLe :=
  List.map_mergeSort fun _ _ _ _ => rfl

mutual
theorem canonicalJson_chars : (v : Value N) →
    (canonicalJson numbers.text v).toList = chars numbers (normal v)
  | .null => by simp [canonicalJson, normal, chars]
  | .bool true => by simp [canonicalJson, normal, chars]
  | .bool false => by simp [canonicalJson, normal, chars]
  | .number _ => rfl
  | .string _ => rfl
  | .array values => by
    rw [canonicalJson, normal]
    exact array_chars numbers (canonicalItems_chars values)
  | .object members => by
    rw [canonicalJson, normal]
    apply object_chars
    have hsorted := congrArg (List.mergeSort · keyLe) (canonicalMembers_chars members)
    rw [← sorted_map String.toList, ← sorted_map (chars numbers)] at hsorted
    rw [← hsorted, List.map_map, List.map_map]
    refine List.map_congr_left fun m _ => ?_
    simp [memberText, Json.member]

theorem canonicalItems_chars : (values : List (Value N)) →
    (canonicalItems numbers.text values).map String.toList =
      (normalItems values).map (chars numbers)
  | [] => rfl
  | v::values => by
    rw [canonicalItems, normalItems, List.map_cons, List.map_cons, canonicalJson_chars v,
      canonicalItems_chars values]

theorem canonicalMembers_chars : (members : List (String × Value N)) →
    ((canonicalMembers numbers.text members).map fun m => (m.1,m.2.toList)) =
      (normalMembers members).map fun m => (m.1,chars numbers m.2)
  | [] => rfl
  | (key,v)::members => by
    rw [canonicalMembers, normalMembers, List.map_cons, List.map_cons, canonicalJson_chars v,
      canonicalMembers_chars members]
end

/-- Two values under distinct keys have one canonical text exactly if they are the same up to
the order of keys. -/
theorem canonicalJson_canonical {v w : Value N} (hv : Distinct v) :
    canonicalJson numbers.text v = canonicalJson numbers.text w ↔ Same v w := by
  constructor
  · intro h
    have hnormal : normal v = normal w := by
      apply chars_injective numbers
      rw [← canonicalJson_chars, ← canonicalJson_chars, h]
    exact (same_normal v).trans (hnormal ▸ (same_normal w).symm)
  · intro h
    exact same_canonical numbers.text h hv

end Text

/-- Decimal numbers. -/
def decimals : NumberText ℕ where
  text := fun n => String.ofList (Nat.toDigits 10 n)
  injective := by
    intro n k h
    have hread : ∀ m, Json.numeral (Nat.toDigits 10 m++[]) = some (m,[]) := fun m =>
      Json.numeral_toDigits m Json.ended_nil
    have hsame := hread n
    rw [String.ofList_injective h, hread k] at hsame
    exact (Prod.mk.inj (Option.some.inj hsame)).1.symm
  nonempty := by
    intro n
    rw [String.toList_ofList]
    exact Nat.toDigits_ne_nil
  numeric := by
    intro n c hc
    rw [String.toList_ofList] at hc
    rw [numeric, Json.toDigits_digits n c hc]
    rfl

theorem canonicalJson_reordered :
    canonicalJson decimals.text (.object [("a",.number 1),("b",.null)]) =
      canonicalJson decimals.text (.object [("b",.null),("a",.number 1)]) :=
  (canonicalJson_canonical decimals (by simp [Distinct, DistinctMembers])).mpr
    (Same.order (List.Perm.swap _ _ _))

end DocumentIntelligence.CanonicalJson
