import DocumentIntelligence.JsonTree
import Mathlib.Computability.Language

/-!
# JSON schemas

The keywords of a schema and the trees which are valid under it. A keyword says nothing
about a tree of another type than its own. What a value which is not looked into satisfies
is a parameter.
-/

set_option autoImplicit false

namespace DocumentIntelligence.JsonSchema
open JsonTree
open scoped Computability

/-! ### Patterns -/

def charOf (p : Char → Bool) : Language Char := {w | ∃ c, p c = true ∧ w = [c]}

def literal (s : String) : Language Char := {w | w = s.toList}

/-- Repeated at least and at most so many times. -/
def between (lo hi : ℕ) (l : Language Char) : Language Char := {w | ∃ n, lo ≤ n ∧ n ≤ hi ∧ w ∈ l^n}

def someOf (l : Language Char) : Language Char := l*l∗

def maybe (l : Language Char) : Language Char := 1+l

/-- A pattern without anchors is looked for in the text. -/
def anywhere (l : Language Char) : Language Char := {w | ∃ a b c, b ∈ l ∧ w = a++b++c}

theorem mem_charOf_pow {p : Char → Bool} {w : List Char} (h : ∀ c ∈ w, p c = true) :
    w ∈ charOf p^w.length := by
  induction w with
  | nil => exact Language.mem_one _ |>.mpr rfl
  | cons c w ih =>
    rw [List.length_cons, pow_succ']
    have hrest := ih fun d hd => h d (List.mem_cons_of_mem c hd)
    exact Language.mem_mul.mpr ⟨[c],⟨c,h c List.mem_cons_self,rfl⟩,w,hrest,rfl⟩

theorem mem_between {p : Char → Bool} {w : List Char} {lo hi : ℕ} (hlo : lo ≤ w.length)
    (hhi : w.length ≤ hi) (h : ∀ c ∈ w, p c = true) : w ∈ between lo hi (charOf p) :=
  ⟨w.length,hlo,hhi,mem_charOf_pow h⟩

theorem mem_someOf {p : Char → Bool} {w : List Char} (hne : w ≠ [])
    (h : ∀ c ∈ w, p c = true) : w ∈ someOf (charOf p) := by
  cases w with
  | nil => exact absurd rfl hne
  | cons c w =>
    refine Language.mem_mul.mpr ⟨[c],⟨c,h c List.mem_cons_self,rfl⟩,w,?_,rfl⟩
    refine Language.mem_kstar.mpr ⟨w.map fun d => [d],?_,?_⟩
    · induction w with
      | nil => rfl
      | cons d w ih =>
        rw [List.map_cons, List.flatten_cons, ← ih (by simp) fun e he => h e (by
          rcases List.mem_cons.mp he with rfl | he
          · exact List.mem_cons_self
          · exact List.mem_cons_of_mem _ (List.mem_cons_of_mem _ he))]
        rfl
    · intro y hy
      obtain ⟨d,hd,rfl⟩ := List.mem_map.mp hy
      exact ⟨d,h d (List.mem_cons_of_mem c hd),rfl⟩

theorem mem_literal_mul {s : String} {l : Language Char} {w : List Char} (h : w ∈ l) :
    s.toList++w ∈ literal s*l := Language.mem_mul.mpr ⟨_,rfl,w,h,rfl⟩

/-! ### Schemas -/

inductive InstanceType where
  | null
  | boolean
  | integer
  | number
  | string
  | array
  | object
  deriving DecidableEq, Repr

inductive Keyword where
  | type (types : List InstanceType)
  | enum (values : List String)
  | pattern (language : Language Char)
  | minLength (n : ℕ)
  | maxLength (n : ℕ)
  | minItems (n : ℕ)
  | maxItems (n : ℕ)
  | minimum (n : ℕ)
  | maximum (n : ℕ)
  | required (names : List String)

inductive Schema where
  | keyword (k : Keyword)
  | items (schema : Schema)
  | properties (schemas : List (String × Schema)) (additional : Schema)
  | propertyNames (schema : Schema)
  | allOf (schemas : List Schema)
  | anyOf (schemas : List Schema)
  | oneOf (schemas : List Schema)
  | ifThen (condition consequence : Schema)

/-- The schema `true`. -/
def Schema.anything : Schema := .allOf []

/-- The schema `false`. -/
def Schema.nothing : Schema := .anyOf []

section Validity
variable {V : Type}

/-- A number without a fraction is an integer. -/
def hasType : InstanceType → Node V → Prop
  | .null,.null => True
  | .boolean,.bool _ => True
  | .integer,.integer _ => True
  | .integer,.number x => x.isFinite = true ∧ x.floor = x
  | .number,.integer _ => True
  | .number,.number _ => True
  | .string,.string _ => True
  | .array,.array _ => True
  | .object,.object _ => True
  | _,_ => False

variable (accepts : Schema → V → Prop)

def Keyword.Holds : Keyword → Node V → Prop
  | k,.value v => accepts (.keyword k) v
  | .type types,tree => ∃ type ∈ types, hasType type tree
  | .enum values,tree => ∃ s ∈ values, tree = .string s
  | .pattern language,.string s => s.toList ∈ language
  | .minLength n,.string s => n ≤ s.length
  | .maxLength n,.string s => s.length ≤ n
  | .minItems n,.array items => n ≤ items.length
  | .maxItems n,.array items => items.length ≤ n
  | .minimum n,.integer k => n ≤ k
  | .minimum n,.number x => Float.ofNat n ≤ x
  | .maximum n,.integer k => k ≤ n
  | .maximum n,.number x => x ≤ Float.ofNat n
  | .required names,.object ms => ∀ name ∈ names, name ∈ ms.map (·.1)
  | _,_ => True

mutual
def Valid : Schema → Node V → Prop
  | .keyword k,tree => k.Holds accepts tree
  | .items schema,.array items => ∀ item ∈ items, Valid schema item
  | .items schema,.value v => accepts (.items schema) v
  | .items _,_ => True
  | .properties schemas additional,.object ms =>
      ∀ m ∈ ms, ValidMember schemas (Valid additional m.2) m.1 m.2
  | .properties schemas additional,.value v => accepts (.properties schemas additional) v
  | .properties _ _,_ => True
  | .propertyNames schema,.object ms => ∀ m ∈ ms, Valid schema (.string m.1)
  | .propertyNames schema,.value v => accepts (.propertyNames schema) v
  | .propertyNames _,_ => True
  | .allOf schemas,tree => ValidAll schemas tree
  | .anyOf schemas,tree => ValidAny schemas tree
  | .oneOf schemas,tree => ValidOne schemas tree
  | .ifThen condition consequence,tree => Valid condition tree → Valid consequence tree

def ValidAll : List Schema → Node V → Prop
  | [],_ => True
  | schema::schemas,tree => Valid schema tree ∧ ValidAll schemas tree

def ValidAny : List Schema → Node V → Prop
  | [],_ => False
  | schema::schemas,tree => Valid schema tree ∨ ValidAny schemas tree

/-- Valid under one schema and no other. -/
def ValidOne : List Schema → Node V → Prop
  | [],_ => False
  | schema::schemas,tree =>
      (Valid schema tree ∧ ¬ValidAny schemas tree) ∨ (¬Valid schema tree ∧ ValidOne schemas tree)

/-- A member without a schema of its name is an additional one. -/
def ValidMember : List (String × Schema) → Prop → String → Node V → Prop
  | [],additional,_,_ => additional
  | (own,schema)::schemas,additional,name,tree =>
      (own = name ∧ Valid schema tree) ∨ (own ≠ name ∧ ValidMember schemas additional name tree)
end

variable {accepts}

theorem validAll_iff {schemas : List Schema} {tree : Node V} :
    ValidAll accepts schemas tree ↔ ∀ schema ∈ schemas, Valid accepts schema tree := by
  induction schemas with
  | nil => simp [ValidAll]
  | cons schema schemas ih => simp [ValidAll, ih]

theorem validMember_iff {schemas : List (String × Schema)} {additional : Prop} {name : String}
    {tree : Node V} (hnodup : (schemas.map (·.1)).Nodup) :
    ValidMember accepts schemas additional name tree ↔
      (∀ schema, (name,schema) ∈ schemas → Valid accepts schema tree) ∧
        (name ∉ schemas.map (·.1) → additional) := by
  induction schemas with
  | nil => simp [ValidMember]
  | cons own schemas ih =>
    obtain ⟨own,schema⟩ := own
    rw [List.map_cons, List.nodup_cons] at hnodup
    rw [ValidMember, ih hnodup.2]
    by_cases hname : own = name
    · subst hname
      have hnot : ∀ other, (own,other) ∉ schemas := fun other hother =>
        hnodup.1 (List.mem_map.mpr ⟨_,hother,rfl⟩)
      simp [hnot]
    · have hne : name ≠ own := fun h => hname h.symm
      simp [hname, hne]

theorem valid_properties {schemas : List (String × Schema)} {additional : Schema}
    {ms : List (String × Node V)} (hschemas : (schemas.map (·.1)).Nodup) :
    Valid accepts (.properties schemas additional) (.object ms) ↔
      (∀ schema ∈ schemas, ∀ tree, (schema.1,tree) ∈ ms → Valid accepts schema.2 tree) ∧
        ∀ m ∈ ms, m.1 ∉ schemas.map (·.1) → Valid accepts additional m.2 := by
  rw [Valid]
  constructor
  · intro h
    exact ⟨fun schema hschema tree hmem =>
        ((validMember_iff hschemas).mp (h _ hmem)).1 schema.2 hschema,
      fun m hm => ((validMember_iff hschemas).mp (h m hm)).2⟩
  · intro h m hm
    exact (validMember_iff hschemas).mpr ⟨fun schema hschema => h.1 _ hschema m.2 hm,h.2 m hm⟩

/-! ### Schemas of objects, arrays and nullable values -/

/-- An object with these members and no others. -/
def record (schemas : List (String × Schema)) : Schema :=
  .allOf [.keyword (.type [.object]),.keyword (.required (schemas.map (·.1))),
    .properties schemas .nothing]

theorem object_typed (ms : List (String × Node V)) :
    Valid accepts (.keyword (.type [.object])) (.object ms) :=
  ⟨.object,List.mem_cons_self,trivial⟩

/-- The members come in the order of their schemas. -/
def Members (accepts : Schema → V → Prop) (schemas : List (String × Schema))
    (ms : List (String × Node V)) : Prop :=
  List.Forall₂ (fun schema m => schema.1 = m.1 ∧ Valid accepts schema.2 m.2) schemas ms

theorem members_nil : Members accepts [] [] := .nil

theorem members_cons {name : String} {schema : Schema} {tree : Node V}
    {schemas : List (String × Schema)} {ms : List (String × Node V)}
    (h : Valid accepts schema tree) (hrest : Members accepts schemas ms) :
    Members accepts ((name,schema)::schemas) ((name,tree)::ms) := .cons ⟨rfl,h⟩ hrest

theorem members_names {schemas : List (String × Schema)} {ms : List (String × Node V)}
    (h : Members accepts schemas ms) : ms.map (·.1) = schemas.map (·.1) := by
  induction h with
  | nil => rfl
  | cons hm _ ih => rw [List.map_cons, List.map_cons, hm.1, ih]

theorem members_valid {schemas : List (String × Schema)} {ms : List (String × Node V)}
    (h : Members accepts schemas ms) (hnodup : (schemas.map (·.1)).Nodup) :
    ∀ schema ∈ schemas, ∀ tree, (schema.1,tree) ∈ ms → Valid accepts schema.2 tree := by
  induction h with
  | nil => exact fun _ hschema => absurd hschema List.not_mem_nil
  | cons hm hrest ih =>
    rw [List.map_cons, List.nodup_cons] at hnodup
    intro schema hschema tree htree
    rcases List.mem_cons.mp hschema with rfl | hschema
    · rcases List.mem_cons.mp htree with rfl | htree
      · exact hm.2
      · refine absurd ?_ hnodup.1
        rw [← members_names hrest]
        exact List.mem_map_of_mem htree
    · rcases List.mem_cons.mp htree with rfl | htree
      · exact absurd (hm.1 ▸ List.mem_map_of_mem hschema) hnodup.1
      · exact ih hnodup.2 schema hschema tree htree

theorem record_valid {schemas : List (String × Schema)} {ms : List (String × Node V)}
    (hnodup : (schemas.map (·.1)).Nodup) (h : Members accepts schemas ms) :
    Valid accepts (record schemas) (.object ms) := by
  have hnames := members_names h
  refine ⟨object_typed ms,?_,?_,trivial⟩
  · intro name hname
    rw [hnames]
    exact hname
  · refine (valid_properties hnodup).mpr ⟨members_valid h hnodup,?_⟩
    intro m hm hnot
    rw [← hnames] at hnot
    exact absurd (List.mem_map_of_mem hm) hnot

theorem not_record {schemas : List (String × Schema)} :
    ¬Valid accepts (record schemas) (.null : Node V) := by
  rintro ⟨⟨type,htype,hhas⟩,_⟩
  rw [List.mem_singleton.mp htype] at hhas
  exact hhas

def arrayOf (schema : Schema) (bounds : List Keyword) : Schema :=
  .allOf ([.keyword (.type [.array]),.items schema]++bounds.map .keyword)

theorem arrayOf_valid {α : Type} {schema : Schema} {bounds : List Keyword} {write : α → Node V}
    {items : List α} (h : ∀ item ∈ items, Valid accepts schema (write item))
    (hbounds : ∀ k ∈ bounds, k.Holds accepts (.array (items.map write))) :
    Valid accepts (arrayOf schema bounds) (.array (items.map write)) := by
  refine ⟨⟨.array,List.mem_cons_self,trivial⟩,?_,?_⟩
  · intro tree htree
    obtain ⟨item,hitem,rfl⟩ := List.mem_map.mp htree
    exact h item hitem
  · refine validAll_iff.mpr ?_
    intro schema hschema
    obtain ⟨k,hk,rfl⟩ := List.mem_map.mp hschema
    exact hbounds k hk

/-- A text with further keywords. -/
def stringOf (bounds : List Keyword) : Schema :=
  .allOf (.keyword (.type [.string])::bounds.map .keyword)

theorem stringOf_valid {bounds : List Keyword} {s : String}
    (h : ∀ k ∈ bounds, k.Holds accepts (.string s : Node V)) :
    Valid accepts (stringOf bounds) (.string s) := by
  refine ⟨⟨.string,List.mem_cons_self,trivial⟩,validAll_iff.mpr ?_⟩
  intro schema hschema
  obtain ⟨k,hk,rfl⟩ := List.mem_map.mp hschema
  exact h k hk

theorem not_stringOf {bounds : List Keyword} :
    ¬Valid accepts (stringOf bounds) (.null : Node V) := by
  rintro ⟨⟨type,htype,hhas⟩,_⟩
  rw [List.mem_singleton.mp htype] at hhas
  exact hhas

def nullable (schema : Schema) : Schema := .oneOf [schema,.keyword (.type [.null])]

theorem nullable_valid {α : Type} {schema : Schema} {write : α → Node V} {x : Option α}
    (hnull : ¬Valid accepts schema .null)
    (htype : ∀ a, ¬Valid accepts (.keyword (.type [.null])) (write a))
    (h : ∀ a ∈ x, Valid accepts schema (write a)) :
    Valid accepts (nullable schema) (writeNullable write x) := by
  cases x with
  | none => exact Or.inr ⟨hnull,Or.inl ⟨⟨.null,List.mem_cons_self,trivial⟩,id⟩⟩
  | some a => exact Or.inl ⟨h a rfl,fun hany => htype a (hany.resolve_right id)⟩

theorem not_null {tree : Node V} (h : ¬hasType .null tree) (hvalue : ∀ v, tree ≠ .value v) :
    ¬Valid accepts (.keyword (.type [.null])) tree := by
  intro hvalid
  cases tree with
  | value v => exact absurd rfl (hvalue v)
  | null => exact h trivial
  | bool | integer | number | string | array | object =>
    obtain ⟨type,htype,hhas⟩ := hvalid
    rw [List.mem_singleton.mp htype] at hhas
    exact hhas

end Validity

end DocumentIntelligence.JsonSchema
