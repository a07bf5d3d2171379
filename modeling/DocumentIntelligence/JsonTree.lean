import DocumentIntelligence.Json

/-!
# JSON trees

Trees with whole numbers, floating point numbers and values of a type which is not
looked into, their text, and readers which look the members of an object up by name.
-/

set_option autoImplicit false

namespace DocumentIntelligence.JsonTree

inductive Node (V : Type) where
  | null
  | bool (b : Bool)
  | integer (n : ℕ)
  | number (x : Float)
  | string (s : String)
  | array (items : List (Node V))
  | object (members : List (String × Node V))
  | value (v : V)

section Trees
variable {V : Type}

/-! ### Text -/

section Text
variable (formatF64 : Float → String) (formatValue : V → String)

mutual
def Node.render : Node V → String
  | .null => "null"
  | .bool true => "true"
  | .bool false => "false"
  | .integer n => toString n
  | .number x => formatF64 x
  | .string s => Json.string s
  | .array items => Json.array (renderItems items)
  | .object members => Json.object (renderMembers members)
  | .value v => formatValue v

def renderItems : List (Node V) → List String
  | [] => []
  | item::items => item.render::renderItems items

def renderMembers : List (String × Node V) → List String
  | [] => []
  | (name,member)::members => Json.member name member.render::renderMembers members
end

theorem renderItems_map {α : Type} (write : α → Node V) (items : List α) :
    renderItems formatF64 formatValue (items.map write) =
      items.map fun item => (write item).render formatF64 formatValue := by
  induction items with
  | nil => rfl
  | cons item items ih => rw [List.map_cons, List.map_cons, renderItems, ih]

end Text

/-! ### Readers -/

def members : Node V → Option (List (String × Node V))
  | .object ms => some ms
  | _ => none

/-- No name comes twice, and with `deny_unknown_fields` no other name comes. -/
def fieldsOf (deny : Bool) (names : List String) (tree : Node V) :
    Option (List (String × Node V)) :=
  (members tree).bind fun ms =>
    if (ms.map (·.1)).Nodup ∧ (deny = true → ∀ m ∈ ms, m.1 ∈ names) then some ms else none

def lookup (name : String) (ms : List (String × Node V)) : Option (Node V) :=
  (ms.find? fun m => m.1 == name).map (·.2)

def readString : Node V → Option String
  | .string s => some s
  | _ => none

/-- An unsigned integer of so many bits. -/
def readUnsigned (bits : ℕ) : Node V → Option ℕ
  | .integer n => if n < 2^bits then some n else none
  | _ => none

def readNumber : Node V → Option Float
  | .number x => some x
  | .integer n => some (Float.ofNat n)
  | _ => none

def readArray {α : Type} (read : Node V → Option α) : Node V → Option (List α)
  | .array items => items.mapM read
  | _ => none

/-- `Option` -/
def readNullable {α : Type} (read : Node V → Option α) : Node V → Option (Option α)
  | .null => some none
  | tree => (read tree).map some

def writeNullable {α : Type} (write : α → Node V) (x : Option α) : Node V := x.elim .null write

/-- A field which has to be there. -/
def required {α : Type} (name : String) (read : Node V → Option α) (ms : List (String × Node V)) :
    Option α := (lookup name ms).bind read

/-- A field of an `Option`, which may be left out. -/
def optional {α : Type} (name : String) (read : Node V → Option α) (ms : List (String × Node V)) :
    Option (Option α) :=
  match lookup name ms with
  | none => some none
  | some tree => readNullable read tree

/-- A field with `#[serde(default)]`. -/
def defaulted {α : Type} (name : String) (default : α) (read : Node V → Option α)
    (ms : List (String × Node V)) : Option α :=
  match lookup name ms with
  | none => some default
  | some tree => read tree

theorem readUnsigned_integer {bits n : ℕ} (h : n < 2^bits) :
    readUnsigned bits (.integer n : Node V) = some n := by
  rw [readUnsigned, if_pos h]

theorem mapM_write {α : Type} {read : Node V → Option α} {write : α → Node V} (items : List α)
    (h : ∀ item ∈ items, read (write item) = some item) :
    (items.map write).mapM read = some items := by
  induction items with
  | nil => rfl
  | cons item items ih =>
    rw [List.map_cons, List.mapM_cons, h item List.mem_cons_self,
      ih fun other hother => h other (List.mem_cons_of_mem item hother)]
    rfl

theorem readArray_write {α : Type} {read : Node V → Option α} {write : α → Node V}
    (items : List α) (h : ∀ item ∈ items, read (write item) = some item) :
    readArray read (.array (items.map write)) = some items := mapM_write items h

theorem readNullable_write {α : Type} {read : Node V → Option α} {write : α → Node V}
    (x : Option α) (hnull : ∀ a ∈ x, write a ≠ .null)
    (h : ∀ a ∈ x, read (write a) = some a) : readNullable read (writeNullable write x) = some x := by
  cases x with
  | none => rfl
  | some a =>
    have hne := hnull a rfl
    rw [writeNullable, Option.elim_some, readNullable, h a rfl]
    · rfl
    · exact hne

theorem fieldsOf_object {deny : Bool} {names : List String} {ms : List (String × Node V)}
    (hnames : ms.map (·.1) = names) (hnodup : names.Nodup) :
    fieldsOf deny names (.object ms) = some ms := by
  rw [fieldsOf, members, Option.bind_some, if_pos]
  refine ⟨hnames ▸ hnodup,?_⟩
  intro _ m hm
  rw [← hnames]
  exact List.mem_map_of_mem hm

theorem lookup_mem {name : String} {ms : List (String × Node V)} {tree : Node V}
    (h : lookup name ms = some tree) : (name,tree) ∈ ms := by
  obtain ⟨m,hm,rfl⟩ := Option.map_eq_some_iff.mp h
  have hname := List.find?_some hm
  rw [beq_iff_eq] at hname
  rw [← hname]
  exact List.mem_of_find?_eq_some hm

theorem lookup_of_mem {name : String} {ms : List (String × Node V)} {tree : Node V}
    (hnodup : (ms.map (·.1)).Nodup) (h : (name,tree) ∈ ms) : lookup name ms = some tree := by
  induction ms with
  | nil => exact absurd h List.not_mem_nil
  | cons m ms ih =>
    rw [List.map_cons, List.nodup_cons] at hnodup
    rw [lookup, List.find?_cons]
    rcases List.mem_cons.mp h with rfl | h
    · rw [beq_self_eq_true]
      rfl
    · have hne : m.1 ≠ name := fun heq => hnodup.1 (heq ▸ List.mem_map_of_mem h)
      rw [beq_eq_false_iff_ne.mpr hne]
      exact ih hnodup.2 h

theorem bind_read {α β : Type} {x : Option α} {f : α → Option β} {a : α} {b : β}
    (hx : x = some a) (hf : f a = some b) : x >>= f = some b := by
  rw [hx]
  exact hf

section Fields
variable {α : Type} {name : String} {read : Node V → Option α} {ms : List (String × Node V)}
  {tree : Node V}

theorem required_eq {a : α} (hlookup : lookup name ms = some tree) (h : read tree = some a) :
    required name read ms = some a := by
  rw [required, hlookup, Option.bind_some, h]

theorem optional_eq {x : Option α} (hlookup : lookup name ms = some tree)
    (h : readNullable read tree = some x) : optional name read ms = some x := by
  rw [optional, hlookup]
  exact h

theorem defaulted_eq {default a : α} (hlookup : lookup name ms = some tree)
    (h : read tree = some a) : defaulted name default read ms = some a := by
  rw [defaulted, hlookup]
  exact h

end Fields

end Trees

end DocumentIntelligence.JsonTree
