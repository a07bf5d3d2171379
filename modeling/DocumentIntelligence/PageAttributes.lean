import Mathlib

/-!
# Inherited page attributes

A page of a PDF has the attributes of its dictionary and those which it inherits
along its `Parent` references. Which object is a dictionary is what the library
answers which reads the document; the references between them are arbitrary.
-/

set_option autoImplicit false

namespace DocumentIntelligence.PageAttributes

/-- The object and generation numbers. -/
abbrev ObjectId := ℕ × ℕ

abbrev Name := List UInt8

inductive Object where
  | null
  | boolean (value : Bool)
  | integer (value : ℤ)
  | real (value : Float32)
  | name (value : Name)
  | string (value : List UInt8)
  | array (values : List Object)
  | dictionary (entries : List (Name × Object))
  | stream (entries : List (Name × Object)) (content : List UInt8)
  | reference (id : ObjectId)

def Object.asReference : Object → Option ObjectId
  | .reference id => some id
  | _ => none

def Object.asFloat : Object → Option Float32
  | .integer value => some (Float32.ofInt value)
  | .real value => some value
  | _ => none

/-- The entries of a dictionary, of which each has its own key. -/
abbrev Dictionary := List (Name × Object)

def Dictionary.get (dictionary : Dictionary) (key : Name) : Option Object := dictionary.lookup key

def Dictionary.has (dictionary : Dictionary) (key : Name) : Bool := (dictionary.get key).isSome

/-- `Document::get_dictionary`, which fails for a missing object and for one which is
no dictionary. -/
structure Document where
  getDictionary : ObjectId → Option Dictionary

inductive Error where
  | invalidDocument
  deriving DecidableEq, Repr

def maximumPageTreeDepth : ℕ := 64

/-- `b"Parent"` -/
def parentKey : Name := "Parent".toList.map Char.toUInt8

section Lookup
variable (document : Document)

/-- The rounds of the loop which are left, and the nodes which it has visited. -/
def inheritedLoop (key : Name) : ℕ → List ObjectId → ObjectId → Except Error (Option Object)
  | 0, _, _ => .error .invalidDocument
  | rounds+1, visited, current =>
    if visited.contains current then .error .invalidDocument
    else match document.getDictionary current with
    | none => .error .invalidDocument
    | some dictionary => match dictionary.get key with
      | some value => .ok (some value)
      | none =>
        if !dictionary.has parentKey then .ok none
        else match (dictionary.get parentKey).bind Object.asReference with
          | none => .error .invalidDocument
          | some parent => inheritedLoop key rounds (current::visited) parent

def inheritedOptionalValue (pageId : ObjectId) (key : Name) : Except Error (Option Object) :=
  inheritedLoop document key maximumPageTreeDepth [] pageId

def inheritedValue (pageId : ObjectId) (key : Name) : Except Error Object := do
  match ← inheritedOptionalValue document pageId key with
  | some value => .ok value
  | none => .error .invalidDocument

def inheritedOptionalNumber (pageId : ObjectId) (key : Name) : Except Error (Option Float) := do
  match ← inheritedOptionalValue document pageId key with
  | none => .ok none
  | some value => match value.asFloat with
    | some number => .ok (some number.toFloat)
    | none => .error .invalidDocument

/-! ### The chain of a page -/

/-- The node after `k` references, none of the nodes before it having the key. -/
inductive Reaches (key : Name) (pageId : ObjectId) : ℕ → ObjectId → Prop
  | page : Reaches key pageId 0 pageId
  | parent {k : ℕ} {id parent : ObjectId} {dictionary : Dictionary} :
      Reaches key pageId k id → document.getDictionary id = some dictionary →
      dictionary.get key = none → dictionary.get parentKey = some (.reference parent) →
      Reaches key pageId (k+1) parent

variable {document} {key : Name} {pageId : ObjectId}

theorem reaches_unique {k : ℕ} {id id' : ObjectId} (h : Reaches document key pageId k id)
    (h' : Reaches document key pageId k id') : id = id' := by
  induction h generalizing id' with
  | page =>
    cases h'
    rfl
  | parent h hdictionary hkey hparent ih =>
    cases h' with
    | parent h' hdictionary' hkey' hparent' =>
      have heq := ih h'
      subst heq
      rw [hdictionary, Option.some.injEq] at hdictionary'
      subst hdictionary'
      rw [hparent, Option.some.injEq, Object.reference.injEq] at hparent'
      exact hparent'

/-- What the chain has passed. -/
def Passed (document : Document) (key : Name) (id : ObjectId) : Prop :=
  ∃ dictionary parent, document.getDictionary id = some dictionary ∧ dictionary.get key = none ∧
    dictionary.get parentKey = some (.reference parent)

theorem reaches_before {k n : ℕ} {id : ObjectId} (h : Reaches document key pageId n id) (hk : k ≤ n) :
    ∃ id', Reaches document key pageId k id' := by
  induction h with
  | page =>
    rw [Nat.le_zero.mp hk]
    exact ⟨pageId,.page⟩
  | @parent n id parent dictionary h hdictionary hkey hparent ih =>
    by_cases hlast : k = n+1
    · rw [hlast]
      exact ⟨parent,.parent h hdictionary hkey hparent⟩
    · exact ih (by omega)

theorem passed {k n : ℕ} {id id' : ObjectId} (h : Reaches document key pageId k id)
    (h' : Reaches document key pageId n id') (hk : k < n) : Passed document key id := by
  induction h' with
  | page => omega
  | @parent n id' parent dictionary h' hdictionary hkey hparent ih =>
    by_cases hlast : k = n
    · subst hlast
      rw [reaches_unique h h']
      exact ⟨dictionary,parent,hdictionary,hkey,hparent⟩
    · exact ih (by omega)

theorem reaches_shift {j k : ℕ} {id : ObjectId} (hj : Reaches document key pageId j id)
    (hk : Reaches document key pageId k id) (i : ℕ) {id' : ObjectId}
    (h : Reaches document key pageId (j+i) id') : Reaches document key pageId (k+i) id' := by
  induction i generalizing id' with
  | zero =>
    rw [Nat.add_zero] at h ⊢
    rwa [reaches_unique h hj]
  | succ i ih =>
    cases h with
    | parent h hdictionary hkey hparent => exact .parent (ih h) hdictionary hkey hparent

/-- A chain which comes back to a node has no end. -/
theorem reaches_cycle {j k : ℕ} {id : ObjectId} (hlt : j < k) (hj : Reaches document key pageId j id)
    (hk : Reaches document key pageId k id) (n : ℕ) : ∃ id', Reaches document key pageId n id' := by
  induction n using Nat.strong_induction_on with
  | _ n ih =>
    by_cases hn : n ≤ k
    · exact reaches_before hk hn
    · obtain ⟨i,rfl⟩ : ∃ i, n = k+i := ⟨n-k,by omega⟩
      obtain ⟨id',h⟩ := ih (j+i) (by omega)
      exact ⟨id',reaches_shift hj hk i h⟩

/-! ### The three outcomes -/

/-- The nearest node with the key is within the limit, and has this value. -/
def Found (document : Document) (key : Name) (pageId : ObjectId) (value : Object) : Prop :=
  ∃ k < maximumPageTreeDepth, ∃ id dictionary, Reaches document key pageId k id ∧
    document.getDictionary id = some dictionary ∧ dictionary.get key = some value

/-- The chain ends within the limit, and no node of it has the key. -/
def Absent (document : Document) (key : Name) (pageId : ObjectId) : Prop :=
  ∃ k < maximumPageTreeDepth, ∃ id dictionary, Reaches document key pageId k id ∧
    document.getDictionary id = some dictionary ∧ dictionary.get key = none ∧
    dictionary.get parentKey = none

/-- Before a value is found the chain is longer than the limit, or comes to an object
which is missing or no dictionary, or to a parent which is no reference. -/
def Broken (document : Document) (key : Name) (pageId : ObjectId) : Prop :=
  (∃ id, Reaches document key pageId maximumPageTreeDepth id) ∨
  ∃ k < maximumPageTreeDepth, ∃ id, Reaches document key pageId k id ∧
    (document.getDictionary id = none ∨ ∃ dictionary parent,
      document.getDictionary id = some dictionary ∧ dictionary.get key = none ∧
      dictionary.get parentKey = some parent ∧ parent.asReference = none)

/-- What the loop reports of the chain. -/
def Reports (document : Document) (key : Name) (pageId : ObjectId) :
    Except Error (Option Object) → Prop
  | .ok (some value) => Found document key pageId value
  | .ok none => Absent document key pageId
  | .error _ => Broken document key pageId

theorem inheritedLoop_reports (rounds k : ℕ) (visited : List ObjectId) (current : ObjectId)
    (hrounds : k+rounds = maximumPageTreeDepth) (h : Reaches document key pageId k current)
    (hvisited : ∀ id ∈ visited, ∃ j < k, Reaches document key pageId j id) :
    Reports document key pageId (inheritedLoop document key rounds visited current) := by
  induction rounds generalizing k visited current with
  | zero =>
    rw [Nat.add_zero] at hrounds
    exact Or.inl ⟨current,hrounds ▸ h⟩
  | succ rounds ih =>
    have hk : k < maximumPageTreeDepth := by omega
    rw [inheritedLoop]
    by_cases hseen : visited.contains current = true
    · rw [if_pos hseen]
      obtain ⟨j,hj,hbefore⟩ := hvisited current (List.contains_iff_mem.mp hseen)
      exact Or.inl (reaches_cycle hj hbefore h maximumPageTreeDepth)
    rw [if_neg hseen]
    cases hdictionary : document.getDictionary current with
    | none => exact Or.inr ⟨k,hk,current,h,Or.inl hdictionary⟩
    | some dictionary =>
      cases hkey : dictionary.get key with
      | some value =>
        simp only [hkey]
        exact ⟨k,hk,current,dictionary,h,hdictionary,hkey⟩
      | none =>
        cases hparent : dictionary.get parentKey with
        | none =>
          simp only [hkey, Dictionary.has, hparent, Option.isSome_none, Bool.not_false, if_true]
          exact ⟨k,hk,current,dictionary,h,hdictionary,hkey,hparent⟩
        | some parent =>
          simp only [hkey, Dictionary.has, hparent, Option.isSome_some, Bool.not_true,
            Bool.false_eq_true, if_false, Option.bind_some]
          cases hreference : parent.asReference with
          | none => exact Or.inr ⟨k,hk,current,h,
              Or.inr ⟨dictionary,parent,hdictionary,hkey,hparent,hreference⟩⟩
          | some next =>
            have hnext : parent = .reference next := by
              cases parent <;> cases hreference
              rfl
            rw [hnext] at hparent
            apply ih (k+1) (current::visited) next (by omega) (.parent h hdictionary hkey hparent)
            intro id hid
            rcases List.mem_cons.mp hid with rfl | hid
            · exact ⟨k,Nat.lt_succ_self k,h⟩
            · obtain ⟨j,hj,hbefore⟩ := hvisited id hid
              exact ⟨j,Nat.lt_succ_of_lt hj,hbefore⟩

theorem inheritedOptionalValue_reports : Reports document key pageId
    (inheritedOptionalValue document pageId key) :=
  inheritedLoop_reports maximumPageTreeDepth 0 [] pageId (Nat.zero_add _) .page
    fun _ hid => absurd hid List.not_mem_nil

/-! ### The outcomes exclude each other -/

/-- A node at which the lookup stops. -/
def Stops (document : Document) (key : Name) (pageId : ObjectId) (k : ℕ) (id : ObjectId) : Prop :=
  k < maximumPageTreeDepth ∧ Reaches document key pageId k id ∧ ¬Passed document key id

theorem stops_unique {j k : ℕ} {id id' : ObjectId} (h : Stops document key pageId j id)
    (h' : Stops document key pageId k id') : id = id' := by
  rcases Nat.lt_trichotomy j k with hlt | heq | hgt
  · exact absurd (passed h.2.1 h'.2.1 hlt) h.2.2
  · subst heq
    exact reaches_unique h.2.1 h'.2.1
  · exact absurd (passed h'.2.1 h.2.1 hgt) h'.2.2

theorem found_stops {value : Object} (h : Found document key pageId value) : ∃ k id dictionary,
    Stops document key pageId k id ∧ document.getDictionary id = some dictionary ∧
      dictionary.get key = some value := by
  obtain ⟨k,hk,id,dictionary,hreaches,hdictionary,hkey⟩ := h
  refine ⟨k,id,dictionary,⟨hk,hreaches,?_⟩,hdictionary,hkey⟩
  rintro ⟨other,parent,hother,hnone,_⟩
  rw [hdictionary, Option.some.injEq] at hother
  rw [← hother, hkey] at hnone
  cases hnone

theorem absent_stops (h : Absent document key pageId) : ∃ k id dictionary,
    Stops document key pageId k id ∧ document.getDictionary id = some dictionary ∧
      dictionary.get key = none ∧ dictionary.get parentKey = none := by
  obtain ⟨k,hk,id,dictionary,hreaches,hdictionary,hkey,hparent⟩ := h
  refine ⟨k,id,dictionary,⟨hk,hreaches,?_⟩,hdictionary,hkey,hparent⟩
  rintro ⟨other,parent,hother,_,hsome⟩
  rw [hdictionary, Option.some.injEq] at hother
  rw [← hother, hparent] at hsome
  cases hsome

/-- A broken chain passes every node which a stop would need. -/
theorem broken_stops (h : Broken document key pageId) {k : ℕ} {id : ObjectId} {dictionary : Dictionary}
    (hstops : Stops document key pageId k id) (hdictionary : document.getDictionary id = some dictionary) :
    dictionary.get key = none ∧ ∃ parent, dictionary.get parentKey = some parent := by
  rcases h with ⟨last,hlast⟩ | ⟨j,hj,other,hreaches,hbad⟩
  · exact absurd (passed hstops.2.1 hlast hstops.1) hstops.2.2
  · have hother : Stops document key pageId j other := by
      refine ⟨hj,hreaches,?_⟩
      rintro ⟨found,parent,hfound,_,hparent⟩
      rcases hbad with hnone | ⟨found',parent',hfound',_,hparent',hreference⟩
      · rw [hnone] at hfound
        cases hfound
      · rw [hfound, Option.some.injEq] at hfound'
        rw [← hfound', hparent, Option.some.injEq] at hparent'
        rw [← hparent'] at hreference
        cases hreference
    rw [stops_unique hstops hother] at hdictionary
    rcases hbad with hnone | ⟨found,parent,hfound,hkey,hparent,_⟩
    · rw [hnone] at hdictionary
      cases hdictionary
    · rw [hfound, Option.some.injEq] at hdictionary
      rw [← hdictionary]
      exact ⟨hkey,parent,hparent⟩

theorem found_unique {value value' : Object} (h : Found document key pageId value)
    (h' : Found document key pageId value') : value = value' := by
  obtain ⟨k,id,dictionary,hstops,hdictionary,hkey⟩ := found_stops h
  obtain ⟨k',id',dictionary',hstops',hdictionary',hkey'⟩ := found_stops h'
  rw [stops_unique hstops hstops', hdictionary', Option.some.injEq] at hdictionary
  rw [← hdictionary, hkey', Option.some.injEq] at hkey
  exact hkey.symm

theorem found_not_absent {value : Object} (h : Found document key pageId value) :
    ¬Absent document key pageId := by
  intro habsent
  obtain ⟨k,id,dictionary,hstops,hdictionary,hkey⟩ := found_stops h
  obtain ⟨k',id',dictionary',hstops',hdictionary',hkey',_⟩ := absent_stops habsent
  rw [stops_unique hstops hstops', hdictionary', Option.some.injEq] at hdictionary
  rw [← hdictionary, hkey'] at hkey
  cases hkey

theorem found_not_broken {value : Object} (h : Found document key pageId value) :
    ¬Broken document key pageId := by
  intro hbroken
  obtain ⟨k,id,dictionary,hstops,hdictionary,hkey⟩ := found_stops h
  rw [(broken_stops hbroken hstops hdictionary).1] at hkey
  cases hkey

theorem absent_not_broken (h : Absent document key pageId) : ¬Broken document key pageId := by
  intro hbroken
  obtain ⟨k,id,dictionary,hstops,hdictionary,_,hparent⟩ := absent_stops h
  obtain ⟨parent,hsome⟩ := (broken_stops hbroken hstops hdictionary).2
  rw [hparent] at hsome
  cases hsome

/-- The value of the nearest node which has the key, and the two ways to have none. -/
theorem inheritedOptionalValue_nearest (document : Document) (pageId : ObjectId) (key : Name) :
    (∀ value, inheritedOptionalValue document pageId key = .ok (some value) ↔
      Found document key pageId value) ∧
    (inheritedOptionalValue document pageId key = .ok none ↔ Absent document key pageId) ∧
    (inheritedOptionalValue document pageId key = .error .invalidDocument ↔
      Broken document key pageId) ∧
    ∀ j k id, j < k → Reaches document key pageId j id → Reaches document key pageId k id →
      Broken document key pageId := by
  have hreports : Reports document key pageId (inheritedOptionalValue document pageId key) :=
    inheritedOptionalValue_reports
  have hcycle : ∀ j k id, j < k → Reaches document key pageId j id →
      Reaches document key pageId k id → Broken document key pageId :=
    fun j k id hlt hj hk => Or.inl (reaches_cycle hlt hj hk maximumPageTreeDepth)
  cases hresult : inheritedOptionalValue document pageId key with
  | error e =>
    rw [hresult] at hreports
    have hbroken : Broken document key pageId := hreports
    refine ⟨?_,?_,?_,hcycle⟩
    · exact fun value => iff_of_false nofun fun hfound => found_not_broken hfound hbroken
    · exact iff_of_false nofun fun habsent => absent_not_broken habsent hbroken
    · exact iff_of_true (by cases e; rfl) hbroken
  | ok outcome =>
    rw [hresult] at hreports
    cases outcome with
    | none =>
      have habsent : Absent document key pageId := hreports
      refine ⟨?_,?_,?_,hcycle⟩
      · exact fun value => iff_of_false nofun fun hfound => found_not_absent hfound habsent
      · exact iff_of_true rfl habsent
      · exact iff_of_false nofun (absent_not_broken habsent)
    | some found =>
      have hfound : Found document key pageId found := hreports
      refine ⟨?_,?_,?_,hcycle⟩
      · intro value
        rw [Except.ok.injEq, Option.some.injEq]
        constructor
        · rintro rfl
          exact hfound
        · exact fun h => found_unique hfound h
      · exact iff_of_false (by simp) (found_not_absent hfound)
      · exact iff_of_false nofun (found_not_broken hfound)

end Lookup

/-- The sixty-fourth node of a chain is asked for its value. -/
example : (inheritedOptionalValue ⟨fun id => some (if id.1 = 63 then [([1],.null)]
    else [(parentKey,.reference (id.1+1,0))])⟩ (0,0) [1]).isOk = true := by decide +kernel

end DocumentIntelligence.PageAttributes
