import Mathlib

/-!
# Versioned object storage

A store keeps every version of every path, the newest one first. A version is
never changed: writing a path adds a version of it, and a write which only
creates does nothing where the path has a version.
-/

set_option autoImplicit false

namespace DocumentIntelligence.ObjectStorage

structure Stored (Path Token : Type) where
  path : Path
  version : Token
  bytes : List UInt8
  deriving DecidableEq, Repr

abbrev Objects (Path Token : Type) := List (Stored Path Token)

variable {Path Token : Type} [DecidableEq Path]

/-- The newest version of a path. -/
def current (objects : Objects Path Token) (path : Path) : Option (Stored Path Token) :=
  objects.find? fun o => decide (o.path = path)

/-- A version of a path. -/
def version [DecidableEq Token] (objects : Objects Path Token) (path : Path) (token : Token) :
    Option (Stored Path Token) :=
  objects.find? fun o => decide (o.path = path ∧ o.version = token)

/-- A write which only creates. -/
def create (objects : Objects Path Token) (o : Stored Path Token) : Objects Path Token :=
  if (current objects o.path).isSome then objects else o::objects

theorem current_path {objects : Objects Path Token} {path : Path} {o : Stored Path Token}
    (h : current objects path = some o) : o.path = path := by
  have hfound := List.find?_some h
  exact of_decide_eq_true hfound

theorem current_mem {objects : Objects Path Token} {path : Path} {o : Stored Path Token}
    (h : current objects path = some o) : o ∈ objects := List.mem_of_find?_eq_some h

@[simp] theorem current_cons (objects : Objects Path Token) (o : Stored Path Token) (path : Path) :
    current (o::objects) path = if o.path = path then some o else current objects path := by
  by_cases h : o.path = path <;> simp [current, h]

theorem current_create (objects : Objects Path Token) (o : Stored Path Token) (path : Path) :
    current (create objects o) path =
      if o.path = path then some ((current objects path).getD o) else current objects path := by
  unfold create
  by_cases hpath : o.path = path
  · rw [if_pos hpath, hpath]
    cases h : current objects path with
    | none => simp [hpath]
    | some x => simp [h]
  · rw [if_neg hpath]
    by_cases h : (current objects o.path).isSome
    · rw [if_pos h]
    · rw [if_neg h, current_cons, if_neg hpath]

/-- A path which has a version keeps it as the newest one under creations. -/
theorem current_create_of_some {objects : Objects Path Token} {path : Path} {x : Stored Path Token}
    (h : current objects path = some x) (o : Stored Path Token) :
    current (create objects o) path = some x := by
  rw [current_create, h]
  split <;> rfl

theorem mem_create {objects : Objects Path Token} {o x : Stored Path Token}
    (h : x ∈ create objects o) : x = o ∨ x ∈ objects := by
  unfold create at h
  split at h
  · exact Or.inr h
  · exact List.mem_cons.mp h

/-! ### Versions -/

section Versions
variable [DecidableEq Token] {objects : Objects Path Token}

/-- A write by anyone, to which the store gives a version which is new for its path. -/
def put (objects : Objects Path Token) (o : Stored Path Token) : Objects Path Token :=
  if (version objects o.path o.version).isSome then objects else o::objects

theorem version_mem {path : Path} {token : Token} {o : Stored Path Token}
    (h : version objects path token = some o) :
    o ∈ objects ∧ o.path = path ∧ o.version = token := by
  have hfound := List.find?_some h
  exact ⟨List.mem_of_find?_eq_some h,of_decide_eq_true hfound⟩

@[simp] theorem version_cons (o : Stored Path Token) (path : Path) (token : Token) :
    version (o::objects) path token =
      if o.path = path ∧ o.version = token then some o else version objects path token := by
  by_cases h : o.path = path ∧ o.version = token <;> simp [version, h]

/-- The newest version of a path is found by its name. -/
theorem version_current {path : Path} {o : Stored Path Token} (h : current objects path = some o) :
    version objects path o.version = some o := by
  induction objects with
  | nil => cases h
  | cons x objects ih =>
    rw [current_cons] at h
    rw [version_cons]
    by_cases hpath : x.path = path
    · rw [if_pos hpath, Option.some.injEq] at h
      rw [if_pos ⟨hpath,congrArg Stored.version h⟩, h]
    · rw [if_neg hpath] at h
      rw [if_neg fun hsame => hpath hsame.1, ih h]

/-- The versions of one store are versions of the other. -/
def Extends (objects objects' : Objects Path Token) : Prop :=
  ∀ path token o, version objects path token = some o → version objects' path token = some o

theorem Extends.refl (objects : Objects Path Token) : Extends objects objects := fun _ _ _ h => h

theorem Extends.trans {objects objects' objects'' : Objects Path Token}
    (h : Extends objects objects') (h' : Extends objects' objects'') : Extends objects objects'' :=
  fun path token o ho => h' path token o (h path token o ho)

theorem extends_cons {o : Stored Path Token} (h : version objects o.path o.version = none) :
    Extends objects (o::objects) := by
  intro path token x hx
  rw [version_cons]
  by_cases hsame : o.path = path ∧ o.version = token
  · rw [← hsame.1, ← hsame.2, h] at hx
    cases hx
  · rw [if_neg hsame, hx]

theorem extends_put (objects : Objects Path Token) (o : Stored Path Token) :
    Extends objects (put objects o) := by
  unfold put
  cases h : version objects o.path o.version with
  | some x => exact Extends.refl objects
  | none => exact extends_cons h

/-- A path without a newest version has no version. -/
theorem version_of_current_none {path : Path} (h : current objects path = none) (token : Token) :
    version objects path token = none := by
  cases hversion : version objects path token with
  | none => rfl
  | some o =>
    obtain ⟨hm,hpath,_⟩ := version_mem hversion
    exact absurd (decide_eq_true hpath) (List.find?_eq_none.mp h o hm)

/-- A version which is created where nothing was is found. -/
theorem version_create {o : Stored Path Token} (h : current objects o.path = none) :
    version (create objects o) o.path o.version = some o := by
  rw [create, if_neg (by rw [h]; exact Bool.false_ne_true), version_cons, if_pos ⟨rfl,rfl⟩]

theorem extends_create (objects : Objects Path Token) (o : Stored Path Token) :
    Extends objects (create objects o) := by
  unfold create
  cases h : current objects o.path with
  | some x => exact Extends.refl objects
  | none => exact extends_cons (version_of_current_none h o.version)

theorem mem_put {o x : Stored Path Token} (h : x ∈ put objects o) : x = o ∨ x ∈ objects := by
  unfold put at h
  split at h
  · exact Or.inr h
  · exact List.mem_cons.mp h

/-- Every path and token names at most one object. -/
def Named (objects : Objects Path Token) : Prop :=
  ∀ o ∈ objects, version objects o.path o.version = some o

theorem named_cons {o : Stored Path Token} (hnamed : Named objects)
    (h : version objects o.path o.version = none) : Named (o::objects) := by
  intro x hx
  rcases List.mem_cons.mp hx with rfl | hm
  · rw [version_cons, if_pos ⟨rfl,rfl⟩]
  · exact extends_cons h _ _ _ (hnamed x hm)

theorem named_put {o : Stored Path Token} (hnamed : Named objects) : Named (put objects o) := by
  unfold put
  cases h : version objects o.path o.version with
  | some x => exact hnamed
  | none => exact named_cons hnamed h

theorem named_create {o : Stored Path Token} (hnamed : Named objects) : Named (create objects o) := by
  unfold create
  cases h : current objects o.path with
  | some x => exact hnamed
  | none => exact named_cons hnamed (version_of_current_none h o.version)

end Versions

end DocumentIntelligence.ObjectStorage
