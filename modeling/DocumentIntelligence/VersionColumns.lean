import DocumentIntelligence.Schema
import DocumentIntelligence.Table

/-!
# The two version columns

A table with an opaque version also keeps the numeric generation which older
readers and writers use. A trigger completes the two columns of every row which a
statement writes, and refuses a row in which they disagree.
-/

set_option autoImplicit false

namespace DocumentIntelligence.VersionColumns
open Identifiers (isAsciiGraphic)

/-! ### Decimal numbers -/

/-- `bigint` -/
abbrev Bigint := {n : ℤ // -2^63 ≤ n ∧ n < 2^63}

def Bigint.text (n : Bigint) : String := toString n.val

structure Versions where
  objectVersion : Option String
  objectGeneration : Option Bigint
  deriving DecidableEq, Repr

/-- `^[1-9][0-9]{0,18}$` -/
def decimal : List Char → Bool
  | [] => false
  | c::cs => decide ('1' ≤ c ∧ c ≤ '9') && cs.all Char.isDigit && decide (cs.length ≤ 18)

/-- The number of a version which the trigger takes for a generation. -/
def generation (version : String) : Option Bigint :=
  let number : ℤ := Nat.ofDigitChars 10 version.toList 0
  if h : (decimal version.toList && decide (version.length ≤ 19)) = true ∧
      number ≤ 9223372036854775807 then
    some ⟨number,by omega,by omega⟩
  else none

inductive Error where
  | inconsistent (message : String)
  | constraint
  deriving DecidableEq, Repr

/-- The two trigger functions, which do the same with their own columns. -/
inductive SyncFunction where
  | ocrSyncObjectVersion
  | ocrSyncSourceVersion
  deriving DecidableEq, Repr

def SyncFunction.message : SyncFunction → String
  | .ocrSyncObjectVersion => "inconsistent object version"
  | .ocrSyncSourceVersion => "inconsistent source version"

def syncVersion (function : SyncFunction) (new : Versions) : Except Error Versions :=
  match new.objectVersion with
  | none => .ok { new with objectVersion := new.objectGeneration.map Bigint.text }
  | some version => match generation version with
    | some number =>
      if new.objectGeneration.any fun g => g.text != version then .error (.inconsistent function.message)
      else .ok { new with objectGeneration := some number }
    | none =>
      if new.objectGeneration.isSome then .error (.inconsistent function.message) else .ok new

def versionCheck (version : String) : Bool :=
  decide (1 ≤ version.length ∧ version.length ≤ 1024) && version.toList.all isAsciiGraphic &&
    version != "null"

def columnChecks (v : Versions) : Bool :=
  v.objectVersion.all versionCheck && v.objectGeneration.all fun g => decide (0 < g.val)

/-! ### Statements -/

structure Row (Data : Type) where
  data : Data
  versions : Versions

/-- A statement inserts a row, or it assigns to the columns of the rows which it
selects. -/
inductive Statement (Data : Type) where
  | insert (row : Row Data)
  | update (selects : Row Data → Bool) (assign : Row Data → Row Data)

section Table
variable {Data : Type} (function : SyncFunction) (others : Row Data → Except Error Data)

/-- What the trigger and the constraints make of a new row. `others` stands for the
other triggers and constraints of the table. -/
def writeRow (new : Row Data) : Except Error (Row Data) := do
  let versions ← syncVersion function new.versions
  let data ← others ⟨new.data,versions⟩
  if columnChecks versions then .ok ⟨data,versions⟩ else .error .constraint

/-- A statement with a refused row leaves all rows as they are. -/
def apply (rows : List (Row Data)) : Statement Data → List (Row Data)
  | .insert row => match writeRow function others row with
    | .ok row => rows++[row]
    | .error _ => rows
  | .update selects assign =>
    match rows.mapM fun row => if selects row then writeRow function others (assign row) else .ok row with
    | .ok rows' => rows'
    | .error _ => rows

def run (rows : List (Row Data)) (statements : List (Statement Data)) : List (Row Data) :=
  statements.foldl (apply function others) rows

end Table

/-! ### What the trigger makes of a row -/

/-- The version is the decimal text of this positive number. -/
def Names (version : String) (g : Bigint) : Prop := version = g.text ∧ 0 < g.val

/-- The generation is the number of the version, where the version is the decimal text
of a positive one, and is null elsewhere. -/
def Agrees (v : Versions) : Prop :=
  ∀ g, v.objectGeneration = some g ↔ ∃ version, v.objectVersion = some version ∧ Names version g

variable {function : SyncFunction}

theorem graphic_size {c : Char} (h : isAsciiGraphic c = true) : c.utf8Size = 1 := by
  rw [isAsciiGraphic, Bool.and_eq_true, decide_eq_true_eq, decide_eq_true_eq] at h
  have hle : c.val ≤ 126 := h.2
  exact Char.utf8Size_eq_one_iff.mpr (UInt32.le_trans hle (by decide))

/-- The column has the check which the service makes before it writes. -/
theorem versionCheck_iff (version : String) :
    versionCheck version = true ↔ Schema.validObjectVersion version = true := by
  by_cases hgraphic : version.toList.all isAsciiGraphic = true
  · have hsize : version.utf8ByteSize = version.length := by
      have hone : version.toList.map Char.utf8Size = version.toList.map fun _ => 1 :=
        List.map_congr_left fun c hc => graphic_size (List.all_eq_true.mp hgraphic c hc)
      rw [Json.utf8ByteSize_eq_sum, hone, ← String.length_toList]
      simp
    have hempty : version ≠ "" ↔ 1 ≤ version.length := by
      rw [Ne, ← String.toList_inj, String.toList_empty, ← List.length_eq_zero_iff,
        String.length_toList]
      omega
    simp only [versionCheck, Schema.validObjectVersion, hgraphic, hsize, Bool.and_true,
      Bool.and_eq_true, decide_eq_true_eq, bne_iff_ne, hempty]
  · simp [versionCheck, Schema.validObjectVersion, Bool.not_eq_true .. ▸ hgraphic]

/-! ### Every run of statements -/

section Runs
variable {Data : Type} {others : Row Data → Except Error Data}

end Runs

/-- The largest generation, and the number after it, which stays opaque. -/
example : syncVersion .ocrSyncObjectVersion ⟨some "9223372036854775807",none⟩ =
      .ok ⟨some "9223372036854775807",some ⟨9223372036854775807,by decide⟩⟩ ∧
    syncVersion .ocrSyncObjectVersion ⟨some "9223372036854775808",none⟩ =
      .ok ⟨some "9223372036854775808",none⟩ := by decide +kernel

end DocumentIntelligence.VersionColumns
