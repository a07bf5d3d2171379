import DocumentIntelligence.Identifiers

/-!
# Recognized pages

A page holds the text which was recognized on it, as observations in reading
order. The text of its JSON is that of the serializer, whose format of finite
numbers is a parameter.
-/

set_option autoImplicit false

namespace DocumentIntelligence.DocumentPages
open Identifiers (validatedId)

structure ObservationId where
  asStr : String
  valid : validatedId asStr "obs_" = true
  deriving DecidableEq, Repr

inductive ObservationLevel where
  | page
  | paragraph
  | line
  | word
  deriving DecidableEq, Repr

def ObservationLevel.asStr : ObservationLevel → String
  | .page => "page"
  | .paragraph => "paragraph"
  | .line => "line"
  | .word => "word"

/-- A finite number between zero and one. -/
def unit (value : Float) : Bool :=
  value.isFinite && decide (0.0 ≤ value) && decide (value ≤ 1.0)

structure Confidence where
  value : Float
  valid : unit value = true
  deriving DecidableEq

structure NormalizedPoint where
  x : Float
  y : Float
  valid : (unit x && unit y) = true
  deriving DecidableEq

def signedDoubleArea (points : List NormalizedPoint) : Float :=
  ((points.zip (points.drop 1++points.take 1)).map fun (left,right) =>
    left.x*right.y-right.x*left.y).foldl (·+·) 0.0

/-- `f64::EPSILON` -/
def epsilon : Float := Float.ofBits 0x3CB0000000000000

def validPolygon (points : List NormalizedPoint) : Bool :=
  decide (3 ≤ points.length) && !decide ((signedDoubleArea points).abs ≤ epsilon)

structure Polygon where
  points : List NormalizedPoint
  valid : validPolygon points = true
  deriving DecidableEq

/-- The white space which `trim` removes. -/
def isWhitespace (c : Char) : Bool :=
  let n := c.toNat
  decide (9 ≤ n ∧ n ≤ 13) || decide (8192 ≤ n ∧ n ≤ 8202) ||
    [32,133,160,5760,8232,8233,8239,8287,12288].contains n

def maximumObservationBytes : ℕ := 65536

def validObservation (text : String) (observationId : ObservationId)
    (parentObservationId : Option ObservationId) : Bool :=
  !text.toList.all isWhitespace && decide (text.utf8ByteSize ≤ maximumObservationBytes) &&
    parentObservationId != some observationId

structure TextObservation where
  observationId : ObservationId
  level : ObservationLevel
  text : String
  confidence : Confidence
  polygon : Polygon
  readingOrder : ℕ
  parentObservationId : Option ObservationId
  valid : validObservation text observationId parentObservationId = true
  deriving DecidableEq

/-- The loop of `DocumentPage::new`: parents come before their children, and no
identifier or order comes twice. -/
def acyclic (seenIds : List ObservationId) (seenOrders : List ℕ) : List TextObservation → Bool
  | [] => true
  | o::os => !seenOrders.contains o.readingOrder &&
      (o.parentObservationId.all fun parent => seenIds.contains parent) &&
      !seenIds.contains o.observationId &&
      acyclic (o.observationId::seenIds) (o.readingOrder::seenOrders) os

def ordered (observations : List TextObservation) : List TextObservation :=
  observations.mergeSort fun a b => decide (a.readingOrder ≤ b.readingOrder)

theorem sorted_byKey {α : Type} (key : α → ℕ) (xs : List α) :
    (xs.mergeSort fun a b => decide (key a ≤ key b)).Pairwise fun a b => key a ≤ key b := by
  have h : (xs.mergeSort fun a b => decide (key a ≤ key b)).Pairwise
      fun a b => decide (key a ≤ key b) = true := by
    refine List.pairwise_mergeSort ?_ ?_ xs
    · intro a b c hab hbc
      simp only [decide_eq_true_eq] at *
      omega
    · intro a b
      simp only [Bool.or_eq_true, decide_eq_true_eq]
      omega
  exact h.imp fun hle => of_decide_eq_true hle

def maximumObservations : ℕ := 100000

structure DocumentPage where
  page : ℕ
  width : ℕ
  height : ℕ
  observations : List TextObservation
  valid : (decide (1 ≤ page ∧ 1 ≤ width ∧ 1 ≤ height) &&
    decide (observations.length ≤ maximumObservations) && acyclic [] [] observations) = true
  deriving DecidableEq

def DocumentPage.new (page width height : ℕ) (observations : List TextObservation) :
    Option DocumentPage :=
  if h : (decide (1 ≤ page ∧ 1 ≤ width ∧ 1 ≤ height) &&
      decide ((ordered observations).length ≤ maximumObservations) &&
      acyclic [] [] (ordered observations)) = true then
    some ⟨page,width,height,ordered observations,h⟩
  else none

/-! ### Serialization -/

section Serialize
variable (formatF64 : Float → String)

def NormalizedPoint.json (p : NormalizedPoint) : String :=
  Json.object [Json.member "x" (formatF64 p.x),Json.member "y" (formatF64 p.y)]

def Polygon.json (p : Polygon) : String :=
  Json.object [Json.member "points" (Json.array (p.points.map (NormalizedPoint.json formatF64)))]

def TextObservation.json (o : TextObservation) : String :=
  Json.object [Json.member "observation_id" (Json.string o.observationId.asStr),
    Json.member "level" (Json.string o.level.asStr),
    Json.member "text" (Json.string o.text),
    Json.member "confidence" (formatF64 o.confidence.value),
    Json.member "polygon" (o.polygon.json formatF64),
    Json.member "reading_order" (toString o.readingOrder),
    Json.member "parent_observation_id"
      (o.parentObservationId.elim "null" fun parent => Json.string parent.asStr)]

def DocumentPage.json (p : DocumentPage) : String :=
  Json.object [Json.member "page" (toString p.page),Json.member "width" (toString p.width),
    Json.member "height" (toString p.height),
    Json.member "observations" (Json.array (p.observations.map (TextObservation.json formatF64)))]

/-- `serde_json::to_vec` -/
def toVec (page : DocumentPage) : List UInt8 := (page.json formatF64).toUTF8.data.toList

theorem toVec_length (page : DocumentPage) :
    (toVec formatF64 page).length = (page.json formatF64).utf8ByteSize := by
  rw [toVec, Array.length_toList]
  rfl

theorem toVec_pos (page : DocumentPage) : 1 ≤ (toVec formatF64 page).length := by
  rw [toVec_length, DocumentPage.json, Json.size_object]
  omega

end Serialize

end DocumentIntelligence.DocumentPages
