import DocumentIntelligence.CheckedFolds
import DocumentIntelligence.Inspection
import DocumentIntelligence.Table

/-!
# The tensor envelope

A model profile states the largest shape of each of its tensors. The sizes in bytes are
computed with checked multiplications and additions, and a profile is refused as soon as
one of them does not fit a `u64`, a tensor exceeds its limit, or the sum exceeds its own.
-/

set_option autoImplicit false

namespace DocumentIntelligence.TensorEnvelope
open CheckedFolds
open Inspection (u64Max checkedMul checkedAdd)

def maximumTensors : ℕ := 16
def maximumTensorRank : ℕ := 8
def maximumTensorDimension : ℕ := 65536
def maximumTensorBytes : ℕ := 64*1024*1024
def maximumProfileTensorBytes : ℕ := 128*1024*1024

inductive Error where
  | invalidModelProfile
  deriving DecidableEq, Repr

inductive TensorDataType where
  | float32
  | int64
  deriving DecidableEq, Repr

def TensorDataType.byteWidth : TensorDataType → ℕ
  | .float32 => 4
  | .int64 => 8

inductive TensorDimension where
  | fixed (value : UInt32)
  | dynamic (maximum : UInt32)
  deriving DecidableEq, Repr

def TensorDimension.maximum : TensorDimension → ℕ
  | .fixed value => value.toNat
  | .dynamic maximum => maximum.toNat

def TensorDimension.isInvalid : TensorDimension → Bool
  | .fixed value => value.toNat == 0 || decide (maximumTensorDimension < value.toNat)
  | .dynamic maximum => maximum.toNat == 0 || decide (maximumTensorDimension < maximum.toNat)

/-- An ASCII letter, and then letters, digits and underscores. -/
def validTensorName (value : String) : Bool :=
  decide (1 ≤ value.utf8ByteSize ∧ value.utf8ByteSize ≤ 64) &&
    (value.toList.all fun c => c.isAlphanum || c == '_') &&
    value.toList.head?.any Char.isAlpha

structure RawTensorContract where
  name : String
  dataType : TensorDataType
  dimensions : List TensorDimension
  deriving DecidableEq, Repr

def RawTensorContract.valid (value : RawTensorContract) : Bool :=
  validTensorName value.name && !value.dimensions.isEmpty &&
    decide (value.dimensions.length ≤ maximumTensorRank) &&
    !value.dimensions.any TensorDimension.isInvalid

structure TensorContract extends RawTensorContract where
  isValid : toRawTensorContract.valid = true
  deriving DecidableEq, Repr

def TensorContract.tryFrom (value : RawTensorContract) : Except Error TensorContract :=
  if h : value.valid = true then .ok ⟨value,h⟩ else .error .invalidModelProfile

/-- Equal names are neighbours when the names are sorted. -/
def validateTensors (values : List RawTensorContract) : Except Error (List TensorContract) :=
  if values.isEmpty ∨ maximumTensors < values.length then .error .invalidModelProfile
  else do
    let tensors ← values.mapM TensorContract.tryFrom
    if (tensors.map (·.name)).Nodup then .ok tensors else .error .invalidModelProfile

def okOr {α : Type} (value : Option α) : Except Error α :=
  value.elim (.error .invalidModelProfile) .ok

/-- One round of the loop over the tensors. -/
def addTensor (totalBytes : ℕ) (tensor : TensorContract) : Except Error ℕ := do
  let elements ← okOr ((tensor.dimensions.map TensorDimension.maximum).foldlM checkedMul 1)
  let bytes ← okOr (checkedMul elements tensor.dataType.byteWidth)
  if maximumTensorBytes < bytes then .error .invalidModelProfile
  else
    let totalBytes ← okOr (checkedAdd totalBytes bytes)
    if maximumProfileTensorBytes < totalBytes then .error .invalidModelProfile
    else .ok totalBytes

def validateTensorEnvelope (inputs outputs : List TensorContract) : Except Error Unit :=
  ((inputs++outputs).foldlM addTensor 0).map fun _ => ()

/-- The part of the validation of a profile which is about its tensors. -/
def validateProfileTensors (inputs outputs : List RawTensorContract) :
    Except Error (List TensorContract×List TensorContract) := do
  let inputs ← validateTensors inputs
  let outputs ← validateTensors outputs
  validateTensorEnvelope inputs outputs
  if inputs.any fun input => outputs.any (·.name == input.name) then
    .error .invalidModelProfile
  else .ok (inputs,outputs)

/-! ### Exact sizes -/

/-- The size of a tensor without any bound. -/
def TensorContract.byteSize (tensor : TensorContract) : ℕ :=
  (tensor.dimensions.map TensorDimension.maximum).prod*tensor.dataType.byteWidth

theorem byteWidth_pos (dataType : TensorDataType) : 1 ≤ dataType.byteWidth := by
  cases dataType <;> decide

theorem maximum_pos {d : TensorDimension} (h : d.isInvalid = false) : 1 ≤ d.maximum := by
  cases d with
  | fixed value =>
    rw [TensorDimension.isInvalid, Bool.or_eq_false_iff, beq_eq_false_iff_ne] at h
    exact Nat.one_le_iff_ne_zero.mpr h.1
  | dynamic maximum =>
    rw [TensorDimension.isInvalid, Bool.or_eq_false_iff, beq_eq_false_iff_ne] at h
    exact Nat.one_le_iff_ne_zero.mpr h.1

theorem dimensions_pos (tensor : TensorContract) :
    ∀ n ∈ tensor.dimensions.map TensorDimension.maximum, 1 ≤ n := by
  have hvalid := tensor.isValid
  rw [RawTensorContract.valid, Bool.and_eq_true] at hvalid
  have hdimensions := List.any_eq_false.mp (Bool.not_eq_true' _ ▸ hvalid.2)
  intro n hn
  obtain ⟨d,hd,rfl⟩ := List.mem_map.mp hn
  exact maximum_pos (Bool.eq_false_of_not_eq_true (hdimensions d hd))

/-- The checked product stops only where the number of elements does not fit. -/
theorem elements_eq (tensor : TensorContract) :
    (tensor.dimensions.map TensorDimension.maximum).foldlM checkedMul 1 =
      capped u64Max (tensor.dimensions.map TensorDimension.maximum).prod := by
  have hone : 1 ≤ u64Max := by decide
  have hprod := foldlM_mul (dimensions_pos tensor) hone
  rw [Nat.one_mul] at hprod
  exact hprod

/-- The checks of a round as one chain. -/
theorem addTensor_checks (totalBytes : ℕ) (tensor : TensorContract) :
    addTensor totalBytes tensor = okOr
      (((tensor.dimensions.map TensorDimension.maximum).foldlM checkedMul 1).bind fun elements =>
        (checkedMul elements tensor.dataType.byteWidth).bind fun bytes =>
          (capped maximumTensorBytes bytes).bind fun bytes =>
            (checkedAdd totalBytes bytes).bind (capped maximumProfileTensorBytes)) := by
  rw [addTensor]
  cases (tensor.dimensions.map TensorDimension.maximum).foldlM checkedMul 1 with
  | none => rfl
  | some elements =>
    simp only [okOr, Option.elim_some, Option.bind_some, Table.ok_bind]
    cases checkedMul elements tensor.dataType.byteWidth with
    | none => rfl
    | some bytes =>
      simp only [Option.elim_some, Option.bind_some, Table.ok_bind]
      by_cases hbytes : bytes ≤ maximumTensorBytes
      · rw [if_neg (Nat.not_lt.mpr hbytes), capped, if_pos hbytes, Option.bind_some]
        cases checkedAdd totalBytes bytes with
        | none => rfl
        | some total =>
          simp only [Option.elim_some, Option.bind_some, Table.ok_bind]
          by_cases htotal : total ≤ maximumProfileTensorBytes
          · rw [if_neg (Nat.not_lt.mpr htotal), capped, if_pos htotal, Option.elim_some]
          · rw [if_pos (Nat.not_le.mp htotal), capped, if_neg htotal, Option.elim_none]
      · rw [if_pos (Nat.not_le.mp hbytes), capped, if_neg hbytes]
        rfl

/-- A round is exact: what does not fit a `u64` exceeds a limit in any case. -/
theorem addTensor_eq (totalBytes : ℕ) (tensor : TensorContract) :
    addTensor totalBytes tensor =
      okOr ((capped maximumTensorBytes tensor.byteSize).bind fun bytes =>
        capped maximumProfileTensorBytes (totalBytes+bytes)) := by
  have hbytes : ((capped u64Max (tensor.dimensions.map TensorDimension.maximum).prod).bind
      fun elements => checkedMul elements tensor.dataType.byteWidth) =
      capped u64Max tensor.byteSize :=
    capped_grow (Nat.le_mul_of_pos_right _ (byteWidth_pos tensor.dataType))
  have hlimit : (capped u64Max tensor.byteSize).bind (capped maximumTensorBytes) =
      capped maximumTensorBytes tensor.byteSize := capped_bind (by decide)
  have hsum : ∀ bytes, (checkedAdd totalBytes bytes).bind (capped maximumProfileTensorBytes) =
      capped maximumProfileTensorBytes (totalBytes+bytes) := fun _ => capped_bind (by decide)
  rw [addTensor_checks, elements_eq, ← Option.bind_assoc, hbytes, ← Option.bind_assoc, hlimit]
  simp only [hsum]

/-- The loop from any sum within the limit. -/
theorem foldlM_addTensor (tensors : List TensorContract) {totalBytes : ℕ}
    (h : totalBytes ≤ maximumProfileTensorBytes) :
    tensors.foldlM addTensor totalBytes = okOr
      (if (∀ t ∈ tensors, t.byteSize ≤ maximumTensorBytes) ∧
          totalBytes+(tensors.map TensorContract.byteSize).sum ≤ maximumProfileTensorBytes then
        some (totalBytes+(tensors.map TensorContract.byteSize).sum) else none) := by
  have hround : addTensor = fun totalBytes tensor =>
      okOr ((capped maximumTensorBytes tensor.byteSize).bind fun bytes =>
        capped maximumProfileTensorBytes (totalBytes+bytes)) := by
    funext totalBytes tensor
    exact addTensor_eq totalBytes tensor
  have hsizes : (∀ t ∈ tensors, t.byteSize ≤ maximumTensorBytes) ↔
      ∀ n ∈ tensors.map TensorContract.byteSize, n ≤ maximumTensorBytes := by
    rw [List.forall_mem_map]
  simp only [hsizes]
  rw [hround, ← foldlM_add h, List.foldlM_map]
  exact foldlM_error _ _ tensors totalBytes

theorem foldlM_addTensor_ok {tensors : List TensorContract} {totalBytes : ℕ} :
    tensors.foldlM addTensor 0 = .ok totalBytes ↔
      ((∀ t ∈ tensors, t.byteSize ≤ maximumTensorBytes) ∧
        (tensors.map TensorContract.byteSize).sum ≤ maximumProfileTensorBytes) ∧
      totalBytes = (tensors.map TensorContract.byteSize).sum := by
  have hzero : 0 ≤ maximumProfileTensorBytes := Nat.zero_le _
  rw [foldlM_addTensor tensors hzero, Nat.zero_add]
  split
  · rename_i h
    rw [okOr, Option.elim_some, Except.ok.injEq]
    exact ⟨fun heq => ⟨h,heq.symm⟩,fun heq => heq.2.symm⟩
  · rename_i h
    exact iff_of_false nofun fun heq => h heq.1

/-- What the size of a tensor depends on: its largest dimensions, in any order, and its
element type. -/
def TensorContract.shape (tensor : TensorContract) : Multiset ℕ×TensorDataType :=
  (tensor.dimensions.map TensorDimension.maximum,tensor.dataType)

def shapeBytes (shape : Multiset ℕ×TensorDataType) : ℕ := shape.1.prod*shape.2.byteWidth

theorem shapeBytes_shape (tensor : TensorContract) :
    shapeBytes tensor.shape = tensor.byteSize := by
  rw [shapeBytes, TensorContract.shape, Multiset.prod_coe, TensorContract.byteSize]

theorem byteSizes_perm {tensors others : List TensorContract}
    (h : (tensors.map TensorContract.shape).Perm (others.map TensorContract.shape)) :
    (tensors.map TensorContract.byteSize).Perm (others.map TensorContract.byteSize) := by
  have hsizes := h.map shapeBytes
  rw [List.map_map, List.map_map] at hsizes
  have hcomp : shapeBytes ∘ TensorContract.shape = TensorContract.byteSize :=
    funext shapeBytes_shape
  rwa [hcomp] at hsizes

theorem validateTensorEnvelope_ok (inputs outputs : List TensorContract) :
    validateTensorEnvelope inputs outputs = .ok () ↔
      (∀ t ∈ inputs++outputs, t.byteSize ≤ maximumTensorBytes) ∧
        ((inputs++outputs).map TensorContract.byteSize).sum ≤ maximumProfileTensorBytes := by
  rw [validateTensorEnvelope]
  constructor
  · intro h
    cases hfold : (inputs++outputs).foldlM addTensor 0 with
    | error e =>
      rw [hfold] at h
      cases h
    | ok totalBytes => exact (foldlM_addTensor_ok.mp hfold).1
  · intro h
    rw [foldlM_addTensor_ok.mpr ⟨h,rfl⟩]
    rfl

/-- The tensors of an accepted profile fit the memory which is planned for them. -/
theorem validateProfileTensors_bounded {inputs outputs : List RawTensorContract}
    {tensors : List TensorContract×List TensorContract}
    (h : validateProfileTensors inputs outputs = .ok tensors) :
    (∀ t ∈ tensors.1++tensors.2, t.byteSize ≤ maximumTensorBytes) ∧
      ((tensors.1++tensors.2).map TensorContract.byteSize).sum ≤ maximumProfileTensorBytes := by
  obtain ⟨ins,_,h⟩ := Table.bind_ok.mp h
  obtain ⟨outs,_,h⟩ := Table.bind_ok.mp h
  obtain ⟨_,henvelope,h⟩ := Table.bind_ok.mp h
  split at h
  · cases h
  · cases h
    exact (validateTensorEnvelope_ok ins outs).mp henvelope

/-- There is one error, so the verdicts of two envelopes differ in one way only. -/
theorem verdict_eq {x y : Except Error Unit} (h : x = .ok () ↔ y = .ok ()) : x = y := by
  cases x with
  | error e =>
    cases y with
    | error e' => cases e; cases e'; rfl
    | ok _ => cases h.mpr rfl
  | ok _ =>
    cases y with
    | error e' => cases h.mp rfl
    | ok _ => rfl

/-- The memory check of a profile is the check of the exact sizes: no product and no sum on
the way is other than the exact one, and neither order plays a part. -/
theorem validateTensorEnvelope_exact :
    (∀ inputs outputs, validateTensorEnvelope inputs outputs = .ok () ↔
      (∀ t ∈ inputs++outputs, t.byteSize ≤ maximumTensorBytes) ∧
        ((inputs++outputs).map TensorContract.byteSize).sum ≤ maximumProfileTensorBytes) ∧
    (∀ (tensor : TensorContract) (k n : ℕ),
      ((tensor.dimensions.take k).map TensorDimension.maximum).foldlM checkedMul 1 = some n →
        n = ((tensor.dimensions.take k).map TensorDimension.maximum).prod) ∧
    (∀ (tensors : List TensorContract) (totalBytes : ℕ),
      tensors.foldlM addTensor 0 = .ok totalBytes →
        totalBytes = (tensors.map TensorContract.byteSize).sum) ∧
    (∀ inputs outputs inputs' outputs' : List TensorContract,
      ((inputs++outputs).map TensorContract.shape).Perm
        ((inputs'++outputs').map TensorContract.shape) →
      validateTensorEnvelope inputs outputs = validateTensorEnvelope inputs' outputs') := by
  refine ⟨validateTensorEnvelope_ok,?_,fun _ _ h => (foldlM_addTensor_ok.mp h).2,?_⟩
  · intro tensor k n h
    have hone : 1 ≤ u64Max := by decide
    have hpos : ∀ x ∈ (tensor.dimensions.take k).map TensorDimension.maximum, 1 ≤ x := by
      intro x hx
      obtain ⟨d,hd,rfl⟩ := List.mem_map.mp hx
      exact dimensions_pos tensor _ (List.mem_map_of_mem (List.mem_of_mem_take hd))
    have hprod := foldlM_mul hpos hone
    rw [Nat.one_mul] at hprod
    exact (capped_some.mp (hprod.symm.trans h)).2
  · intro inputs outputs inputs' outputs' h
    have hperm := byteSizes_perm h
    apply verdict_eq
    rw [validateTensorEnvelope_ok, validateTensorEnvelope_ok, hperm.sum_eq]
    have hsizes : ∀ tensors : List TensorContract,
        (∀ t ∈ tensors, t.byteSize ≤ maximumTensorBytes) ↔
          ∀ n ∈ tensors.map TensorContract.byteSize, n ≤ maximumTensorBytes := by
      intro tensors
      rw [List.forall_mem_map]
    rw [hsizes, hsizes]
    simp only [hperm.mem_iff]

def image : TensorContract :=
  ⟨⟨"image",.float32,[.fixed 1,.fixed 3,.dynamic 640,.dynamic 960]⟩,by decide⟩

/-- The image with its rows and columns before the channels. -/
def channelsLast : TensorContract :=
  ⟨⟨"pixels",.float32,[.fixed 1,.dynamic 640,.dynamic 960,.fixed 3]⟩,by decide⟩

def boxes : TensorContract := ⟨⟨"boxes",.int64,[.dynamic 1000,.fixed 4]⟩,by decide⟩

theorem envelope_reordered :
    validateTensorEnvelope [image] [boxes] = validateTensorEnvelope [boxes] [channelsLast] :=
  validateTensorEnvelope_exact.2.2.2 [image] [boxes] [boxes] [channelsLast] (by decide)

end DocumentIntelligence.TensorEnvelope
