import Mathlib

/-!
# Big-endian numbers and length-prefixed frames

A number of 32 bits is written as four bytes, the highest first. A stream of frames has
before each payload its length, and ends with the length zero.
-/

set_option autoImplicit false

namespace DocumentIntelligence.BigEndian

abbrev Bytes := List UInt8

/-- `usize::MAX` and one -/
def usizeBound : ℕ := 2^64

def ascii (text : String) : Bytes := text.toList.map Char.toUInt8

/-! ### Numbers -/

/-- `u32::from_be_bytes` -/
def fromBeBytes (bytes : Bytes) : ℕ := bytes.foldl (fun n byte => 256*n+byte.toNat) 0

/-- `u32::to_be_bytes` -/
def toBeBytes (n : ℕ) : Bytes :=
  [UInt8.ofNat (n/2^24),UInt8.ofNat (n/2^16),UInt8.ofNat (n/2^8),UInt8.ofNat n]

@[simp] theorem length_toBeBytes (n : ℕ) : (toBeBytes n).length = 4 := rfl

theorem fromBeBytes_lt (bytes : Bytes) : fromBeBytes bytes < 256^bytes.length := by
  have hfold : ∀ (bs : Bytes) (n : ℕ),
      bs.foldl (fun n byte => 256*n+byte.toNat) n < 256^bs.length*(n+1) := by
    intro bs
    induction bs with
    | nil => simp
    | cons byte bs ih =>
      intro n
      have hbyte := byte.toNat_lt
      have hnext := ih (256*n+byte.toNat)
      rw [List.foldl_cons, List.length_cons, pow_succ, mul_assoc]
      exact lt_of_lt_of_le hnext (Nat.mul_le_mul_left _ (by omega))
  have h := hfold bytes 0
  rwa [Nat.zero_add, Nat.mul_one] at h

theorem fromBeBytes_toBeBytes {n : ℕ} (h : n < 2^32) : fromBeBytes (toBeBytes n) = n := by
  simp only [fromBeBytes, toBeBytes, List.foldl_cons, List.foldl_nil, UInt8.toNat_ofNat']
  omega

theorem toBeBytes_fromBeBytes {bytes : Bytes} (h : bytes.length = 4) :
    toBeBytes (fromBeBytes bytes) = bytes := by
  match bytes, h with
  | [a,b,c,d], _ =>
    have ha := a.toNat_lt
    have hb := b.toNat_lt
    have hc := c.toNat_lt
    have hd := d.toNat_lt
    simp only [fromBeBytes, toBeBytes, List.foldl_cons, List.foldl_nil, List.cons.injEq, and_true]
    refine ⟨?_,?_,?_,?_⟩ <;>
      · rw [← UInt8.toNat_inj, UInt8.toNat_ofNat']
        omega

/-! ### Pieces of bounded length -/

/-- `slice::chunks`, for a size which is not zero -/
def chunks (size : ℕ) (bytes : Bytes) : List Bytes :=
  if bytes = [] ∨ size = 0 then [] else bytes.take size::chunks size (bytes.drop size)
  termination_by bytes.length
  decreasing_by
    rename_i h
    rw [not_or] at h
    have hpos := List.length_pos_iff.mpr h.1
    rw [List.length_drop]
    omega

theorem flatten_chunks {size : ℕ} (hsize : 0 < size) (bytes : Bytes) :
    (chunks size bytes).flatten = bytes := by
  fun_induction chunks size bytes with
  | case1 bytes h =>
    rcases h with rfl | rfl
    · rfl
    · exact absurd hsize (lt_irrefl 0)
  | case2 bytes h ih => rw [List.flatten_cons, ih, List.take_append_drop]

/-- A payload with at least one byte and at most `limit`. -/
def Framed (limit : ℕ) (payload : Bytes) : Prop := payload ≠ [] ∧ payload.length ≤ limit

theorem chunks_framed {size : ℕ} (hsize : 0 < size) (bytes : Bytes) :
    ∀ piece ∈ chunks size bytes, Framed size piece := by
  fun_induction chunks size bytes with
  | case1 bytes h => nofun
  | case2 bytes h ih =>
    intro piece hpiece
    rcases List.mem_cons.mp hpiece with rfl | hpiece
    · rw [not_or] at h
      have hpos := List.length_pos_iff.mpr h.1
      constructor
      · apply List.ne_nil_of_length_pos
        rw [List.length_take]
        omega
      · exact List.length_take_le size bytes
    · exact ih piece hpiece

/-! ### Frames -/

def frame (payload : Bytes) : Bytes := toBeBytes payload.length++payload

def encodeFrames (payloads : List Bytes) : Bytes := payloads.flatMap frame

def terminator : Bytes := toBeBytes 0

/-- The payloads up to the length zero, which ends the bytes. -/
def decodeFrames (bytes : Bytes) : Option (List Bytes) :=
  if bytes.length < 4 then none
  else
    let length := fromBeBytes (bytes.take 4)
    let rest := bytes.drop 4
    if length = 0 then (if rest = [] then some [] else none)
    else if rest.length < length then none
    else (decodeFrames (rest.drop length)).map fun payloads => rest.take length::payloads
  termination_by bytes.length
  decreasing_by
    rw [List.length_drop, List.length_drop]
    omega

@[simp] theorem encodeFrames_nil : encodeFrames [] = [] := rfl

@[simp] theorem encodeFrames_cons (payload : Bytes) (payloads : List Bytes) :
    encodeFrames (payload::payloads) = toBeBytes payload.length++(payload++encodeFrames payloads) := by
  rw [encodeFrames, List.flatMap_cons, frame, List.append_assoc]
  rfl

theorem encodeFrames_append (xs ys : List Bytes) :
    encodeFrames (xs++ys) = encodeFrames xs++encodeFrames ys :=
  List.flatMap_append

theorem decodeFrames_terminator : decodeFrames terminator = some [] := by
  rw [decodeFrames]
  rfl

theorem decodeFrames_short {bytes : Bytes} (h : bytes.length < 4) : decodeFrames bytes = none := by
  rw [decodeFrames, if_pos h]

/-- A frame which is complete is read, and what follows it. -/
theorem decodeFrames_frame {payload : Bytes} (hne : payload ≠ []) (hlength : payload.length < 2^32)
    (rest : Bytes) : decodeFrames (toBeBytes payload.length++(payload++rest)) =
      (decodeFrames rest).map fun payloads => payload::payloads := by
  have hpos := List.length_pos_iff.mpr hne
  have htake : (toBeBytes payload.length++(payload++rest)).take 4 = toBeBytes payload.length :=
    List.take_left' rfl
  have hdrop : (toBeBytes payload.length++(payload++rest)).drop 4 = payload++rest :=
    List.drop_left' rfl
  rw [decodeFrames, if_neg (by rw [List.length_append, length_toBeBytes]; omega)]
  simp only [htake, hdrop, fromBeBytes_toBeBytes hlength]
  rw [if_neg (by omega), if_neg (by rw [List.length_append]; omega), List.drop_left' rfl,
    List.take_left' rfl]

/-- A frame which is cut is not read. -/
theorem decodeFrames_cut {payload : Bytes} (hne : payload ≠ []) (hlength : payload.length < 2^32)
    {part : Bytes} (hpart : part.length < payload.length) :
    decodeFrames (toBeBytes payload.length++part) = none := by
  have htake : (toBeBytes payload.length++part).take 4 = toBeBytes payload.length :=
    List.take_left' rfl
  have hdrop : (toBeBytes payload.length++part).drop 4 = part := List.drop_left' rfl
  have hpos := List.length_pos_iff.mpr hne
  rw [decodeFrames, if_neg (by rw [List.length_append, length_toBeBytes]; omega)]
  simp only [htake, hdrop, fromBeBytes_toBeBytes hlength]
  rw [if_neg (by omega), if_pos hpart]

section Decode
variable {limit : ℕ} (hlimit : limit < 2^32)
include hlimit

theorem decodeFrames_encodeFrames {payloads : List Bytes}
    (h : ∀ payload ∈ payloads, Framed limit payload) :
    decodeFrames (encodeFrames payloads++terminator) = some payloads := by
  induction payloads with
  | nil => exact decodeFrames_terminator
  | cons payload payloads ih =>
    obtain ⟨hne,hlength⟩ := h payload List.mem_cons_self
    rw [encodeFrames_cons, List.append_assoc, List.append_assoc,
      decodeFrames_frame hne (by omega), ih fun p hp => h p (List.mem_cons_of_mem _ hp)]
    rfl

/-- No proper part of a stream from its start is a stream. -/
theorem decodeFrames_take {payloads : List Bytes}
    (h : ∀ payload ∈ payloads, Framed limit payload) {n : ℕ}
    (hn : n < (encodeFrames payloads++terminator).length) :
    decodeFrames ((encodeFrames payloads++terminator).take n) = none := by
  induction payloads generalizing n with
  | nil =>
    apply decodeFrames_short
    rw [List.length_take]
    exact lt_of_le_of_lt (min_le_left _ _) hn
  | cons payload payloads ih =>
    obtain ⟨hne,hlength⟩ := h payload List.mem_cons_self
    have hall : ∀ p ∈ payloads, Framed limit p := fun p hp => h p (List.mem_cons_of_mem _ hp)
    rw [encodeFrames_cons, List.append_assoc, List.append_assoc] at hn ⊢
    rw [List.length_append, List.length_append, length_toBeBytes] at hn
    by_cases hshort : n < 4
    · apply decodeFrames_short
      rw [List.length_take]
      omega
    · rw [List.take_append, List.take_of_length_le (by rw [length_toBeBytes]; omega),
        length_toBeBytes]
      by_cases hcut : n-4 < payload.length
      · apply decodeFrames_cut hne (by omega)
        rw [List.length_take]
        omega
      · rw [List.take_append, List.take_of_length_le (by omega),
          decodeFrames_frame hne (by omega), ih hall (by omega)]
        rfl

/-- Frames without the end are no stream, cut or not. -/
theorem decodeFrames_open {payloads : List Bytes}
    (h : ∀ payload ∈ payloads, Framed limit payload) (n : ℕ) :
    decodeFrames ((encodeFrames payloads).take n) = none := by
  have htake : (encodeFrames payloads).take n =
      (encodeFrames payloads++terminator).take (min n (encodeFrames payloads).length) := by
    rw [← List.take_take, List.take_left' rfl]
  rw [htake]
  apply decodeFrames_take hlimit h
  rw [List.length_append]
  have hfour : terminator.length = 4 := rfl
  omega

end Decode

end DocumentIntelligence.BigEndian
