import DocumentIntelligence.Identifiers
import DocumentIntelligence.ObjectStorage

/-!
# Storage locations

A bucket is named by a location of one of three providers. All characters of a
location are ASCII, and its length is bounded.
-/

set_option autoImplicit false

namespace DocumentIntelligence.StorageLocations
open Identifiers (stripPrefix stripPrefix_some byteLength)

/-- A bucket and a name in it. -/
abbrev ObjectPath := String × String

/-- A provider may give an object no version. -/
abbrev StoredObjects := ObjectStorage.Objects ObjectPath (Option String)
abbrev StoredObject := ObjectStorage.Stored ObjectPath (Option String)

/-- The calls about an object are answered, or the answers are lost after the
write, or the write is refused. -/
inductive StorageReply where
  | answered
  | lost
  | refused
  deriving DecidableEq, Repr

inductive Location where
  | gcs (bucket : List Char)
  | s3 (bucket : List Char)
  | azure (account container : List Char)
  deriving DecidableEq, Repr

def contains (part value : List Char) : Bool := value.tails.any part.isPrefixOf

def dnsCharacter (c : Char) : Bool :=
  c.isLower || c.isDigit || c == '.' || c == '_' || c == '-'

def dnsName (value : List Char) : Bool :=
  decide (3 ≤ byteLength value ∧ byteLength value ≤ 63) && value.head?.any Char.isAlphanum &&
    value.getLast?.any Char.isAlphanum && value.all dnsCharacter && !contains "..".toList value

/-- A decimal octet without a leading zero. -/
def ipv4Octet (digits : List Char) : Bool :=
  decide (1 ≤ digits.length ∧ digits.length ≤ 3) && digits.all Char.isDigit &&
    (digits.length == 1 || digits.head? != some '0') &&
    decide (digits.foldl (fun n c => 10*n+(c.toNat-48)) 0 ≤ 255)

def isIpv4 (value : List Char) : Bool :=
  let parts := value.splitOn '.'
  parts.length == 4 && parts.all ipv4Octet

/-- The text before the first slash and the text after it. -/
def splitOnce : List Char → Option (List Char × List Char)
  | [] => none
  | c::cs => if c = '/' then some ([],cs) else (splitOnce cs).map fun x => (c::x.1,x.2)

def azureLocation (azure : List Char) : Option Location :=
  match splitOnce azure with
  | none => none
  | some (account,container) =>
    if decide (3 ≤ byteLength account ∧ byteLength account ≤ 24) &&
        (account.all fun c => c.isLower || c.isDigit) && dnsName container &&
        !container.any (fun c => c == '.' || c == '_') && !contains "--".toList container then
      some (.azure account container)
    else none

def location (value : String) : Option Location :=
  match stripPrefix value "s3://" with
  | some bucket =>
    if dnsName bucket && !bucket.contains '_' && !isIpv4 bucket then some (.s3 bucket) else none
  | none => match stripPrefix value "az://" with
    | some azure => azureLocation azure
    | none =>
      let bucket := (stripPrefix value "gs://").getD value.toList
      if dnsName bucket && !"goog".toList.isPrefixOf bucket && !contains "google".toList bucket then
        some (.gcs bucket)
      else none

/-- `is_storage_location` -/
def isBucketName (value : String) : Bool := (location value).isSome

def promotionCompatible (source destination : String) : Bool :=
  match location source, location destination with
  | some (.gcs a), some (.gcs b) | some (.s3 a), some (.s3 b) => a != b
  | some (.azure a c), some (.azure b d) => decide ((a,c) ≠ (b,d))
  | _, _ => false

theorem splitOnce_some {value before after : List Char} (h : splitOnce value = some (before,after)) :
    value = before++['/']++after := by
  induction value generalizing before with
  | nil => cases h
  | cons c cs ih =>
    rw [splitOnce] at h
    by_cases hc : c = '/'
    · rw [if_pos hc, Option.some.injEq, Prod.mk.injEq] at h
      rw [← h.1, ← h.2, hc]
      rfl
    · rw [if_neg hc] at h
      obtain ⟨x,hx,heq⟩ := Option.map_eq_some_iff.mp h
      rw [Prod.mk.injEq] at heq
      have hcs := ih (by rw [hx, ← heq.2] : splitOnce cs = some (x.1,after))
      rw [hcs, ← heq.1]
      rfl

theorem dnsCharacter_size {c : Char} (h : dnsCharacter c = true) : c.utf8Size = 1 := by
  have hbound : c.toNat ≤ 127 := by
    simp only [dnsCharacter, Bool.or_eq_true, beq_iff_eq, Char.isLower, Char.isDigit,
      Bool.and_eq_true, decide_eq_true_eq, UInt32.le_iff_toNat_le] at h
    have hn : c.toNat = c.val.toNat := rfl
    rw [hn]
    rcases h with (((⟨_,h⟩ | ⟨_,h⟩) | rfl) | rfl) | rfl
    · exact le_trans h (by decide)
    · exact le_trans h (by decide)
    all_goals decide
  rw [Char.utf8Size_eq_one_iff]
  exact UInt32.le_iff_toNat_le.mpr hbound

theorem dnsName_length {value : List Char} (h : dnsName value = true) :
    byteLength value = value.length ∧ 3 ≤ value.length ∧ value.length ≤ 63 := by
  simp only [dnsName, Bool.and_eq_true, decide_eq_true_eq, List.all_eq_true] at h
  have hlength : byteLength value = value.length := by
    have hall := h.1.2
    clear h
    unfold byteLength
    induction value with
    | nil => rfl
    | cons c cs ih =>
      have hc := dnsCharacter_size (hall c List.mem_cons_self)
      have hcs := ih fun x hx => hall x (List.mem_cons_of_mem c hx)
      rw [List.map_cons, List.sum_cons, hc, hcs, List.length_cons, Nat.add_comm]
  rw [hlength] at h
  exact ⟨hlength,h.1.1.1.1⟩

theorem size_split {value : String} {start rest : List Char} (h : value.toList = start++rest) :
    value.length = start.length+rest.length ∧
      value.utf8ByteSize = byteLength start+byteLength rest := by
  constructor
  · rw [← String.length_toList, h, List.length_append]
  · rw [Json.utf8ByteSize_eq_sum, h, List.map_append, List.sum_append]
    rfl

theorem isBucketName_length {value : String} (h : isBucketName value = true) :
    3 ≤ value.length ∧ value.utf8ByteSize ≤ 93 := by
  unfold isBucketName location at h
  cases hs3 : stripPrefix value "s3://" with
  | some bucket =>
    simp only [hs3] at h
    split at h
    · rename_i hname
      simp only [Bool.and_eq_true] at hname
      obtain ⟨hbytes,_,hlength⟩ := dnsName_length hname.1.1
      obtain ⟨hchars,hsize⟩ := size_split (stripPrefix_some hs3)
      have hstart : byteLength "s3://".toList = 5 ∧ "s3://".toList.length = 5 := by decide
      omega
    · cases h
  | none =>
    cases haz : stripPrefix value "az://" with
    | some azure =>
      simp only [hs3, haz, azureLocation] at h
      cases hsplit : splitOnce azure with
      | none => simp [hsplit] at h
      | some parts =>
        simp only [hsplit] at h
        split at h
        · rename_i hname
          simp only [Bool.and_eq_true, decide_eq_true_eq] at hname
          obtain ⟨hbytes,_,hlength⟩ := dnsName_length hname.1.1.2
          obtain ⟨hchars,hsize⟩ := size_split (stripPrefix_some haz)
          have hazure : byteLength azure = byteLength parts.1+1+byteLength parts.2 := by
            rw [splitOnce_some hsplit]
            simp only [byteLength, List.map_append, List.sum_append]
            rfl
          have hstart : byteLength "az://".toList = 5 ∧ "az://".toList.length = 5 := by decide
          have haccount := hname.1.1.1.1.2
          omega
        · cases h
    | none =>
      simp only [hs3, haz] at h
      split at h
      · rename_i hname
        simp only [Bool.and_eq_true] at hname
        obtain ⟨hbytes,hlow,hlength⟩ := dnsName_length hname.1.1
        cases hgs : stripPrefix value "gs://" with
        | some bucket =>
          rw [hgs, Option.getD_some] at hbytes hlow hlength
          obtain ⟨hchars,hsize⟩ := size_split (stripPrefix_some hgs)
          have hstart : byteLength "gs://".toList = 5 ∧ "gs://".toList.length = 5 := by decide
          omega
        | none =>
          rw [hgs, Option.getD_none] at hbytes hlow hlength
          obtain ⟨hchars,hsize⟩ := size_split
            ((List.nil_append value.toList).symm : value.toList = []++value.toList)
          have hstart : byteLength [] = 0 := rfl
          simp only [List.length_nil] at hchars
          rw [String.length_toList] at hlow hlength hbytes
          omega
      · cases h

end DocumentIntelligence.StorageLocations
