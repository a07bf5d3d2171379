import DocumentIntelligence.AccessGrants
import DocumentIntelligence.Dispatch
import DocumentIntelligence.PageArtifacts

/-!
# Scoped names

Workflows, cache entries, objects and points of the vector index are named after their
scopes. The separators occur in no identifier, and the parts of a point are framed by their
lengths, so a name shows all its parts.
-/

set_option autoImplicit false

namespace DocumentIntelligence.ScopedNames
open Identifiers hiding Error
open RequestSigning (asBytes)
open AccessGrants (hexEncode_inj)
open PageArtifacts (objectName)
open Dispatch (scopedWorkflowId)

/-! ### The names -/

/-- What the identifier of a workflow is the digest of. -/
def workflowPreimage (scope : Scope) (jobId : JobId) : List UInt8 :=
  scope.productId.asStr.toUTF8.toList++[0]++scope.tenantId.asStr.toUTF8.toList++[0]++
    jobId.asStr.toUTF8.toList

structure CacheScope where
  productId : ProductId
  tenantId : TenantId
  jobId : JobId
  deriving DecidableEq

def cacheNamespace : String := "ocr:job-status:v1"

def CacheScope.key (scope : CacheScope) : String :=
  cacheNamespace++":"++scope.productId.asStr++":"++scope.tenantId.asStr++":"++scope.jobId.asStr

structure MemoryRecordId where
  asStr : String
  valid : validatedId asStr "mem_" = true
  deriving DecidableEq

structure MemoryRecordVersion where
  asStr : String
  valid : isCanonicalSha256 asStr = true

def validEmbeddingVersion (value : String) : Bool :=
  let suffix := (stripPrefix value "emb_").getD []
  let validEdges := match suffix.head?, suffix.getLast? with
    | some first, some last => first.isAlphanum && last.isAlphanum
    | _, _ => false
  !suffix.isEmpty && decide (byteLength suffix ≤ 64) && validEdges &&
    suffix.all fun c => c.isLower || c.isDigit || c == '.' || c == '_' || c == '-'

structure EmbeddingVersion where
  asStr : String
  valid : validEmbeddingVersion asStr = true
  deriving DecidableEq

/-- What a point of the vector index is derived from. -/
structure MemoryPoint where
  tenantId : TenantId
  recordId : MemoryRecordId
  recordVersion : MemoryRecordVersion
  embeddingVersion : EmbeddingVersion

/-- `u64::to_be_bytes` -/
def toBeBytes (n : UInt64) : List UInt8 :=
  [(n >>> 56).toUInt8,(n >>> 48).toUInt8,(n >>> 40).toUInt8,(n >>> 32).toUInt8,(n >>> 24).toUInt8,
    (n >>> 16).toUInt8,(n >>> 8).toUInt8,n.toUInt8]

/-- A value after its length. -/
def framed (value : String) : List UInt8 :=
  toBeBytes (UInt64.ofNat value.utf8ByteSize)++value.toUTF8.toList

def MemoryPoint.values (point : MemoryPoint) : List String :=
  [point.tenantId.asStr,point.recordId.asStr,point.recordVersion.asStr,point.embeddingVersion.asStr]

def MemoryPoint.preimage (point : MemoryPoint) : List UInt8 :=
  "ocr-memory-point-v1".toUTF8.toList++point.values.flatMap framed

/-- The version and the variant of an identifier are set in two of its bytes. -/
def pointBytes (digest : Vector UInt8 32) : List UInt8 :=
  let bytes := digest.toList.take 16
  let bytes := bytes.set 6 (bytes.getD 6 0 &&& 0x0f ||| 0x80)
  bytes.set 8 (bytes.getD 8 0 &&& 0x3f ||| 0x80)

/-- `Uuid::to_string` -/
def uuidString (bytes : List UInt8) : String :=
  hexEncode (bytes.take 4)++"-"++hexEncode ((bytes.drop 4).take 2)++"-"++
    hexEncode ((bytes.drop 6).take 2)++"-"++hexEncode ((bytes.drop 8).take 2)++"-"++
    hexEncode (bytes.drop 10)

section Digests
variable (sha256 : List UInt8 → Vector UInt8 32)

/-- `VectorPointId::derive` -/
def MemoryPoint.derive (point : MemoryPoint) : String :=
  uuidString (pointBytes (sha256 point.preimage))

end Digests

/-! ### Separators -/

theorem separator_inj {α : Type} {c : α} {xs ys rest rest' : List α} (hx : c ∉ xs) (hy : c ∉ ys)
    (h : xs++c::rest = ys++c::rest') : xs = ys ∧ rest = rest' := by
  induction xs generalizing ys with
  | nil =>
    cases ys with
    | nil => exact ⟨rfl,(List.cons.inj h).2⟩
    | cons y ys =>
      have hhead := (List.cons.inj h).1
      exact absurd (hhead ▸ List.mem_cons_self) hy
  | cons x xs ih =>
    cases ys with
    | nil =>
      have hhead := (List.cons.inj h).1
      exact absurd (hhead ▸ List.mem_cons_self) hx
    | cons y ys =>
      rw [List.cons_append, List.cons_append, List.cons.injEq] at h
      obtain ⟨hrest,hend⟩ := ih (fun hm => hx (List.mem_cons_of_mem _ hm))
        (fun hm => hy (List.mem_cons_of_mem _ hm)) h.2
      exact ⟨by rw [h.1, hrest],hend⟩

/-- The characters of identifiers. -/
def nameCharacter (c : Char) : Bool := c.isAlphanum || c == '_' || c == '-'

def Name (value : String) : Prop := ∀ c ∈ value.toList, nameCharacter c = true

theorem Name.separated {value : String} (h : Name value) {c : Char} (hc : nameCharacter c = false) :
    c ∉ value.toList := by
  intro hmem
  rw [h c hmem] at hc
  cases hc

theorem validatedId_name {value start : String} (h : validatedId value start = true)
    (hstart : Name start) : Name value := by
  obtain ⟨suffix,_,hsuffix,hlist⟩ := validatedId_split h
  intro c hc
  rw [hlist, List.mem_append] at hc
  rcases hc with hc | hc
  · exact hstart c hc
  · rw [validSuffix, Bool.and_eq_true, List.all_eq_true] at hsuffix
    have hchar := hsuffix.2 c hc
    rw [nameCharacter, hchar, Bool.true_or]

theorem tenantId_name (tenantId : TenantId) : Name tenantId.asStr :=
  validatedId_name tenantId.valid (List.all_eq_true.mp rfl)

theorem jobId_name (jobId : JobId) : Name jobId.asStr :=
  validatedId_name jobId.valid (List.all_eq_true.mp rfl)

theorem productId_name (productId : ProductId) : Name productId.asStr := by
  intro c hc
  have hvalid := productId.valid
  simp only [validProductId, Bool.and_eq_true, List.all_eq_true] at hvalid
  have hchar := hvalid.2 c hc
  simp only [Bool.or_eq_true] at hchar
  rw [nameCharacter, Char.isAlphanum, Char.isAlpha]
  rcases hchar with (hlower | hdigit) | hdash
  · simp [hlower]
  · simp [hdigit]
  · simp [hdash]

theorem number_name (n : ℕ) : Name (toString n) := by
  intro c hc
  have hdigits : (toString n).toList = Nat.toDigits 10 n := Nat.toList_repr
  rw [hdigits] at hc
  have hdigit := Nat.isDigit_of_mem_toDigits (by decide) (by decide) hc
  simp [nameCharacter, Char.isAlphanum, hdigit]

theorem number_inj {n k : ℕ} (h : (toString n).toList = (toString k).toList) : n = k := by
  have hdigits : ∀ m : ℕ, (toString m).toList = Nat.toDigits 10 m := fun m => Nat.toList_repr
  rw [hdigits, hdigits] at h
  rw [← Nat.ofDigitChars_ten_toDigits (n := n), h, Nat.ofDigitChars_ten_toDigits]

theorem scope_ext {scope scope' : Scope} (hproduct : scope.productId.asStr = scope'.productId.asStr)
    (htenant : scope.tenantId.asStr = scope'.tenantId.asStr) : scope = scope' := by
  rcases scope with ⟨⟨product,_⟩,⟨tenant,_⟩⟩
  rcases scope' with ⟨⟨product',_⟩,⟨tenant',_⟩⟩
  subst hproduct htenant
  rfl

theorem jobId_ext {jobId jobId' : JobId} (h : jobId.asStr = jobId'.asStr) : jobId = jobId' := by
  rcases jobId with ⟨job,_⟩
  rcases jobId' with ⟨job',_⟩
  subst h
  rfl

theorem key_injective : Function.Injective CacheScope.key := by
  intro a b h
  have hchars := congrArg String.toList h
  have hcolon : (":" : String).toList = [':'] := rfl
  simp only [CacheScope.key, String.toList_append, List.append_assoc, hcolon, List.cons_append,
    List.nil_append] at hchars
  have hchars := (List.cons.inj (List.append_cancel_left hchars)).2
  obtain ⟨hproduct,hchars⟩ := separator_inj ((productId_name _).separated (by decide))
    ((productId_name _).separated (by decide)) hchars
  obtain ⟨htenant,hjob⟩ := separator_inj ((tenantId_name _).separated (by decide))
    ((tenantId_name _).separated (by decide)) hchars
  have hscope : (⟨a.productId,a.tenantId⟩ : Scope) = ⟨b.productId,b.tenantId⟩ :=
    scope_ext (String.toList_inj.mp hproduct) (String.toList_inj.mp htenant)
  have hjob := jobId_ext (String.toList_inj.mp hjob)
  rw [CacheScope.mk.injEq]
  exact ⟨congrArg Scope.productId hscope,congrArg Scope.tenantId hscope,hjob⟩

theorem tenants_chars : ("/tenants/" : String).toList = '/'::"tenants/".toList := rfl

theorem pages_chars : ("/pages/" : String).toList = '/'::"pages/".toList := rfl

theorem slash_chars : ("/" : String).toList = ['/'] := rfl

theorem attempt_chars : ("/attempt-" : String).toList = '/'::"attempt-".toList := rfl

theorem json_chars : (".json" : String).toList = '.'::"json".toList := rfl

theorem objectName_injective {scope scope' : Scope} {jobId jobId' : JobId}
    {page page' attempt attempt' : ℕ}
    (h : objectName scope jobId page attempt = objectName scope' jobId' page' attempt') :
    scope = scope' ∧ jobId = jobId' ∧ page = page' ∧ attempt = attempt' := by
  have hchars := congrArg String.toList h
  unfold objectName at hchars
  simp only [String.toList_append, List.append_assoc, tenants_chars, pages_chars, slash_chars,
    attempt_chars, json_chars, List.cons_append, List.nil_append] at hchars
  obtain ⟨hproduct,hchars⟩ := separator_inj ((productId_name _).separated (by decide))
    ((productId_name _).separated (by decide)) (List.append_cancel_left hchars)
  obtain ⟨htenant,hchars⟩ := separator_inj ((tenantId_name _).separated (by decide))
    ((tenantId_name _).separated (by decide)) (List.append_cancel_left hchars)
  obtain ⟨hjob,hchars⟩ := separator_inj ((jobId_name _).separated (by decide))
    ((jobId_name _).separated (by decide)) (List.append_cancel_left hchars)
  obtain ⟨hpage,hchars⟩ := separator_inj ((number_name page).separated (by decide))
    ((number_name page').separated (by decide)) hchars
  obtain ⟨hattempt,_⟩ := separator_inj ((number_name attempt).separated (by decide))
    ((number_name attempt').separated (by decide)) (List.append_cancel_left hchars)
  exact ⟨scope_ext (String.toList_inj.mp hproduct) (String.toList_inj.mp htenant),
    jobId_ext (String.toList_inj.mp hjob),number_inj hpage,number_inj hattempt⟩

/-! ### Bytes -/

theorem byteArray_toList (bytes : ByteArray) : bytes.toList = bytes.data.toList := by
  have hloop : ∀ n i r, bytes.size-i = n →
      ByteArray.toList.loop bytes i r = r.reverse++bytes.data.toList.drop i := by
    intro n
    induction n with
    | zero =>
      intro i r hsize
      have hend : bytes.data.toList.length ≤ i := by
        show bytes.size ≤ i
        omega
      rw [ByteArray.toList.loop, if_neg (by omega), List.drop_eq_nil_of_le hend, List.append_nil]
    | succ n ih =>
      intro i r hsize
      have hi : i < bytes.data.toList.length := by
        show i < bytes.size
        omega
      have hget : bytes.get! i = bytes.data.toList[i] := by
        show bytes.data[i]! = _
        rw [getElem!_pos bytes.data i hi, Array.getElem_toList]
      rw [ByteArray.toList.loop, if_pos (by omega), ih (i+1) _ (by omega), List.reverse_cons,
        List.append_assoc, List.drop_eq_getElem_cons hi, hget]
      rfl
  rw [ByteArray.toList, hloop _ 0 [] rfl]
  rfl

theorem bytes_eq (value : String) :
    value.toUTF8.toList = value.toList.flatMap String.utf8EncodeChar := by
  rw [byteArray_toList]
  show value.toByteArray.data.toList = _
  rw [← String.utf8Encode_toList, List.utf8Encode, List.data_toByteArray, List.toList_toArray]

theorem bytes_length (value : String) : value.toUTF8.toList.length = value.utf8ByteSize := by
  rw [byteArray_toList]
  rfl

theorem bytes_injective {value other : String} (h : value.toUTF8.toList = other.toUTF8.toList) :
    value = other := by
  rw [byteArray_toList, byteArray_toList, Array.toList_inj] at h
  exact String.toByteArray_inj.mp (ByteArray.ext h)

theorem nameCharacter_bound {c : Char} (h : nameCharacter c = true) : 0 < c.toNat ∧ c.toNat < 128 := by
  simp only [nameCharacter, Char.isAlphanum, Char.isAlpha, Char.isUpper, Char.isLower,
    Char.isDigit, Bool.or_eq_true, Bool.and_eq_true, decide_eq_true_eq, beq_iff_eq,
    UInt32.le_iff_toNat_le, ge_iff_le] at h
  have hval : c.toNat = c.val.toNat := rfl
  have hz : 'z'.val.toNat = 122 := rfl
  have hZ : 'Z'.val.toNat = 90 := rfl
  have h9 : '9'.val.toNat = 57 := rfl
  have ha : 'a'.val.toNat = 97 := rfl
  have hA : 'A'.val.toNat = 65 := rfl
  have h0 : '0'.val.toNat = 48 := rfl
  rcases h with (h | rfl) | rfl
  · omega
  · decide
  · decide

/-- A name has no zero byte. -/
theorem Name.bytes {value : String} (h : Name value) : (0:UInt8) ∉ value.toUTF8.toList := by
  rw [bytes_eq, List.mem_flatMap]
  rintro ⟨c,hc,hbyte⟩
  obtain ⟨hpos,hbound⟩ := nameCharacter_bound (h c hc)
  have hsize : c.utf8Size = 1 := by
    rw [Char.utf8Size, if_pos]
    rw [UInt32.le_iff_toNat_le]
    show c.toNat ≤ 127
    omega
  rw [String.utf8EncodeChar_eq_singleton hsize, List.mem_singleton] at hbyte
  have hnat := congrArg UInt8.toNat hbyte
  rw [UInt32.toNat_toUInt8, Nat.mod_eq_of_lt (show c.val.toNat < 2^8 by show c.toNat < 2^8; omega)]
    at hnat
  rw [show c.toNat = c.val.toNat from rfl, ← hnat] at hpos
  exact absurd hpos (by decide)

theorem workflowPreimage_injective {scope scope' : Scope} {jobId jobId' : JobId}
    (h : workflowPreimage scope jobId = workflowPreimage scope' jobId') :
    scope = scope' ∧ jobId = jobId' := by
  simp only [workflowPreimage, List.append_assoc, List.cons_append, List.nil_append] at h
  obtain ⟨hproduct,h⟩ := separator_inj (productId_name _).bytes (productId_name _).bytes h
  obtain ⟨htenant,h⟩ := separator_inj (tenantId_name _).bytes (tenantId_name _).bytes h
  exact ⟨scope_ext (bytes_injective hproduct) (bytes_injective htenant),
    jobId_ext (bytes_injective h)⟩

/-! ### Framed values -/

theorem toBeBytes_inj {n k : ℕ} (hn : n < 256) (hk : k < 256)
    (h : toBeBytes (UInt64.ofNat n) = toBeBytes (UInt64.ofNat k)) : n = k := by
  simp only [toBeBytes, List.cons.injEq, and_true] at h
  have hlow := congrArg UInt8.toNat h.2.2.2.2.2.2.2
  rw [UInt64.toNat_toUInt8, UInt64.toNat_toUInt8, UInt64.toNat_ofNat', UInt64.toNat_ofNat'] at hlow
  omega

theorem framed_inj {value other : String} {rest rest' : List UInt8} (hv : value.utf8ByteSize < 256)
    (ho : other.utf8ByteSize < 256) (h : framed value++rest = framed other++rest') :
    value = other ∧ rest = rest' := by
  rw [framed, framed, List.append_assoc, List.append_assoc] at h
  obtain ⟨hlength,h⟩ := List.append_inj h rfl
  have hsize := toBeBytes_inj hv ho hlength
  obtain ⟨hbytes,hrest⟩ := List.append_inj h (by rw [bytes_length, bytes_length, hsize])
  exact ⟨bytes_injective hbytes,hrest⟩

theorem frames_inj {values others : List String} (hv : ∀ v ∈ values, v.utf8ByteSize < 256)
    (ho : ∀ v ∈ others, v.utf8ByteSize < 256) (hlength : values.length = others.length)
    (h : values.flatMap framed = others.flatMap framed) : values = others := by
  induction values generalizing others with
  | nil => exact (List.length_eq_zero_iff.mp hlength.symm).symm
  | cons v values ih =>
    cases others with
    | nil => cases hlength
    | cons o others =>
      rw [List.flatMap_cons, List.flatMap_cons] at h
      obtain ⟨hfirst,hrest⟩ := framed_inj (hv v List.mem_cons_self) (ho o List.mem_cons_self) h
      rw [hfirst, ih (fun w hw => hv w (List.mem_cons_of_mem _ hw))
        (fun w hw => ho w (List.mem_cons_of_mem _ hw)) (Nat.succ.inj hlength) hrest]

/-! ### Points -/

theorem stripPrefix_size {value start : String} (h : byteLength ((stripPrefix value start).getD []) ≤ 64)
    (hsome : (stripPrefix value start).getD [] ≠ []) :
    value.utf8ByteSize ≤ start.utf8ByteSize+64 := by
  cases hstrip : stripPrefix value start with
  | none =>
    rw [hstrip] at hsome
    exact absurd rfl hsome
  | some rest =>
    rw [hstrip, Option.getD_some] at h
    have hlist := stripPrefix_some hstrip
    rw [Json.utf8ByteSize_eq_sum value, Json.utf8ByteSize_eq_sum start, hlist, List.map_append,
      List.sum_append]
    exact Nat.add_le_add_left h _

theorem validatedId_size {value start : String} (h : validatedId value start = true) :
    value.utf8ByteSize ≤ start.utf8ByteSize+64 := by
  simp only [validatedId, validSuffix, Bool.and_eq_true, decide_eq_true_eq] at h
  refine stripPrefix_size h.1.2 fun hnil => ?_
  rw [hnil] at h
  cases h.1.1

theorem canonicalSha256_size {value : String} (h : isCanonicalSha256 value = true) :
    value.utf8ByteSize ≤ 71 := by
  simp only [isCanonicalSha256, Bool.and_eq_true, beq_iff_eq] at h
  refine stripPrefix_size h.1.le fun hnil => ?_
  rw [hnil] at h
  cases h.1

theorem embeddingVersion_size {value : String} (h : validEmbeddingVersion value = true) :
    value.utf8ByteSize ≤ 68 := by
  simp only [validEmbeddingVersion, Bool.and_eq_true, decide_eq_true_eq] at h
  refine stripPrefix_size h.1.1.2 fun hnil => ?_
  rw [hnil] at h
  cases h.1.1.1

theorem values_size (point : MemoryPoint) : ∀ v ∈ point.values, v.utf8ByteSize < 256 := by
  intro v hv
  simp only [MemoryPoint.values, List.mem_cons, List.not_mem_nil, or_false] at hv
  rcases hv with rfl | rfl | rfl | rfl
  · exact (validatedId_size point.tenantId.valid).trans_lt (by decide)
  · exact (validatedId_size point.recordId.valid).trans_lt (by decide)
  · exact (canonicalSha256_size point.recordVersion.valid).trans_lt (by decide)
  · exact (embeddingVersion_size point.embeddingVersion.valid).trans_lt (by decide)

theorem preimage_injective : Function.Injective MemoryPoint.preimage := by
  intro p q h
  have hvalues := frames_inj (values_size p) (values_size q) rfl (List.append_cancel_left h)
  rcases p with ⟨⟨tenant,_⟩,⟨record,_⟩,⟨version,_⟩,⟨embedding,_⟩⟩
  rcases q with ⟨⟨tenant',_⟩,⟨record',_⟩,⟨version',_⟩,⟨embedding',_⟩⟩
  simp only [MemoryPoint.values, List.cons.injEq, and_true] at hvalues
  obtain ⟨rfl,rfl,rfl,rfl⟩ := hvalues
  rfl

/-! ### The digests -/

theorem hexEncode_chars (bytes : List UInt8) : (hexEncode bytes).toList.length = 2*bytes.length := by
  unfold hexEncode
  rw [String.toList_ofList]
  induction bytes with
  | nil => rfl
  | cons byte bytes ih =>
    rw [List.flatMap_cons, List.length_append, ih, List.length_cons, List.length_cons,
      List.length_cons, List.length_nil]
    omega

theorem hexEncode_append (xs ys : List UInt8) : hexEncode (xs++ys) = hexEncode xs++hexEncode ys := by
  rw [hexEncode, List.flatMap_append, String.ofList_append]
  rfl

/-- The identifier of a workflow shows the first half of its digest. -/
theorem workflowId_inj {sha256 : List UInt8 → Vector UInt8 32} {scope scope' : Scope}
    {jobId jobId' : JobId}
    (h : scopedWorkflowId (fun bytes => (sha256 bytes).toList) scope jobId =
      scopedWorkflowId (fun bytes => (sha256 bytes).toList) scope' jobId') :
    (sha256 (workflowPreimage scope jobId)).toList.take 16 =
      (sha256 (workflowPreimage scope' jobId')).toList.take 16 := by
  have hhalf : ∀ digest : Vector UInt8 32,
      (hexEncode digest.toList).toList.take 32 = (hexEncode (digest.toList.take 16)).toList := by
    intro digest
    have hlength : (hexEncode (digest.toList.take 16)).toList.length = 32 := by
      rw [hexEncode_chars, List.length_take, Vector.length_toList]
      rfl
    conv_lhs => rw [← List.take_append_drop 16 digest.toList, hexEncode_append, String.toList_append]
    exact List.take_left' hlength
  have hchars := congrArg String.toList h
  simp only [scopedWorkflowId, String.toList_append, List.append_cancel_left_eq,
    String.toList_ofList] at hchars
  rw [hhalf, hhalf] at hchars
  exact hexEncode_inj (String.toList_inj.mp hchars)

theorem uuidString_inj {bytes others : List UInt8} (hb : bytes.length = 16) (ho : others.length = 16)
    (h : uuidString bytes = uuidString others) : bytes = others := by
  have hdash : ("-" : String).toList = ['-'] := rfl
  have hchars := congrArg String.toList h
  simp only [uuidString, String.toList_append, List.append_assoc, hdash] at hchars
  have hsize : ∀ n m, ((hexEncode ((bytes.drop n).take m)).toList.length =
      (hexEncode ((others.drop n).take m)).toList.length) := by
    intro n m
    rw [hexEncode_chars, hexEncode_chars, List.length_take, List.length_take, List.length_drop,
      List.length_drop, hb, ho]
  obtain ⟨h1,hchars⟩ := List.append_inj hchars (hsize 0 4)
  obtain ⟨h2,hchars⟩ := List.append_inj (List.append_cancel_left hchars) (hsize 4 2)
  obtain ⟨h3,hchars⟩ := List.append_inj (List.append_cancel_left hchars) (hsize 6 2)
  obtain ⟨h4,hchars⟩ := List.append_inj (List.append_cancel_left hchars) (hsize 8 2)
  have h1 := hexEncode_inj (String.toList_inj.mp h1)
  have h2 := hexEncode_inj (String.toList_inj.mp h2)
  have h3 := hexEncode_inj (String.toList_inj.mp h3)
  have h4 := hexEncode_inj (String.toList_inj.mp h4)
  have h5 := hexEncode_inj (String.toList_inj.mp (List.append_cancel_left hchars))
  have hparts : ∀ xs : List UInt8, xs = xs.take 4++((xs.drop 4).take 2++((xs.drop 6).take 2++
      ((xs.drop 8).take 2++xs.drop 10))) := by
    intro xs
    have h8 : (xs.drop 8).take 2++xs.drop 10 = xs.drop 8 := by
      rw [← List.drop_drop (i := 2) (j := 8), List.take_append_drop]
    have h6 : (xs.drop 6).take 2++xs.drop 8 = xs.drop 6 := by
      rw [← List.drop_drop (i := 2) (j := 6), List.take_append_drop]
    have h4 : (xs.drop 4).take 2++xs.drop 6 = xs.drop 4 := by
      rw [← List.drop_drop (i := 2) (j := 4), List.take_append_drop]
    rw [h8, h6, h4, List.take_append_drop]
  rw [hparts bytes, hparts others, h1, h2, h3, h4, h5]

theorem pointBytes_length (digest : Vector UInt8 32) : (pointBytes digest).length = 16 := by
  rw [pointBytes, List.length_set, List.length_set, List.length_take, Vector.length_toList]
  rfl

/-- Every name shows the scope and the item which it was made for. An identifier which is a
digest shows them as long as the digests which it is cut from differ. -/
theorem scopedNames_injective (sha256 : List UInt8 → Vector UInt8 32) :
    (∀ scope scope' jobId jobId', workflowPreimage scope jobId = workflowPreimage scope' jobId' →
      scope = scope' ∧ jobId = jobId') ∧
    Function.Injective MemoryPoint.preimage ∧ Function.Injective CacheScope.key ∧
    (∀ scope scope' jobId jobId' page page' attempt attempt',
      objectName scope jobId page attempt = objectName scope' jobId' page' attempt' →
      scope = scope' ∧ jobId = jobId' ∧ page = page' ∧ attempt = attempt') ∧
    (∀ scope scope' jobId jobId',
      scopedWorkflowId (fun bytes => (sha256 bytes).toList) scope jobId =
        scopedWorkflowId (fun bytes => (sha256 bytes).toList) scope' jobId' →
      (scope = scope' ∧ jobId = jobId') ∨
        (workflowPreimage scope jobId ≠ workflowPreimage scope' jobId' ∧
          (sha256 (workflowPreimage scope jobId)).toList.take 16 =
            (sha256 (workflowPreimage scope' jobId')).toList.take 16)) ∧
    (∀ p q : MemoryPoint, p.derive sha256 = q.derive sha256 → p = q ∨
      (p.preimage ≠ q.preimage ∧
        pointBytes (sha256 p.preimage) = pointBytes (sha256 q.preimage))) := by
  refine ⟨fun _ _ _ _ h => workflowPreimage_injective h,preimage_injective,key_injective,
    fun _ _ _ _ _ _ _ _ h => objectName_injective h,?_,?_⟩
  · intro scope scope' jobId jobId' h
    by_cases hsame : workflowPreimage scope jobId = workflowPreimage scope' jobId'
    · exact Or.inl (workflowPreimage_injective hsame)
    · exact Or.inr ⟨hsame,workflowId_inj h⟩
  · intro p q h
    by_cases hsame : p.preimage = q.preimage
    · exact Or.inl (preimage_injective hsame)
    · exact Or.inr ⟨hsame,uuidString_inj (pointBytes_length _) (pointBytes_length _) h⟩

end DocumentIntelligence.ScopedNames
