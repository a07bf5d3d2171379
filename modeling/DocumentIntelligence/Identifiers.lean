import DocumentIntelligence.Json

/-!
# Validated identifiers

Every identifier of the domain is a string which its constructor accepted.
The acceptance is a field of the value, so later code never meets a malformed
identifier. All accepted characters are ASCII, where bytes and characters
agree; lengths are nevertheless the byte lengths which the constructors check.
-/

set_option autoImplicit false

namespace DocumentIntelligence.Identifiers

inductive Error where
  | invalidTenantId
  | invalidProductId
  | invalidJobId
  | invalidUploadId
  | invalidWebhookSubscriptionId
  | invalidIdempotencyKey
  | invalidRequestDigest
  | invalidDocumentId
  | invalidDocumentVersion
  deriving DecidableEq, Repr

def byteLength (cs : List Char) : ℕ := (cs.map Char.utf8Size).sum

def stripPrefix (value start : String) : Option (List Char) :=
  if start.toList.isPrefixOf value.toList then some (value.toList.drop start.toList.length)
  else none

/-- The suffix rule shared by all prefixed identifiers. -/
def validSuffix (suffix : List Char) : Bool :=
  !suffix.isEmpty && decide (byteLength suffix ≤ 64) &&
    suffix.all fun c => c.isAlphanum || c == '_'

def validatedId (value start : String) : Bool :=
  validSuffix ((stripPrefix value start).getD [])

def isLowerHex (c : Char) : Bool := c.isDigit || ('a' ≤ c && c ≤ 'f')

def isCanonicalSha256 (value : String) : Bool :=
  let digest := (stripPrefix value "sha256:").getD []
  byteLength digest == 64 && digest.all isLowerHex

def hexEncode (value : List UInt8) : String :=
  String.ofList (value.flatMap fun (byte : UInt8) =>
    [Json.hexDigit (byte >>> 4).toNat,Json.hexDigit (byte &&& 15).toNat])

def sha256Digest (sha256 : List UInt8 → Vector UInt8 32) (bytes : List UInt8) : String :=
  "sha256:" ++ hexEncode (sha256 bytes).toList

def isAsciiGraphic (c : Char) : Bool := '!' ≤ c && c ≤ '~'

structure TenantId where
  asStr : String
  valid : validatedId asStr "ten_" = true
  deriving DecidableEq, Repr

def validProductId (value : String) : Bool :=
  let validLength := value.toList != [] && decide (value.utf8ByteSize ≤ 63)
  let validEdges := match value.toList.head?, value.toList.getLast? with
    | some first, some last => first.isAlphanum && last.isAlphanum
    | _, _ => false
  let validCharacters := value.toList.all fun c => c.isLower || c.isDigit || c == '-'
  validLength && validEdges && validCharacters

structure ProductId where
  asStr : String
  valid : validProductId asStr = true
  deriving DecidableEq, Repr

structure JobId where
  asStr : String
  valid : validatedId asStr "job_" = true
  deriving DecidableEq, Repr

structure UploadId where
  asStr : String
  valid : validatedId asStr "upl_" = true
  deriving DecidableEq, Repr

structure WebhookSubscriptionId where
  asStr : String
  valid : validatedId asStr "whs_" = true
  deriving DecidableEq, Repr

def validIdempotencyKey (value : String) : Bool :=
  value.toList != [] && decide (value.utf8ByteSize ≤ 128) && value.toList.all isAsciiGraphic

structure IdempotencyKey where
  asStr : String
  valid : validIdempotencyKey asStr = true
  deriving DecidableEq, Repr

structure RequestDigest where
  asStr : String
  valid : isCanonicalSha256 asStr = true
  deriving DecidableEq, Repr

structure DocumentId where
  asStr : String
  valid : validatedId asStr "doc_" = true
  deriving DecidableEq, Repr

structure DocumentVersion where
  asStr : String
  valid : isCanonicalSha256 asStr = true
  deriving DecidableEq, Repr

def TenantId.new (value : String) : Except Error TenantId :=
  if h : validatedId value "ten_" then .ok ⟨value,h⟩ else .error .invalidTenantId

def ProductId.new (value : String) : Except Error ProductId :=
  if h : validProductId value then .ok ⟨value,h⟩ else .error .invalidProductId

def JobId.new (value : String) : Except Error JobId :=
  if h : validatedId value "job_" then .ok ⟨value,h⟩ else .error .invalidJobId

def UploadId.new (value : String) : Except Error UploadId :=
  if h : validatedId value "upl_" then .ok ⟨value,h⟩ else .error .invalidUploadId

def WebhookSubscriptionId.new (value : String) : Except Error WebhookSubscriptionId :=
  if h : validatedId value "whs_" then .ok ⟨value,h⟩
  else .error .invalidWebhookSubscriptionId

def IdempotencyKey.new (value : String) : Except Error IdempotencyKey :=
  if h : validIdempotencyKey value then .ok ⟨value,h⟩ else .error .invalidIdempotencyKey

def RequestDigest.new (value : String) : Except Error RequestDigest :=
  if h : isCanonicalSha256 value then .ok ⟨value,h⟩ else .error .invalidRequestDigest

def DocumentId.new (value : String) : Except Error DocumentId :=
  if h : validatedId value "doc_" then .ok ⟨value,h⟩ else .error .invalidDocumentId

def DocumentVersion.new (value : String) : Except Error DocumentVersion :=
  if h : isCanonicalSha256 value then .ok ⟨value,h⟩ else .error .invalidDocumentVersion

/-- The trusted scope of a request. Every row of the store belongs to one. -/
structure Scope where
  productId : ProductId
  tenantId : TenantId
  deriving DecidableEq, Repr

instance : Inhabited TenantId := ⟨⟨"ten_a",by decide⟩⟩
instance : Inhabited ProductId := ⟨⟨"docs",by decide⟩⟩
instance : Inhabited JobId := ⟨⟨"job_a",by decide⟩⟩
instance : Inhabited UploadId := ⟨⟨"upl_a",by decide⟩⟩
instance : Inhabited IdempotencyKey := ⟨⟨"key-a",by decide⟩⟩
instance : Inhabited RequestDigest :=
  ⟨⟨"sha256:0000000000000000000000000000000000000000000000000000000000000000",by decide⟩⟩
instance : Inhabited Scope := ⟨⟨default,default⟩⟩

theorem stripPrefix_append (start : String) (rest : List Char) :
    stripPrefix (String.ofList (start.toList++rest)) start = some rest := by
  simp [stripPrefix]

theorem hexDigit_lower {n : ℕ} (h : n < 16) : isLowerHex (Json.hexDigit n) = true := by
  have hall : ∀ k < 16, isLowerHex (Json.hexDigit k) = true := by decide
  exact hall n h

theorem hexDigit_size {n : ℕ} (h : n < 16) : (Json.hexDigit n).utf8Size = 1 := by
  have hall : ∀ k < 16, (Json.hexDigit k).utf8Size = 1 := by decide
  exact hall n h

theorem nibbles (byte : UInt8) : (byte >>> 4).toNat < 16 ∧ (byte &&& 15).toNat < 16 := by
  constructor
  · rw [UInt8.toNat_shiftRight, show (4:UInt8).toNat % 8 = 4 from rfl, Nat.shiftRight_eq_div_pow]
    have hbyte := byte.toNat_lt
    omega
  · rw [UInt8.toNat_and]
    exact Nat.lt_of_le_of_lt Nat.and_le_right (by decide)

theorem hexEncode_canonical (bytes : List UInt8) :
    byteLength (hexEncode bytes).toList = 2*bytes.length ∧
      (hexEncode bytes).toList.all isLowerHex = true := by
  unfold hexEncode
  rw [String.toList_ofList]
  induction bytes with
  | nil => exact ⟨rfl,rfl⟩
  | cons byte bytes ih =>
    obtain ⟨hhigh,hlow⟩ := nibbles byte
    rw [List.flatMap_cons, List.all_append, ih.2]
    constructor
    · simp only [byteLength, List.map_append, List.sum_append, List.map_cons, List.map_nil,
        List.sum_cons, List.sum_nil, hexDigit_size hhigh, hexDigit_size hlow, List.length_cons]
      have hrest := ih.1
      unfold byteLength at hrest
      omega
    · simp only [List.all_cons, List.all_nil, hexDigit_lower hhigh, hexDigit_lower hlow, Bool.and_true]

theorem sha256Digest_valid (sha256 : List UInt8 → Vector UInt8 32) (bytes : List UInt8) :
    isCanonicalSha256 (sha256Digest sha256 bytes) = true := by
  have hvalue : sha256Digest sha256 bytes =
      String.ofList ("sha256:".toList++(hexEncode (sha256 bytes).toList).toList) := by
    rw [sha256Digest, String.ofList_append, String.ofList_toList, String.ofList_toList]
  obtain ⟨hlength,hall⟩ := hexEncode_canonical (sha256 bytes).toList
  rw [Vector.length_toList] at hlength
  rw [isCanonicalSha256, hvalue, stripPrefix_append, Option.getD_some, hlength, hall]
  rfl

theorem stripPrefix_some {value start : String} {rest : List Char}
    (h : stripPrefix value start = some rest) : value.toList = start.toList++rest := by
  unfold stripPrefix at h
  split at h
  · rename_i hprefix
    obtain ⟨tail,htail⟩ := List.isPrefixOf_iff_prefix.mp hprefix
    rw [← htail, List.drop_left, Option.some.injEq] at h
    rw [← htail, h]
  · cases h

/-- An accepted identifier is its prefix followed by an accepted suffix. -/
theorem validatedId_split {value start : String} (h : validatedId value start = true) :
    ∃ suffix, stripPrefix value start = some suffix ∧ validSuffix suffix = true ∧
      value.toList = start.toList++suffix := by
  unfold validatedId at h
  cases hs : stripPrefix value start with
  | none => simp [hs, validSuffix] at h
  | some suffix => exact ⟨suffix,rfl,by simpa [hs] using h,stripPrefix_some hs⟩

/-- A suffix accepted under one prefix is accepted under any other. -/
theorem validatedId_reprefix (start : String) {suffix : List Char}
    (h : validSuffix suffix = true) :
    validatedId (String.ofList (start.toList++suffix)) start = true := by
  rw [validatedId, stripPrefix_append]
  exact h

theorem alphanum_plain {c : Char} (h : c.isAlphanum = true) : Json.plain c = true := by
  have hne : ∀ d : Char, d.isAlphanum = false → c ≠ d := by
    rintro d hd rfl
    rw [h] at hd
    cases hd
  have hlow : 32 ≤ c.toNat := by
    simp only [Char.isAlphanum, Char.isAlpha, Char.isUpper, Char.isLower, Char.isDigit,
      Bool.or_eq_true, Bool.and_eq_true, decide_eq_true_eq, UInt32.le_iff_toNat_le] at h
    have hn : c.toNat = c.val.toNat := rfl
    rw [hn]
    rcases h with (⟨h,_⟩ | ⟨h,_⟩) | ⟨h,_⟩ <;> exact le_trans (by decide) h
  simp only [Json.plain, Bool.and_eq_true, bne_iff_ne, decide_eq_true_eq]
  exact ⟨⟨hne _ (by decide),hne _ (by decide)⟩,hlow⟩

/-- An accepted identifier is written into JSON as it is, and it is short. -/
theorem validatedId_json {value start : String} (h : validatedId value start = true)
    (hstart : start.toList.all Json.plain = true) :
    (∀ c ∈ value.toList, Json.plain c = true) ∧ value.utf8ByteSize ≤ start.utf8ByteSize+64 := by
  obtain ⟨suffix,_,hsuffix,hvalue⟩ := validatedId_split h
  simp only [validSuffix, Bool.and_eq_true, decide_eq_true_eq, List.all_eq_true,
    Bool.or_eq_true, beq_iff_eq] at hsuffix
  constructor
  · intro c hc
    rw [hvalue] at hc
    rcases List.mem_append.mp hc with hm | hm
    · exact List.all_eq_true.mp hstart c hm
    · rcases hsuffix.2 c hm with halpha | rfl
      · exact alphanum_plain halpha
      · decide
  · rw [Json.utf8ByteSize_eq_sum value, Json.utf8ByteSize_eq_sum start, hvalue, List.map_append,
      List.sum_append]
    exact Nat.add_le_add_left hsuffix.1.2 _

theorem productId_json (productId : ProductId) :
    (∀ c ∈ productId.asStr.toList, Json.plain c = true) ∧ productId.asStr.utf8ByteSize ≤ 63 := by
  have h := productId.valid
  simp only [validProductId, Bool.and_eq_true, decide_eq_true_eq, List.all_eq_true,
    Bool.or_eq_true, beq_iff_eq] at h
  constructor
  · intro c hc
    rcases h.2 c hc with (hlower | hdigit) | rfl
    · exact alphanum_plain (by simp [Char.isAlphanum, Char.isAlpha, hlower])
    · exact alphanum_plain (by simp [Char.isAlphanum, hdigit])
    · decide
  · exact h.1.1.2

end DocumentIntelligence.Identifiers
