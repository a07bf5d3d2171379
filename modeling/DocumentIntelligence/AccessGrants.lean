import DocumentIntelligence.WorkloadIdentity

/-!
# Access grants

A product signs its key, its tenant, the subject, the time, the tool and the
digest of the arguments of a tool call. The digest and the text of a number are
parameters.
-/

set_option autoImplicit false

namespace DocumentIntelligence.AccessGrants
open Identifiers (ProductId TenantId isAsciiGraphic sha256Digest hexEncode)
open RequestSigning

def accessGrantKeyIdHeader : String := "x-ocr-key-id"
def accessGrantTenantHeader : String := "x-ocr-tenant-id"
def accessGrantSubjectHeader : String := "x-ocr-subject"
def accessGrantTimestampHeader : String := "x-ocr-timestamp"
def accessGrantSignatureHeader : String := "x-ocr-grant-signature"

/-- `serde_json::Value`, with the members of an object under different keys. -/
inductive Value (N : Type) where
  | null
  | bool (b : Bool)
  | number (n : N)
  | string (s : String)
  | array (values : List (Value N))
  | object (members : List (String × Value N))

def validSubject (value : String) : Bool :=
  !value.toList.isEmpty && decide (value.utf8ByteSize ≤ 256) && value.toList.all isAsciiGraphic

def validToolName (value : String) : Bool :=
  !value.toList.isEmpty && decide (value.utf8ByteSize ≤ 64) &&
    value.toList.all fun c => c.isLower || c.isDigit || c == '_'

structure OcrAccessGrant where
  productId : ProductId
  tenantId : TenantId
  subject : String
  deriving DecidableEq

/-! ### Digests -/

theorem hexDigit_inj {n k : ℕ} (hn : n < 16) (hk : k < 16)
    (h : Json.hexDigit n = Json.hexDigit k) : n = k := by
  have hall : ∀ a < 16, ∀ b < 16, Json.hexDigit a = Json.hexDigit b → a = b := by decide
  exact hall n hn k hk h

theorem nibbles_inj {a b : UInt8} (hhigh : (a >>> 4).toNat = (b >>> 4).toNat)
    (hlow : (a &&& 15).toNat = (b &&& 15).toNat) : a = b := by
  have hshift : ∀ c : UInt8, (c >>> 4).toNat = c.toNat/16 := by
    intro c
    rw [UInt8.toNat_shiftRight, show (4:UInt8).toNat % 8 = 4 from rfl, Nat.shiftRight_eq_div_pow]
  have hmask : ∀ c : UInt8, (c &&& 15).toNat = c.toNat%16 := by
    intro c
    rw [UInt8.toNat_and]
    exact Nat.and_two_pow_sub_one_eq_mod c.toNat 4
  rw [hshift, hshift] at hhigh
  rw [hmask, hmask] at hlow
  apply UInt8.toNat_inj.mp
  omega

theorem hexEncode_inj {xs ys : List UInt8} (h : hexEncode xs = hexEncode ys) : xs = ys := by
  unfold hexEncode at h
  have hlist := congrArg String.toList h
  rw [String.toList_ofList, String.toList_ofList] at hlist
  clear h
  induction xs generalizing ys with
  | nil =>
    cases ys with
    | nil => rfl
    | cons y ys => simp at hlist
  | cons x xs ih =>
    cases ys with
    | nil => simp at hlist
    | cons y ys =>
      simp only [List.flatMap_cons, List.cons_append, List.nil_append, List.cons.injEq] at hlist
      have hx := Identifiers.nibbles x
      have hy := Identifiers.nibbles y
      rw [nibbles_inj (hexDigit_inj hx.1 hy.1 hlist.1) (hexDigit_inj hx.2 hy.2 hlist.2.1),
        ih hlist.2.2]

theorem digest_oneLine (bytes : List UInt8) : OneLine ("sha256:"++hexEncode bytes) := by
  intro hmem
  rw [String.toList_append, List.mem_append] at hmem
  rcases hmem with hmem | hmem
  · exact absurd hmem (by decide)
  · have hlower := (Identifiers.hexEncode_canonical bytes).2
    rw [List.all_eq_true] at hlower
    exact absurd (hlower _ hmem) (by decide)

section Grants
variable {N : Type} (numberText : N → String)

mutual
def canonicalJson : Value N → String
  | .null => "null"
  | .bool true => "true"
  | .bool false => "false"
  | .number n => numberText n
  | .string s => Json.string s
  | .array values => Json.array (canonicalItems values)
  | .object members =>
    Json.object (((canonicalMembers members).mergeSort fun a b => !decide (b.1 < a.1)).map
      fun (key,text) => Json.member key text)

def canonicalItems : List (Value N) → List String
  | [] => []
  | value::values => canonicalJson value::canonicalItems values

/-- The keys of an object with the texts of their values. -/
def canonicalMembers : List (String × Value N) → List (String × String)
  | [] => []
  | (key,value)::members => (key,canonicalJson value)::canonicalMembers members
end

variable (sha256 : List UInt8 → Vector UInt8 32)

def canonicalMessage (keyId tenantId subject : String) (timestamp : ℤ) (tool : String)
    (arguments : Value N) : Except ConfigurationError String :=
  if !validKeyId keyId || !validSubject subject || !validToolName tool then .error .invalidKeyId
  else match TenantId.new tenantId with
    | .error _ => .error .invalidKeyId
    | .ok _ =>
      let argumentsDigest := sha256Digest sha256 (asBytes (canonicalJson numberText arguments))
      .ok (keyId++"\n"++tenantId++"\n"++subject++"\n"++toString timestamp++"\n"++tool++"\n"++
        argumentsDigest)

/-- The time is in nanoseconds since the epoch. -/
def verify (hmacSha256 : List UInt8 → List UInt8 → List UInt8) (keyring : Keyring)
    (headers : HeaderMap) (tool : String) (arguments : Value N) (now : ℤ) :
    Option OcrAccessGrant := do
  let keyId ← headerValue headers accessGrantKeyIdHeader
  let key ← keyring.get keyId
  let tenantId ← (TenantId.new (← headerValue headers accessGrantTenantHeader)).toOption
  let subject ← headerValue headers accessGrantSubjectHeader
  guard (validSubject subject = true ∧ validToolName tool = true)
  let timestamp ← parseI64 (← headerValue headers accessGrantTimestampHeader)
  let timestamp ← fromUnixTimestamp timestamp
  guard ((now-timestamp*10^9).natAbs ≤ keyring.maximumClockSkew)
  let suppliedSignature ← decodeHex (← headerValue headers accessGrantSignatureHeader)
  let message ← (canonicalMessage numberText sha256 keyId tenantId.asStr subject timestamp tool
    arguments).toOption
  guard (hmacSha256 key.secret (asBytes message) = suppliedSignature)
  some ⟨key.productId,tenantId,subject⟩

/-! ### What is signed -/

/-- The fields of a grant. -/
structure Grant where
  keyId : String
  tenantId : TenantId
  subject : String
  timestamp : ℤ
  tool : String
  argumentsDigest : Vector UInt8 32
  deriving DecidableEq

def grant (headers : HeaderMap) (tool : String) (arguments : Value N) : Option Grant := do
  let keyId ← headerValue headers accessGrantKeyIdHeader
  let tenantId ← (TenantId.new (← headerValue headers accessGrantTenantHeader)).toOption
  let subject ← headerValue headers accessGrantSubjectHeader
  let timestamp ← parseI64 (← headerValue headers accessGrantTimestampHeader)
  some ⟨keyId,tenantId,subject,timestamp,tool,
    sha256 (asBytes (canonicalJson numberText arguments))⟩

def Grant.fieldLines (g : Grant) : List String :=
  [g.keyId,g.tenantId.asStr,g.subject,toString g.timestamp,g.tool,
    "sha256:"++hexEncode g.argumentsDigest.toList]

/-- An accepted tool call was signed over its grant with the key which it names. -/
theorem verify_some {hmacSha256 : List UInt8 → List UInt8 → List UInt8} {keyring : Keyring}
    {headers : HeaderMap} {tool : String} {arguments : Value N} {now : ℤ}
    {identity : OcrAccessGrant}
    (h : verify numberText sha256 hmacSha256 keyring headers tool arguments now = some identity) :
    ∃ g key, grant numberText sha256 headers tool arguments = some g ∧
      keyring.get g.keyId = some key ∧
      (headerValue headers accessGrantSignatureHeader).bind decodeHex =
        some (hmacSha256 key.secret (asBytes (lines g.fieldLines))) ∧
      canonicalMessage numberText sha256 g.keyId g.tenantId.asStr g.subject g.timestamp g.tool
        arguments = .ok (lines g.fieldLines) ∧ (∀ line ∈ g.fieldLines, OneLine line) := by
  simp only [verify, Option.bind_eq_bind, Option.bind_eq_some_iff] at h
  obtain ⟨keyId,hkeyId,key,hkey,tenantText,htenant,tenantId,hid,subject,hsubject,_,hvalid,
    timestampText,htimestamp,parsed,hparsed,timestamp,hunix,_,_,signatureText,hsignature,signature,
    hdecoded,message,hmessage,_,hmac,_⟩ := h
  have hsame : timestamp = parsed := by
    rw [fromUnixTimestamp] at hunix
    by_cases hrange : -377705116800 ≤ parsed ∧ parsed ≤ 253402300799
    · rw [if_pos hrange, Option.some.injEq] at hunix
      exact hunix.symm
    · rw [if_neg hrange] at hunix
      exact absurd hunix (by simp)
  subst hsame
  have hchecked := (Option.guard_eq_some' _).mp hvalid
  have hkeyValid := Keyring.get_valid hkey
  have htenantNew : TenantId.new tenantId.asStr = .ok tenantId := by
    rw [TenantId.new, dif_pos tenantId.valid]
  have hlines : canonicalMessage numberText sha256 keyId tenantId.asStr subject timestamp tool
      arguments = .ok (lines (Grant.fieldLines ⟨keyId,tenantId,subject,timestamp,tool,
        sha256 (asBytes (canonicalJson numberText arguments))⟩)) := by
    rw [canonicalMessage, hkeyValid, hchecked.1, hchecked.2, htenantNew]
    simp only [Grant.fieldLines, lines, sha256Digest, String.append_assoc]
    rfl
  refine ⟨⟨keyId,tenantId,subject,timestamp,tool,_⟩,key,?_,hkey,?_,hlines,?_⟩
  · simp only [grant, hkeyId, htenant, hid, hsubject, htimestamp, hparsed, Option.bind_eq_bind,
      Option.bind_some]
  · have hcode := (Option.guard_eq_some' _).mp hmac
    rw [hlines] at hmessage
    rw [hsignature, Option.bind_some, hdecoded, ← hcode, ← Option.some.inj hmessage]
  · intro line hline
    simp only [Grant.fieldLines, List.mem_cons, List.not_mem_nil, or_false] at hline
    rcases hline with rfl | rfl | rfl | rfl | rfl | rfl
    · exact keyId_oneLine hkeyValid
    · exact tenantId_oneLine tenantId
    · rw [validSubject, Bool.and_eq_true] at hchecked
      exact oneLine_of_all (by decide) hchecked.1.2
    · exact number_oneLine timestamp
    · have htool := hchecked.2
      rw [validToolName, Bool.and_eq_true] at htool
      exact oneLine_of_all (by decide) htool.2
    · exact digest_oneLine _

theorem fieldLines_inj {g f : Grant} (h : g.fieldLines = f.fieldLines) : g = f := by
  obtain ⟨keyId,⟨tenant,_⟩,subject,timestamp,tool,digest⟩ := g
  obtain ⟨keyId',⟨tenant',_⟩,subject',timestamp',tool',digest'⟩ := f
  simp only [Grant.fieldLines, List.cons.injEq, and_true] at h
  obtain ⟨rfl,rfl,rfl,htimestamp,rfl,hdigest⟩ := h
  rw [String.append_right_inj] at hdigest
  rw [number_inj htimestamp, Vector.toList_inj.mp (hexEncode_inj hdigest)]

end Grants

/-! ### Requests of both protocols -/

/-- What a signature covers. -/
inductive Fields where
  | workload (envelope : WorkloadIdentity.Envelope)
  | toolCall (grant : Grant)
  deriving DecidableEq

def Fields.fieldLines : Fields → List String
  | .workload e => e.fieldLines
  | .toolCall g => g.fieldLines

/-- A request as it reaches the verifier of its protocol. -/
inductive SignedRequest (N : Type) where
  | workload (keyring : Keyring) (headers : HeaderMap) (method : WorkloadIdentity.Method)
      (uri : WorkloadIdentity.Uri) (now : ℤ)
  | toolCall (keyring : Keyring) (headers : HeaderMap) (tool : String) (arguments : Value N)
      (now : ℤ)

section Requests
variable {N : Type} (numberText : N → String) (sha256 : List UInt8 → Vector UInt8 32)
  (hmacSha256 : List UInt8 → List UInt8 → List UInt8)

def SignedRequest.Accepted : SignedRequest N → Prop
  | .workload keyring headers method uri now =>
    (WorkloadIdentity.verify hmacSha256 keyring headers method uri now).isSome = true
  | .toolCall keyring headers tool arguments now =>
    (verify numberText sha256 hmacSha256 keyring headers tool arguments now).isSome = true

instance (r : SignedRequest N) : Decidable (r.Accepted numberText sha256 hmacSha256) :=
  match r with
  | .workload _ _ _ _ _ => inferInstanceAs (Decidable (_ = true))
  | .toolCall _ _ _ _ _ => inferInstanceAs (Decidable (_ = true))

def SignedRequest.fields : SignedRequest N → Option Fields
  | .workload _ headers method uri _ =>
    (WorkloadIdentity.envelope headers method uri).map .workload
  | .toolCall _ headers tool arguments _ =>
    (grant numberText sha256 headers tool arguments).map .toolCall

/-- The text whose code is compared with the signature. -/
def SignedRequest.message : SignedRequest N → Option String
  | .workload _ headers method uri _ =>
    (WorkloadIdentity.envelope headers method uri).map fun e =>
      WorkloadIdentity.canonicalMessage e.keyId e.tenantId.asStr e.timestamp method uri
  | .toolCall _ headers tool arguments _ =>
    (grant numberText sha256 headers tool arguments).bind fun g =>
      (canonicalMessage numberText sha256 g.keyId g.tenantId.asStr g.subject g.timestamp tool
        arguments).toOption

def SignedRequest.signature : SignedRequest N → Option (List UInt8)
  | .workload _ headers _ _ _ =>
    (headerValue headers WorkloadIdentity.signatureHeader).bind decodeHex
  | .toolCall _ headers _ _ _ =>
    (headerValue headers accessGrantSignatureHeader).bind decodeHex

/-- An accepted request has fields, its message are their lines, and its signature is
the code of the message under some key. -/
theorem accepted_fields {r : SignedRequest N} (h : r.Accepted numberText sha256 hmacSha256) :
    ∃ f secret, r.fields numberText sha256 = some f ∧
      r.message numberText sha256 = some (lines f.fieldLines) ∧
      r.signature = some (hmacSha256 secret (asBytes (lines f.fieldLines))) ∧
      (∀ line ∈ f.fieldLines, OneLine line) := by
  cases r with
  | workload keyring headers method uri now =>
    obtain ⟨identity,hverify⟩ := Option.isSome_iff_exists.mp h
    obtain ⟨e,key,he,_,hsignature,hlines⟩ := WorkloadIdentity.verify_some hverify
    have htarget : e.target = uri.signedTarget ∧ e.method = method := by
      simp only [WorkloadIdentity.envelope, Option.bind_eq_bind, Option.bind_eq_some_iff,
        Option.some.injEq] at he
      obtain ⟨_,_,_,_,_,_,_,_,_,_,rfl⟩ := he
      exact ⟨rfl,rfl⟩
    refine ⟨.workload e,key.secret,?_,?_,hsignature,hlines⟩
    · rw [SignedRequest.fields, he, Option.map_some]
    · rw [SignedRequest.message, he, Option.map_some, ← htarget.2,
        WorkloadIdentity.canonicalMessage_lines e uri htarget.1]
      rfl
  | toolCall keyring headers tool arguments now =>
    obtain ⟨identity,hverify⟩ := Option.isSome_iff_exists.mp h
    obtain ⟨g,key,hg,_,hsignature,hmessage,hlines⟩ := verify_some numberText sha256 hverify
    have htool : g.tool = tool := by
      simp only [grant, Option.bind_eq_bind, Option.bind_eq_some_iff, Option.some.injEq] at hg
      obtain ⟨_,_,_,_,_,_,_,_,_,_,_,_,rfl⟩ := hg
      rfl
    refine ⟨.toolCall g,key.secret,?_,?_,hsignature,hlines⟩
    · rw [SignedRequest.fields, hg, Option.map_some]
    · rw [SignedRequest.message, hg, Option.bind_some, ← htool, hmessage]
      rfl

theorem Fields.fieldLines_ne_nil (f : Fields) : f.fieldLines ≠ [] := by
  cases f with
  | workload e => exact List.cons_ne_nil _ _
  | toolCall g => exact List.cons_ne_nil _ _

/-- Five lines are an envelope and six are a grant. -/
theorem Fields.fieldLines_inj {f g : Fields} (h : f.fieldLines = g.fieldLines) : f = g := by
  cases f with
  | workload e =>
    cases g with
    | workload e' => exact congrArg Fields.workload (WorkloadIdentity.fieldLines_inj h)
    | toolCall g' => exact absurd (congrArg List.length h) (by
        simp [Fields.fieldLines, WorkloadIdentity.Envelope.fieldLines, Grant.fieldLines])
  | toolCall f' =>
    cases g with
    | workload e' => exact absurd (congrArg List.length h) (by
        simp [Fields.fieldLines, WorkloadIdentity.Envelope.fieldLines, Grant.fieldLines])
    | toolCall g' => exact congrArg Fields.toolCall (AccessGrants.fieldLines_inj h)

/-- Accepted requests with one message have the same fields, and requests of
different fields which one signature is accepted for are a collision of the code. -/
theorem message_determines (a b : SignedRequest N) (ha : a.Accepted numberText sha256 hmacSha256)
    (hb : b.Accepted numberText sha256 hmacSha256) :
    (a.message numberText sha256 = b.message numberText sha256 →
      a.fields numberText sha256 = b.fields numberText sha256) ∧
    (a.signature = b.signature → a.fields numberText sha256 = b.fields numberText sha256 ∨
      ∃ secret other m n, a.message numberText sha256 = some m ∧
        b.message numberText sha256 = some n ∧ m ≠ n ∧
        hmacSha256 secret (asBytes m) = hmacSha256 other (asBytes n)) := by
  obtain ⟨f,secret,hf,hm,hs,hlines⟩ := accepted_fields numberText sha256 hmacSha256 ha
  obtain ⟨g,other,hg,hn,ht,hothers⟩ := accepted_fields numberText sha256 hmacSha256 hb
  have hsame : lines f.fieldLines = lines g.fieldLines → f = g := fun h =>
    Fields.fieldLines_inj (lines_inj hlines hothers f.fieldLines_ne_nil g.fieldLines_ne_nil h)
  constructor
  · intro h
    rw [hm, hn, Option.some.injEq] at h
    rw [hf, hg, hsame h]
  · intro h
    rw [hs, ht, Option.some.injEq] at h
    by_cases heq : lines f.fieldLines = lines g.fieldLines
    · exact Or.inl (by rw [hf, hg, hsame heq])
    · exact Or.inr ⟨secret,other,_,_,hm,hn,heq,h⟩

end Requests

/-! ### A request and a tool call of one product -/

section Kora

def koraKey : SigningKey := ⟨⟨"kora",by decide⟩,List.replicate 32 107⟩

def koraKeyring : Keyring := ⟨[("kora-1",koraKey)],60*10^9,by decide⟩

def jobsMessage : String := "kora-1\nten_a\n1700000000\nGET\n/v1/jobs"

def jobsSignature : String := "cafe097657d7f887b0a86eba6c3b79fc4cd6adf2cf52b4fd7beb17e70f2f39b9"

def statusSignature : String := "a585de2b0ac39ddeaa745844827f31adac9d4dc70f79f83a048f1eb3b5c2ef16"

def statusDigest : Vector UInt8 32 := #v[116,216,48,99,39,120,47,226,125,254,42,189,77,166,149,12,
  62,195,106,244,78,145,113,207,241,141,43,136,221,7,89,235]

/-- The codes of the two messages of this section under the key of the product. -/
def koraHmac (_ message : List UInt8) : List UInt8 :=
  if message = asBytes jobsMessage then hexPairs jobsSignature.toList
  else hexPairs statusSignature.toList

def koraHeaders : HeaderMap := [("x-ocr-key-id",asBytes "kora-1"),
  ("x-ocr-tenant-id",asBytes "ten_a"),("x-ocr-subject",asBytes "user-7"),
  ("x-ocr-timestamp",asBytes "1700000000"),("x-ocr-signature",asBytes jobsSignature),
  ("x-ocr-grant-signature",asBytes statusSignature)]

def getMethod : WorkloadIdentity.Method := ⟨"GET",by decide⟩

def jobsPath : WorkloadIdentity.PathAndQuery := ⟨"/v1/jobs",by decide⟩

/-- `/v1/jobs` and `https://ocr.internal/v1/jobs` -/
def jobsUri : WorkloadIdentity.Uri := ⟨none,none,jobsPath⟩
def absoluteUri : WorkloadIdentity.Uri := ⟨some "https",some "ocr.internal",jobsPath⟩

def getRequest (uri : WorkloadIdentity.Uri) : SignedRequest ℕ :=
  .workload koraKeyring koraHeaders getMethod uri (1700000000*10^9)

def statusRequest : SignedRequest ℕ := .toolCall koraKeyring koraHeaders "get_document_status"
  (.object [("job_id",.string "job_a")]) (1700000000*10^9)

/-- The target with a scheme and an authority is signed as the target without them. -/
theorem authority_not_signed :
    (getRequest jobsUri).Accepted toString (fun _ => statusDigest) koraHmac ∧
      (getRequest absoluteUri).Accepted toString
        (fun _ => statusDigest) koraHmac ∧
      (getRequest jobsUri).message toString (fun _ => statusDigest) =
        (getRequest absoluteUri).message toString (fun _ => statusDigest) ∧
      jobsUri ≠ absoluteUri := by
  refine ⟨?_,?_,?_,by decide⟩
  · decide +kernel
  · decide +kernel
  · decide +kernel

/-- The two requests of the product keep their signatures apart. -/
theorem jobs_and_status :
    ((getRequest jobsUri).message toString (fun _ => statusDigest) =
        statusRequest.message toString (fun _ => statusDigest) →
      (getRequest jobsUri).fields toString (fun _ => statusDigest) =
        statusRequest.fields toString (fun _ => statusDigest)) ∧
    ((getRequest jobsUri).signature = statusRequest.signature →
      (getRequest jobsUri).fields toString (fun _ => statusDigest) =
        statusRequest.fields toString (fun _ => statusDigest) ∨
      ∃ secret other m n,
        (getRequest jobsUri).message toString (fun _ => statusDigest) = some m ∧
        statusRequest.message toString (fun _ => statusDigest) = some n ∧ m ≠ n ∧
        koraHmac secret (asBytes m) = koraHmac other (asBytes n)) :=
  message_determines toString (fun _ => statusDigest) koraHmac (getRequest jobsUri) statusRequest
    (by decide +kernel) (by decide +kernel)

end Kora

end DocumentIntelligence.AccessGrants
