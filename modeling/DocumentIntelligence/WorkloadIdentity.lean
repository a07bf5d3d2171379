import DocumentIntelligence.RequestSigning

/-!
# Workload envelopes

A product signs its key, its tenant, the time, the method and the path and query
of a request. Methods and targets are those which the HTTP library has parsed.
-/

set_option autoImplicit false

namespace DocumentIntelligence.WorkloadIdentity
open Identifiers (ProductId TenantId)
open RequestSigning

def keyIdHeader : String := "x-ocr-key-id"
def tenantIdHeader : String := "x-ocr-tenant-id"
def timestampHeader : String := "x-ocr-timestamp"
def signatureHeader : String := "x-ocr-signature"

def isTokenChar (c : Char) : Bool := c.isAlphanum || "!#$%&'*+-.^_`|~".toList.contains c

/-- `http::Method` -/
structure Method where
  asStr : String
  valid : (!asStr.toList.isEmpty && asStr.toList.all isTokenChar) = true
  deriving DecidableEq

/-- `http::uri::PathAndQuery`, without control characters and blanks. -/
structure PathAndQuery where
  asStr : String
  valid : (!asStr.toList.isEmpty &&
    asStr.toList.all fun c => decide (32 < c.toNat) && c.toNat != 127) = true
  deriving DecidableEq

/-- `http::Uri` -/
structure Uri where
  scheme : Option String
  authority : Option String
  path : PathAndQuery
  deriving DecidableEq

/-- A target which is an authority only has no path. -/
def Uri.pathAndQuery (uri : Uri) : Option PathAndQuery :=
  if uri.scheme.isSome || uri.authority.isNone then some uri.path else none

/-- The part of the target which is signed. -/
def Uri.signedTarget (uri : Uri) : String := uri.pathAndQuery.elim "/" (·.asStr)

def canonicalMessage (keyId tenantId : String) (timestamp : ℤ) (method : Method) (uri : Uri) :
    String :=
  keyId++"\n"++tenantId++"\n"++toString timestamp++"\n"++method.asStr++"\n"++uri.signedTarget

structure TrustedIdentity where
  productId : ProductId
  tenantId : TenantId
  deriving DecidableEq

/-- The time is in nanoseconds since the epoch. -/
def verify (hmacSha256 : List UInt8 → List UInt8 → List UInt8) (keyring : Keyring)
    (headers : HeaderMap) (method : Method) (uri : Uri) (now : ℤ) : Option TrustedIdentity := do
  let keyId ← headerValue headers keyIdHeader
  let key ← keyring.get keyId
  let tenantId ← (TenantId.new (← headerValue headers tenantIdHeader)).toOption
  let timestamp ← parseI64 (← headerValue headers timestampHeader)
  let timestamp ← fromUnixTimestamp timestamp
  guard ((now-timestamp*10^9).natAbs ≤ keyring.maximumClockSkew)
  let suppliedSignature ← decodeHex (← headerValue headers signatureHeader)
  guard (hmacSha256 key.secret
    (asBytes (canonicalMessage keyId tenantId.asStr timestamp method uri)) = suppliedSignature)
  some ⟨key.productId,tenantId⟩

/-! ### What is signed -/

/-- The fields of a workload envelope. -/
structure Envelope where
  keyId : String
  tenantId : TenantId
  timestamp : ℤ
  method : Method
  target : String
  deriving DecidableEq

def envelope (headers : HeaderMap) (method : Method) (uri : Uri) : Option Envelope := do
  let keyId ← headerValue headers keyIdHeader
  let tenantId ← (TenantId.new (← headerValue headers tenantIdHeader)).toOption
  let timestamp ← parseI64 (← headerValue headers timestampHeader)
  some ⟨keyId,tenantId,timestamp,method,uri.signedTarget⟩

def Envelope.fieldLines (e : Envelope) : List String :=
  [e.keyId,e.tenantId.asStr,toString e.timestamp,e.method.asStr,e.target]

theorem canonicalMessage_lines (e : Envelope) (uri : Uri) (h : e.target = uri.signedTarget) :
    canonicalMessage e.keyId e.tenantId.asStr e.timestamp e.method uri = lines e.fieldLines := by
  simp only [canonicalMessage, Envelope.fieldLines, lines, String.append_assoc, h]

theorem signedTarget_oneLine (uri : Uri) : OneLine uri.signedTarget := by
  have hpath : ∀ path : PathAndQuery, OneLine path.asStr := by
    intro path
    have hvalid := path.valid
    rw [Bool.and_eq_true] at hvalid
    exact oneLine_of_all (by decide) hvalid.2
  rw [Uri.signedTarget]
  cases uri.pathAndQuery with
  | none => exact (by decide : '\n' ∉ "/".toList)
  | some path => exact hpath path

theorem method_oneLine (method : Method) : OneLine method.asStr := by
  have hvalid := method.valid
  rw [Bool.and_eq_true] at hvalid
  exact oneLine_of_all (by decide) hvalid.2

/-- An accepted request was signed over its envelope with the key which it names. -/
theorem verify_some {hmacSha256 : List UInt8 → List UInt8 → List UInt8} {keyring : Keyring}
    {headers : HeaderMap} {method : Method} {uri : Uri} {now : ℤ} {identity : TrustedIdentity}
    (h : verify hmacSha256 keyring headers method uri now = some identity) :
    ∃ e key, envelope headers method uri = some e ∧ keyring.get e.keyId = some key ∧
      (headerValue headers signatureHeader).bind decodeHex =
        some (hmacSha256 key.secret (asBytes (lines e.fieldLines))) ∧
      (∀ line ∈ e.fieldLines, OneLine line) := by
  simp only [verify, Option.bind_eq_bind, Option.bind_eq_some_iff] at h
  obtain ⟨keyId,hkeyId,key,hkey,tenantText,htenant,tenantId,hid,timestampText,htimestamp,parsed,
    hparsed,timestamp,hunix,_,_,signatureText,hsignature,signature,hdecoded,_,hmac,_⟩ := h
  have hsame : timestamp = parsed := by
    rw [fromUnixTimestamp] at hunix
    by_cases hrange : -377705116800 ≤ parsed ∧ parsed ≤ 253402300799
    · rw [if_pos hrange, Option.some.injEq] at hunix
      exact hunix.symm
    · rw [if_neg hrange] at hunix
      exact absurd hunix (by simp)
  subst hsame
  refine ⟨⟨keyId,tenantId,timestamp,method,uri.signedTarget⟩,key,?_,hkey,?_,?_⟩
  · simp only [envelope, hkeyId, htenant, hid, htimestamp, hparsed, Option.bind_eq_bind,
      Option.bind_some]
  · have hcode := (Option.guard_eq_some' _).mp hmac
    rw [hsignature, Option.bind_some, hdecoded, ← hcode, canonicalMessage_lines
      ⟨keyId,tenantId,timestamp,method,uri.signedTarget⟩ uri rfl]
  · intro line hline
    simp only [Envelope.fieldLines, List.mem_cons, List.not_mem_nil, or_false] at hline
    rcases hline with rfl | rfl | rfl | rfl | rfl
    · exact keyId_oneLine (Keyring.get_valid hkey)
    · exact tenantId_oneLine tenantId
    · exact number_oneLine timestamp
    · exact method_oneLine method
    · exact signedTarget_oneLine uri

/-- The lines of an envelope are its fields. -/
theorem fieldLines_inj {e f : Envelope} (h : e.fieldLines = f.fieldLines) : e = f := by
  obtain ⟨keyId,⟨tenant,_⟩,timestamp,⟨method,_⟩,target⟩ := e
  obtain ⟨keyId',⟨tenant',_⟩,timestamp',⟨method',_⟩,target'⟩ := f
  simp only [Envelope.fieldLines, List.cons.injEq, and_true] at h
  obtain ⟨rfl,rfl,htimestamp,rfl,rfl⟩ := h
  rw [number_inj htimestamp]

end DocumentIntelligence.WorkloadIdentity
