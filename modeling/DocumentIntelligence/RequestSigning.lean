import DocumentIntelligence.Identifiers

/-!
# Signed requests

What the workload envelope and the access grant share: headers, the configured
keys, signatures in hexadecimal, timestamps and messages of lines. The message
authentication code is a parameter.
-/

set_option autoImplicit false

namespace DocumentIntelligence.RequestSigning
open Identifiers (ProductId TenantId isAsciiGraphic)

/-! ### Headers -/

/-- Names in lower case with the bytes of their values. -/
abbrev HeaderMap := List (String × List UInt8)

/-- `HeaderValue::to_str`: visible characters, blanks and tabs. -/
def toStr (bytes : List UInt8) : Option String :=
  if bytes.all fun byte => decide (32 ≤ byte ∧ byte < 127) || byte == 9 then
    some (String.ofList (bytes.map fun byte => Char.ofNat byte.toNat))
  else none

def headerValue (headers : HeaderMap) (name : String) : Option String :=
  ((headers.find? fun header => header.1 == name).map (·.2)).bind toStr

/-- `str::parse::<i64>` -/
def parseI64 (value : String) : Option ℤ :=
  let (negative,digits) := match value.toList with
    | '-'::digits => (true,digits)
    | '+'::digits => (false,digits)
    | digits => (false,digits)
  if digits.isEmpty || !digits.all Char.isDigit then none
  else
    let magnitude : ℕ := digits.foldl (fun n c => 10*n+(c.toNat-48)) 0
    let number : ℤ := if negative then -(magnitude : ℤ) else magnitude
    if -2^63 ≤ number ∧ number < 2^63 then some number else none

/-- `OffsetDateTime::from_unix_timestamp`, as seconds. -/
def fromUnixTimestamp (timestamp : ℤ) : Option ℤ :=
  if -377705116800 ≤ timestamp ∧ timestamp ≤ 253402300799 then some timestamp else none

def isHexDigit (c : Char) : Bool := c.isDigit || ('a' ≤ c && c ≤ 'f') || ('A' ≤ c && c ≤ 'F')

def hexDigitValue (c : Char) : ℕ :=
  if c.isDigit then c.toNat-48 else if 'a' ≤ c then c.toNat-87 else c.toNat-55

def hexPairs : List Char → List UInt8
  | first::second::rest =>
    UInt8.ofNat (16*hexDigitValue first+hexDigitValue second)::hexPairs rest
  | _ => []

def decodeHexValue (value : String) : Option (List UInt8) :=
  if value.toList.isEmpty || decide (value.toList.length%2 ≠ 0) || !value.toList.all isHexDigit then
    none
  else some (hexPairs value.toList)

def decodeHex (value : String) : Option (List UInt8) :=
  if value.utf8ByteSize ≠ 64 then none else decodeHexValue value

/-! ### Keys -/

def validKeyId (value : String) : Bool :=
  !value.toList.isEmpty && decide (value.utf8ByteSize ≤ 64) &&
    value.toList.all fun c => c.isAlphanum || c == '-' || c == '_' || c == '.'

def minimumKeyBytes : ℕ := 32

structure SigningKey where
  productId : ProductId
  secret : List UInt8
  deriving DecidableEq

inductive ConfigurationError where
  | emptyKeySet
  | invalidKeyId
  | invalidProduct
  | keyTooShort
  | duplicateKeyId
  | invalidClockSkew
  deriving DecidableEq, Repr

def validKeys (keys : List (String × SigningKey)) (maximumClockSkew : ℕ) : Bool :=
  decide (0 < maximumClockSkew) && !keys.isEmpty && decide (keys.map (·.1)).Nodup &&
    keys.all fun (keyId,key) => validKeyId keyId && decide (minimumKeyBytes ≤ key.secret.length)

/-- The keys by their identifiers and the clock skew in nanoseconds. -/
structure Keyring where
  keys : List (String × SigningKey)
  maximumClockSkew : ℕ
  valid : validKeys keys maximumClockSkew = true

def Keyring.get (keyring : Keyring) (keyId : String) : Option SigningKey :=
  (keyring.keys.find? fun entry => entry.1 == keyId).map (·.2)

/-- The loop of `new` over the remaining keys. -/
def configureKeys (configured : List (String × SigningKey)) :
    List (String × String × List UInt8) → Except ConfigurationError (List (String × SigningKey))
  | [] => .ok configured
  | (keyId,productId,secret)::keys =>
    if !validKeyId keyId then .error .invalidKeyId
    else match ProductId.new productId with
      | .error _ => .error .invalidProduct
      | .ok productId =>
        if secret.length < minimumKeyBytes then .error .keyTooShort
        else if configured.any fun entry => entry.1 == keyId then .error .duplicateKeyId
        else configureKeys (configured++[(keyId,⟨productId,secret⟩)]) keys

/-- What every configured key satisfies. -/
def Configured (keys : List (String × SigningKey)) : Prop :=
  (keys.map (·.1)).Nodup ∧
    ∀ entry ∈ keys, validKeyId entry.1 = true ∧ minimumKeyBytes ≤ entry.2.secret.length

theorem configureKeys_configured (keys : List (String × String × List UInt8))
    (configured : List (String × SigningKey)) (h : Configured configured)
    {result : List (String × SigningKey)} (hok : configureKeys configured keys = .ok result) :
    Configured result := by
  induction keys generalizing configured with
  | nil =>
    rw [configureKeys, Except.ok.injEq] at hok
    exact hok ▸ h
  | cons entry keys ih =>
    obtain ⟨keyId,productId,secret⟩ := entry
    rw [configureKeys] at hok
    by_cases hkey : validKeyId keyId = true
    · rw [hkey] at hok
      cases hproduct : ProductId.new productId with
      | error e => simp [hproduct] at hok
      | ok product =>
        by_cases hsecret : secret.length < minimumKeyBytes
        · simp [hproduct, hsecret] at hok
        by_cases hnew : (configured.any fun entry => entry.1 == keyId) = true
        · simp [hproduct, hsecret, hnew] at hok
        · simp only [hproduct, if_neg hsecret, if_neg hnew] at hok
          refine ih _ ⟨?_,?_⟩ hok
          · rw [List.map_append, List.nodup_append]
            refine ⟨h.1,List.nodup_singleton _,?_⟩
            intro a ha b hb
            rw [List.map_singleton, List.mem_singleton] at hb
            obtain ⟨old,hold,rfl⟩ := List.mem_map.mp ha
            intro heq
            exact hnew (List.any_eq_true.mpr ⟨old,hold,beq_iff_eq.mpr (heq.trans hb)⟩)
          · intro old hold
            rcases List.mem_append.mp hold with hold | hold
            · exact h.2 old hold
            · rw [List.mem_singleton] at hold
              subst hold
              exact ⟨hkey,Nat.le_of_not_lt hsecret⟩
    · simp [hkey] at hok

theorem configured_valid {keys : List (String × String × List UInt8)}
    {configured : List (String × SigningKey)} {maximumClockSkew : ℕ}
    (hskew : maximumClockSkew ≠ 0) (hok : configureKeys [] keys = .ok configured)
    (hsome : configured.isEmpty = false) : validKeys configured maximumClockSkew = true := by
  have h := configureKeys_configured keys [] ⟨List.nodup_nil,by simp⟩ hok
  simp only [validKeys, Bool.and_eq_true, decide_eq_true_eq, hsome, Bool.not_false,
    List.all_eq_true]
  exact ⟨⟨⟨Nat.pos_of_ne_zero hskew,trivial⟩,h.1⟩,h.2⟩

def Keyring.new (keys : List (String × String × List UInt8)) (maximumClockSkew : ℕ) :
    Except ConfigurationError Keyring :=
  if hskew : maximumClockSkew = 0 then .error .invalidClockSkew
  else match hok : configureKeys [] keys with
    | .error error => .error error
    | .ok configured =>
      if hsome : configured.isEmpty then .error .emptyKeySet
      else .ok ⟨configured,maximumClockSkew,
        configured_valid hskew hok (Bool.not_eq_true _ ▸ hsome)⟩

theorem Keyring.get_valid {keyring : Keyring} {keyId : String} {key : SigningKey}
    (h : keyring.get keyId = some key) : validKeyId keyId = true := by
  rw [Keyring.get, Option.map_eq_some_iff] at h
  obtain ⟨entry,hfind,_⟩ := h
  have hname := List.find?_some hfind
  have hmem := List.mem_of_find?_eq_some hfind
  have hvalid := keyring.valid
  simp only [validKeys, Bool.and_eq_true, List.all_eq_true] at hvalid
  rw [← beq_iff_eq.mp hname]
  exact (hvalid.2 entry hmem).1

/-! ### Messages of lines -/

/-- `str::as_bytes` -/
def asBytes (value : String) : List UInt8 := value.toUTF8.data.toList

/-- The text has one line only. -/
def OneLine (value : String) : Prop := '\n' ∉ value.toList

/-- `format!("{}\n{}…")` -/
def lines : List String → String
  | [] => ""
  | [value] => value
  | value::values => value++"\n"++lines values

theorem lines_toList (values : List String) :
    (lines values).toList = ['\n'].intercalate (values.map String.toList) := by
  induction values with
  | nil => rfl
  | cons value values ih =>
    cases values with
    | nil => simp [lines]
    | cons next values =>
      rw [lines, String.toList_append, String.toList_append, ih, List.map_cons, List.map_cons,
        List.map_cons, List.intercalate_cons_cons]
      · rfl
      · simp

/-- Messages of single lines are equal only if all their lines are. -/
theorem lines_inj {values others : List String} (hv : ∀ value ∈ values, OneLine value)
    (ho : ∀ value ∈ others, OneLine value) (hvalues : values ≠ []) (hothers : others ≠ [])
    (h : lines values = lines others) : values = others := by
  have hsplit : ∀ texts : List String, (∀ value ∈ texts, OneLine value) → texts ≠ [] →
      (lines texts).toList.splitOn '\n' = texts.map String.toList := by
    intro texts htexts hne
    rw [lines_toList]
    apply List.splitOn_intercalate
    · intro line hline
      obtain ⟨text,htext,rfl⟩ := List.mem_map.mp hline
      exact htexts text htext
    · simpa using hne
  have hlists := hsplit values hv hvalues
  rw [h, hsplit others ho hothers] at hlists
  exact (List.map_injective_iff.mpr fun a b hab => String.toList_inj.mp hab) hlists.symm

/-! #### Lines which the checks let through -/

theorem oneLine_of_all {value : String} {p : Char → Bool} (hp : p '\n' = false)
    (h : value.toList.all p = true) : OneLine value := by
  intro hmem
  rw [List.all_eq_true.mp h _ hmem] at hp
  exact absurd hp (by simp)

theorem keyId_oneLine {value : String} (h : validKeyId value = true) : OneLine value := by
  rw [validKeyId, Bool.and_eq_true] at h
  exact oneLine_of_all (by decide) h.2

theorem tenantId_oneLine (tenantId : TenantId) : OneLine tenantId.asStr := by
  obtain ⟨suffix,_,hsuffix,hlist⟩ := Identifiers.validatedId_split tenantId.valid
  intro hmem
  rw [hlist, List.mem_append] at hmem
  rcases hmem with hmem | hmem
  · exact absurd hmem (by decide)
  · rw [Identifiers.validSuffix, Bool.and_eq_true, List.all_eq_true] at hsuffix
    exact absurd (hsuffix.2 _ hmem) (by decide)

theorem number_oneLine (n : ℤ) : OneLine (toString n) := by
  have hnat : ∀ k : ℕ, '\n' ∉ (Nat.repr k).toList := by
    intro k hmem
    rw [Nat.toList_repr] at hmem
    exact absurd (Nat.isDigit_of_mem_toDigits (by decide) (by decide) hmem) (by decide)
  cases n with
  | ofNat k => exact hnat k
  | negSucc k =>
    have htext : toString (Int.negSucc k) = "-"++Nat.repr (k+1) := rfl
    rw [OneLine, htext, String.toList_append, List.mem_append, not_or]
    exact ⟨by decide,hnat (k+1)⟩

theorem number_inj {n k : ℤ} (h : toString n = toString k) : n = k := by
  have hdash : ∀ a b : ℕ, Nat.repr a ≠ "-"++Nat.repr b := by
    intro a b heq
    have hmem : '-' ∈ (Nat.repr a).toList := by
      rw [heq, String.toList_append, List.mem_append]
      exact Or.inl (by decide)
    rw [Nat.toList_repr] at hmem
    exact absurd (Nat.isDigit_of_mem_toDigits (by decide) (by decide) hmem) (by decide)
  cases n with
  | ofNat a =>
    cases k with
    | ofNat b => exact congrArg Int.ofNat (Nat.repr_injective h)
    | negSucc b => exact absurd h (hdash a (b+1))
  | negSucc a =>
    cases k with
    | ofNat b => exact absurd h.symm (hdash b (a+1))
    | negSucc b =>
      have hrepr : "-"++Nat.repr (a+1) = "-"++Nat.repr (b+1) := h
      rw [String.append_right_inj] at hrepr
      rw [Nat.succ.inj (Nat.repr_injective hrepr)]

end DocumentIntelligence.RequestSigning
