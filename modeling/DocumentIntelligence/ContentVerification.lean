import DocumentIntelligence.BigEndian
import DocumentIntelligence.Uploads

/-!
# Verification of streamed content

The content of an upload comes in chunks. It is verified once while it streams by, where
its chunks go to a hashing task in the order in which they come, and once when it is
collected. The state of a hasher is a parameter.
-/

set_option autoImplicit false

namespace DocumentIntelligence.ContentVerification
open BigEndian
open Identifiers (hexEncode)
open Uploads (StoredUpload validateUpload validContentLength)
open Table (bind_ok ok_bind error_bind ite_ok_iff)

/-- `sha2::Sha256`: a hasher which is given two pieces is one which is given both
together. -/
structure Sha256 where
  Hasher : Type
  new : Hasher
  update : Hasher → Bytes → Hasher
  finalize : Hasher → Vector UInt8 32
  update_nil : ∀ hasher, update hasher [] = hasher
  update_append : ∀ hasher first second,
    update (update hasher first) second = update hasher (first++second)

def Sha256.digest (sha256 : Sha256) (bytes : Bytes) : Vector UInt8 32 :=
  sha256.finalize (sha256.update sha256.new bytes)

def sha256Digest (value : Vector UInt8 32) : String := "sha256:"++hexEncode value.toList

/-- The hasher which keeps what it is given. -/
def Sha256.buffering (digest : Bytes → Vector UInt8 32) : Sha256 where
  Hasher := Bytes
  new := []
  update := (·++·)
  finalize := digest
  update_nil := List.append_nil
  update_append := List.append_assoc

example (digest : Bytes → Vector UInt8 32) : (Sha256.buffering digest).digest = digest := rfl

theorem Sha256.foldl_update (sha256 : Sha256) (hasher : sha256.Hasher) (chunks : List Bytes) :
    chunks.foldl sha256.update hasher = sha256.update hasher chunks.flatten := by
  induction chunks generalizing hasher with
  | nil => exact (sha256.update_nil hasher).symm
  | cons chunk chunks ih => rw [List.foldl_cons, ih, sha256.update_append, List.flatten_cons]

theorem Sha256.finalize_chunks (sha256 : Sha256) (chunks : List Bytes) :
    sha256.finalize (chunks.foldl sha256.update sha256.new) = sha256.digest chunks.flatten := by
  rw [sha256.foldl_update]
  rfl

/-- `object_store::Error` -/
inductive ObjectError where
  | notFound
  | precondition
  | other
  deriving DecidableEq, Repr

/-- The chunks of a stream, of which each may be an error. -/
abbrev ObjectStream := List (Except ObjectError Bytes)

/-- A stream without errors. -/
def streamOf (chunks : List Bytes) : ObjectStream := chunks.map .ok

/-- `MAXIMUM_UPLOAD_BYTES` -/
def maximumUploadBytes : ℕ := 100*1024*1024

/-! ### The content which streams by -/

section Stream

inductive UploadArtifactError where
  | notFound
  | invalid
  | unavailable
  deriving DecidableEq, Repr

structure VerifiedUploadArtifact where
  objectVersion : String
  contentType : String
  contentLength : ℤ
  digest : String
  deriving DecidableEq, Repr

def mapObjectError : ObjectError → UploadArtifactError
  | .notFound => .notFound
  | _ => .unavailable

def detectContentType (leading : Bytes) : Option String :=
  if (ascii "%PDF-").isPrefixOf leading then some "application/pdf"
  else if ([137]++ascii "PNG\r\n\x1a\n").isPrefixOf leading then some "image/png"
  else if [255,216,255].isPrefixOf leading then some "image/jpeg"
  else if (ascii "II*\x00").isPrefixOf leading || (ascii "MM\x00*").isPrefixOf leading then
    some "image/tiff"
  else if decide (12 ≤ leading.length) && leading.take 4 == ascii "RIFF" &&
      (leading.take 12).drop 8 == ascii "WEBP" then some "image/webp"
  else none

/-- What the loop over the stream keeps, with the chunks which it has sent to the
hashing task. -/
structure Reading where
  count : ℕ
  leading : Bytes
  sent : List Bytes

def Reading.start : Reading := ⟨0,[],[]⟩

def readChunk (maximumLength expectedLength : ℕ) (reading : Reading) :
    Except ObjectError Bytes → Except UploadArtifactError Reading
  | .error e => .error (mapObjectError e)
  | .ok chunk =>
    let count := reading.count+chunk.length
    if 2^64 ≤ count then .error .invalid
    else if maximumLength < count ∨ expectedLength < count then .error .invalid
    else
      let leading := if reading.leading.length < 12 then
          reading.leading++chunk.take (12-reading.leading.length)
        else reading.leading
      .ok ⟨count,leading,reading.sent++[chunk]⟩

def verifyStream (sha256 : Sha256) (upload : StoredUpload) (generation : String) (size : ℕ)
    (stream : ObjectStream) : Except UploadArtifactError VerifiedUploadArtifact :=
  if upload.expectedContentLength < 0 then .error .invalid
  else
    let expectedLength := upload.expectedContentLength.toNat
    if size ≠ expectedLength ∨ maximumUploadBytes < size then .error .invalid
    else do
      let reading ← stream.foldlM (readChunk maximumUploadBytes expectedLength) Reading.start
      let digest := sha256Digest (sha256.finalize (reading.sent.foldl sha256.update sha256.new))
      match detectContentType reading.leading with
      | none => .error .invalid
      | some contentType =>
        if reading.count ≠ expectedLength ∨ contentType ≠ upload.expectedContentType ∨
          digest ≠ upload.expectedDigest then .error .invalid
        else if 2^63 ≤ reading.count then .error .invalid
        else .ok ⟨generation,contentType,reading.count,digest⟩

end Stream

/-! ### The content which is collected -/

inductive DocumentReadError where
  | invalid
  | unavailable
  deriving DecidableEq, Repr

def mapReadError : ObjectError → DocumentReadError
  | .notFound | .precondition => .invalid
  | .other => .unavailable

def saturatingAdd (a b : ℕ) : ℕ := min (a+b) (usizeBound-1)

def collectChunk (capacity : ℕ) (bytes : Bytes) :
    Except ObjectError Bytes → Except DocumentReadError Bytes
  | .error e => .error (mapReadError e)
  | .ok chunk =>
    if capacity < saturatingAdd bytes.length chunk.length then .error .invalid
    else .ok (bytes++chunk)

def collectVerified (sha256 : Sha256) (expectedContentLength : ℤ) (expectedDigest : String)
    (size : ℕ) (stream : ObjectStream) : Except DocumentReadError Bytes :=
  if expectedContentLength < 0 then .error .invalid
  else
    let expectedLength := expectedContentLength.toNat
    if size ≠ expectedLength ∨ maximumUploadBytes < size then .error .invalid
    else do
      let capacity := size
      let bytes ← stream.foldlM (collectChunk capacity) []
      if bytes.length ≠ capacity then .error .invalid
      else if sha256Digest (sha256.digest bytes) ≠ expectedDigest then .error .invalid
      else .ok bytes

/-! ### The loops over a stream -/

section Loops
variable {maximumLength expectedLength capacity : ℕ}

theorem readChunk_ok {reading : Reading} {chunk : Bytes} (hbound : maximumLength < 2^64)
    (hmaximum : reading.count+chunk.length ≤ maximumLength)
    (hexpected : reading.count+chunk.length ≤ expectedLength)
    (hleading : reading.leading.length ≤ 12) :
    readChunk maximumLength expectedLength reading (.ok chunk) =
      .ok ⟨reading.count+chunk.length,(reading.leading++chunk).take 12,reading.sent++[chunk]⟩ := by
  have htake : (if reading.leading.length < 12 then
      reading.leading++chunk.take (12-reading.leading.length) else reading.leading) =
      (reading.leading++chunk).take 12 := by
    rw [List.take_append, List.take_of_length_le hleading]
    split
    · rfl
    · rw [show 12-reading.leading.length = 0 by omega, List.take_zero, List.append_nil]
  simp only [readChunk]
  rw [if_neg (by omega), if_neg (by omega), htake]

theorem readChunk_over {reading : Reading} {chunk : Bytes}
    (hover : maximumLength < reading.count+chunk.length ∨
      expectedLength < reading.count+chunk.length) :
    readChunk maximumLength expectedLength reading (.ok chunk) = .error .invalid := by
  simp only [readChunk]
  by_cases hwide : 2^64 ≤ reading.count+chunk.length
  · rw [if_pos hwide]
  · rw [if_neg hwide, if_pos hover]

theorem take_take_append (n : ℕ) (xs ys : Bytes) :
    (xs.take n++ys).take n = (xs++ys).take n := by
  by_cases hlong : n ≤ xs.length
  · have htaken : n ≤ (xs.take n).length := by
      rw [List.length_take]
      omega
    rw [List.take_append_of_le_length htaken, List.take_append_of_le_length hlong,
      List.take_take, min_self]
  · rw [List.take_of_length_le (show xs.length ≤ n by omega)]

theorem foldlM_streamOf {α ε : Type} (f : α → Except ObjectError Bytes → Except ε α) (a : α)
    (chunk : Bytes) (chunks : List Bytes) : (streamOf (chunk::chunks)).foldlM f a =
      f a (.ok chunk) >>= fun a' => (streamOf chunks).foldlM f a' :=
  List.foldlM_cons

/-- The loop ends with the length, the first bytes and the chunks of what it has read. -/
theorem read_fits {chunks : List Bytes} {reading : Reading} (hbound : maximumLength < 2^64)
    (hmaximum : reading.count+chunks.flatten.length ≤ maximumLength)
    (hexpected : reading.count+chunks.flatten.length ≤ expectedLength)
    (hleading : reading.leading.length ≤ 12) :
    (streamOf chunks).foldlM (readChunk maximumLength expectedLength) reading =
      .ok ⟨reading.count+chunks.flatten.length,(reading.leading++chunks.flatten).take 12,
        reading.sent++chunks⟩ := by
  induction chunks generalizing reading with
  | nil =>
    rw [List.flatten_nil, List.append_nil, List.append_nil, List.take_of_length_le hleading]
    rfl
  | cons chunk chunks ih =>
    rw [List.flatten_cons, List.length_append, ← Nat.add_assoc] at hmaximum hexpected
    have hfirst : reading.count+chunk.length ≤ maximumLength := by omega
    have hfirst' : reading.count+chunk.length ≤ expectedLength := by omega
    rw [foldlM_streamOf, readChunk_ok hbound hfirst hfirst' hleading, ok_bind,
      ih hmaximum hexpected (List.length_take_le 12 _)]
    -- the first bytes of what has been read and of the rest
    have hleading' : ((reading.leading++chunk).take 12++chunks.flatten).take 12 =
        (reading.leading++(chunk++chunks.flatten)).take 12 := by
      rw [take_take_append, List.append_assoc]
    simp only [hleading', List.flatten_cons, List.length_append, Nat.add_assoc, List.append_assoc,
      List.singleton_append]

/-- The loop fails on a content which is longer than it may be. -/
theorem read_over {chunks : List Bytes} {reading : Reading} (hbound : maximumLength < 2^64)
    (hmaximum : reading.count ≤ maximumLength) (hexpected : reading.count ≤ expectedLength)
    (hleading : reading.leading.length ≤ 12)
    (hover : maximumLength < reading.count+chunks.flatten.length ∨
      expectedLength < reading.count+chunks.flatten.length) :
    (streamOf chunks).foldlM (readChunk maximumLength expectedLength) reading =
      .error .invalid := by
  induction chunks generalizing reading with
  | nil =>
    rw [List.flatten_nil, List.length_nil] at hover
    omega
  | cons chunk chunks ih =>
    rw [foldlM_streamOf]
    by_cases hfits : reading.count+chunk.length ≤ maximumLength ∧
        reading.count+chunk.length ≤ expectedLength
    · rw [List.flatten_cons, List.length_append, ← Nat.add_assoc] at hover
      rw [readChunk_ok hbound hfits.1 hfits.2 hleading, ok_bind]
      exact ih hfits.1 hfits.2 (List.length_take_le 12 _) hover
    · rw [readChunk_over (by omega), error_bind]

/-- The loop over a whole stream. -/
theorem read_content (chunks : List Bytes) (hbound : maximumLength < 2^64)
    (hexpected : expectedLength ≤ maximumLength) :
    (streamOf chunks).foldlM (readChunk maximumLength expectedLength) Reading.start =
      if chunks.flatten.length ≤ expectedLength then
        .ok ⟨chunks.flatten.length,chunks.flatten.take 12,chunks⟩
      else .error .invalid := by
  have hzero : Reading.start.count+chunks.flatten.length = chunks.flatten.length :=
    Nat.zero_add _
  by_cases hfits : chunks.flatten.length ≤ expectedLength
  · rw [if_pos hfits, read_fits hbound (hzero.le.trans (hfits.trans hexpected))
      (hzero.le.trans hfits) (Nat.zero_le _), hzero]
    rfl
  · rw [if_neg hfits]
    exact read_over hbound (Nat.zero_le _) (Nat.zero_le _) (Nat.zero_le _) (by omega)

theorem collectChunk_ok {bytes chunk : Bytes} (hcapacity : capacity < usizeBound-1) :
    collectChunk capacity bytes (.ok chunk) =
      if bytes.length+chunk.length ≤ capacity then .ok (bytes++chunk) else .error .invalid := by
  have hsaturated : capacity < saturatingAdd bytes.length chunk.length ↔
      capacity < bytes.length+chunk.length := by
    unfold saturatingAdd
    omega
  simp only [collectChunk, hsaturated]
  by_cases hfits : bytes.length+chunk.length ≤ capacity
  · rw [if_pos hfits, if_neg (not_lt.mpr hfits)]
  · rw [if_neg hfits, if_pos (not_le.mp hfits)]

theorem collect_chunks {chunks : List Bytes} {bytes : Bytes} (hcapacity : capacity < usizeBound-1)
    (hbytes : bytes.length ≤ capacity) :
    (streamOf chunks).foldlM (collectChunk capacity) bytes =
      if bytes.length+chunks.flatten.length ≤ capacity then .ok (bytes++chunks.flatten)
      else .error .invalid := by
  induction chunks generalizing bytes with
  | nil =>
    rw [List.flatten_nil, List.length_nil, List.append_nil, Nat.add_zero, if_pos hbytes]
    rfl
  | cons chunk chunks ih =>
    rw [foldlM_streamOf, collectChunk_ok hcapacity, List.flatten_cons, List.length_append,
      ← Nat.add_assoc, ← List.append_assoc]
    by_cases hfits : bytes.length+chunk.length ≤ capacity
    · rw [if_pos hfits, ok_bind, ih (by rwa [List.length_append]), List.length_append]
    · rw [if_neg hfits, error_bind, if_neg (by omega)]

/-- In every state of the loop, over a stream which may fail, what it has read is within
the limits. -/
structure Reading.Bounded (maximumLength expectedLength : ℕ) (reading : Reading) : Prop where
  leading : reading.leading.length ≤ 12
  sent : reading.sent.flatten.length = reading.count
  maximum : reading.count ≤ maximumLength
  expected : reading.count ≤ expectedLength

theorem readChunk_bounded {reading reading' : Reading} {chunk : Except ObjectError Bytes}
    (hreading : reading.Bounded maximumLength expectedLength)
    (h : readChunk maximumLength expectedLength reading chunk = .ok reading') :
    reading'.Bounded maximumLength expectedLength := by
  cases chunk with
  | error e => cases h
  | ok chunk =>
    simp only [readChunk] at h
    split at h
    · cases h
    split at h
    · cases h
    · rename_i hlimits
      rw [not_or, not_lt, not_lt] at hlimits
      rw [Except.ok.injEq] at h
      rw [← h]
      constructor
      · have hleading := hreading.leading
        simp only
        split
        · rw [List.length_append, List.length_take]
          omega
        · exact hleading
      · simp only [List.flatten_append, List.flatten_singleton, List.length_append, hreading.sent]
      · exact hlimits.1
      · exact hlimits.2

theorem read_bounded {read : ObjectStream} {reading reading' : Reading}
    (hreading : reading.Bounded maximumLength expectedLength)
    (h : read.foldlM (readChunk maximumLength expectedLength) reading = .ok reading') :
    reading'.Bounded maximumLength expectedLength := by
  induction read generalizing reading with
  | nil =>
    cases h
    exact hreading
  | cons chunk read ih =>
    rw [List.foldlM_cons] at h
    obtain ⟨next,hnext,hrest⟩ := bind_ok.mp h
    exact ih (readChunk_bounded hreading hnext) hrest

theorem start_bounded : Reading.start.Bounded maximumLength expectedLength :=
  ⟨Nat.zero_le _,rfl,Nat.zero_le _,Nat.zero_le _⟩

theorem collect_bounded {read : ObjectStream} {bytes bytes' : Bytes}
    (hcapacity : capacity < usizeBound-1) (hbytes : bytes.length ≤ capacity)
    (h : read.foldlM (collectChunk capacity) bytes = .ok bytes') : bytes'.length ≤ capacity := by
  induction read generalizing bytes with
  | nil =>
    cases h
    exact hbytes
  | cons chunk read ih =>
    rw [List.foldlM_cons] at h
    obtain ⟨next,hnext,hrest⟩ := bind_ok.mp h
    cases chunk with
    | error e => cases hnext
    | ok chunk =>
      rw [collectChunk_ok hcapacity] at hnext
      split at hnext
      · rename_i hfits
        rw [Except.ok.injEq] at hnext
        rw [← List.length_append, hnext] at hfits
        exact ih hfits hrest
      · cases hnext

end Loops

/-! ### Magic bytes -/

/-- The content starts with the magic bytes of the media type. -/
def HasMagic (contentType : String) (content : Bytes) : Prop :=
  (contentType = "application/pdf" ∧ ascii "%PDF-" <+: content) ∨
  (contentType = "image/png" ∧ [137]++ascii "PNG\r\n\x1a\n" <+: content) ∨
  (contentType = "image/jpeg" ∧ [255,216,255] <+: content) ∨
  (contentType = "image/tiff" ∧ (ascii "II*\x00" <+: content ∨ ascii "MM\x00*" <+: content)) ∨
  (contentType = "image/webp" ∧ ascii "RIFF" <+: content ∧ ascii "WEBP" <+: content.drop 8)

theorem isPrefixOf_take {signature : Bytes} (h : signature.length ≤ 12) (content : Bytes) :
    signature.isPrefixOf (content.take 12) = true ↔ signature <+: content := by
  rw [List.isPrefixOf_iff_prefix, List.prefix_take_iff]
  exact and_iff_left h

theorem webp_take (content : Bytes) : (decide (12 ≤ (content.take 12).length) &&
    (content.take 12).take 4 == ascii "RIFF" &&
      ((content.take 12).take 12).drop 8 == ascii "WEBP") = true ↔
    ascii "RIFF" <+: content ∧ ascii "WEBP" <+: content.drop 8 := by
  have hriff : (ascii "RIFF").length = 4 := rfl
  have hwebp : (ascii "WEBP").length = 4 := rfl
  rw [Bool.and_eq_true, Bool.and_eq_true, decide_eq_true_eq, beq_iff_eq, beq_iff_eq,
    List.take_take, List.take_take, List.length_take, List.prefix_iff_eq_take,
    List.prefix_iff_eq_take, hriff, hwebp, List.take_drop]
  constructor
  · rintro ⟨⟨_,hfirst⟩,hsecond⟩
    exact ⟨hfirst.symm,hsecond.symm⟩
  · rintro ⟨hfirst,hsecond⟩
    have hlength := congrArg List.length hsecond
    rw [hwebp, List.length_drop, List.length_take] at hlength
    exact ⟨⟨by omega,hfirst.symm⟩,hsecond.symm⟩

/-- The types are told apart by the first byte. -/
theorem detectContentType_take (content : Bytes) (contentType : String) :
    detectContentType (content.take 12) = some contentType ↔ HasMagic contentType content := by
  have hhead : ∀ (signature : Bytes) (byte : UInt8), signature.head? = some byte →
      signature <+: content → content.head? = some byte := by
    rintro signature byte hsignature ⟨rest,rfl⟩
    rw [List.head?_append, hsignature]
    rfl
  have hpdf := hhead (ascii "%PDF-") 37 rfl
  have hpng := hhead ([137]++ascii "PNG\r\n\x1a\n") 137 rfl
  have hjpeg := hhead [255,216,255] 255 rfl
  have hlittle := hhead (ascii "II*\x00") 73 rfl
  have hbig := hhead (ascii "MM\x00*") 77 rfl
  have hriff := hhead (ascii "RIFF") 82 rfl
  rw [detectContentType, HasMagic]
  simp only [isPrefixOf_take (show (ascii "%PDF-").length ≤ 12 by decide),
    isPrefixOf_take (show ([137]++ascii "PNG\r\n\x1a\n").length ≤ 12 by decide),
    isPrefixOf_take (show ([255,216,255] : Bytes).length ≤ 12 by decide), Bool.or_eq_true,
    isPrefixOf_take (show (ascii "II*\x00").length ≤ 12 by decide),
    isPrefixOf_take (show (ascii "MM\x00*").length ≤ 12 by decide), webp_take]
  clear hhead
  grind

/-! ### The outcomes -/

/-- The object has the size which the upload declares. -/
def Sized (expectedContentLength : ℤ) (size : ℕ) : Prop :=
  (size : ℤ) = expectedContentLength ∧ size ≤ maximumUploadBytes

theorem maximumUploadBytes_lt : maximumUploadBytes < 2^63 := by decide

variable (sha256 : Sha256)

theorem verifyStream_unsized {upload : StoredUpload} (generation : String) {size : ℕ}
    (h : ¬Sized upload.expectedContentLength size) (stream : ObjectStream) :
    verifyStream sha256 upload generation size stream = .error .invalid := by
  rw [verifyStream]
  by_cases hnegative : upload.expectedContentLength < 0
  · rw [if_pos hnegative]
  · have hlimits : size ≠ upload.expectedContentLength.toNat ∨ maximumUploadBytes < size := by
      unfold Sized at h
      omega
    rw [if_neg hnegative, if_pos hlimits]

theorem collectVerified_unsized {expectedContentLength : ℤ} (expectedDigest : String) {size : ℕ}
    (h : ¬Sized expectedContentLength size) (stream : ObjectStream) :
    collectVerified sha256 expectedContentLength expectedDigest size stream =
      .error .invalid := by
  rw [collectVerified]
  by_cases hnegative : expectedContentLength < 0
  · rw [if_pos hnegative]
  · have hlimits : size ≠ expectedContentLength.toNat ∨ maximumUploadBytes < size := by
      unfold Sized at h
      omega
    rw [if_neg hnegative, if_pos hlimits]

/-- The outcome for a stream without errors is a function of its content. -/
theorem verifyStream_content (upload : StoredUpload) (generation : String) {size : ℕ}
    (hsized : Sized upload.expectedContentLength size) (chunks : List Bytes) :
    verifyStream sha256 upload generation size (streamOf chunks) =
      if chunks.flatten.length = size ∧
          sha256Digest (sha256.digest chunks.flatten) = upload.expectedDigest ∧
          detectContentType (chunks.flatten.take 12) = some upload.expectedContentType then
        .ok ⟨generation,upload.expectedContentType,size,upload.expectedDigest⟩
      else .error .invalid := by
  have hbound := maximumUploadBytes_lt
  have hlength : upload.expectedContentLength.toNat = size := by
    rw [← hsized.1, Int.toNat_natCast]
  have hmaximum := hsized.2
  rw [verifyStream, if_neg (by rw [← hsized.1]; omega), hlength]
  simp only
  rw [if_neg (by omega), read_content chunks (by omega) hmaximum]
  by_cases hfits : chunks.flatten.length ≤ size
  · rw [if_pos hfits, ok_bind]
    simp only [sha256.finalize_chunks]
    cases hdetected : detectContentType (chunks.flatten.take 12) with
    | none => rw [if_neg fun h => nomatch h.2.2]
    | some contentType =>
      simp only [Option.some.injEq]
      by_cases hmatches : chunks.flatten.length = size ∧
          sha256Digest (sha256.digest chunks.flatten) = upload.expectedDigest ∧
          contentType = upload.expectedContentType
      · obtain ⟨hlength,hdigest,htype⟩ := hmatches
        rw [if_neg (by simp only [hlength, hdigest, htype, ne_eq, not_true, or_self,
          not_false_eq_true]), if_neg (by omega), if_pos ⟨hlength,hdigest,htype⟩, hlength, hdigest,
          htype]
      · have hdiffers : chunks.flatten.length ≠ size ∨
            contentType ≠ upload.expectedContentType ∨
            sha256Digest (sha256.digest chunks.flatten) ≠ upload.expectedDigest := by
          rw [not_and_or, not_and_or] at hmatches
          exact hmatches.imp_right Or.symm
        rw [if_pos hdiffers, if_neg hmatches]
  · rw [if_neg hfits, error_bind, if_neg (by omega)]

theorem collectVerified_content {expectedContentLength : ℤ} (expectedDigest : String) {size : ℕ}
    (hsized : Sized expectedContentLength size) (chunks : List Bytes) :
    collectVerified sha256 expectedContentLength expectedDigest size (streamOf chunks) =
      if chunks.flatten.length = size ∧
          sha256Digest (sha256.digest chunks.flatten) = expectedDigest then .ok chunks.flatten
      else .error .invalid := by
  have hbound := maximumUploadBytes_lt
  have hlength : expectedContentLength.toNat = size := by
    rw [← hsized.1, Int.toNat_natCast]
  have hmaximum := hsized.2
  have hcapacity : size < usizeBound-1 := by
    unfold usizeBound
    omega
  rw [collectVerified, if_neg (by rw [← hsized.1]; omega), hlength]
  simp only
  rw [if_neg (by omega), collect_chunks hcapacity (Nat.zero_le _), List.length_nil, Nat.zero_add,
    List.nil_append]
  by_cases hfits : chunks.flatten.length ≤ size
  · rw [if_pos hfits, ok_bind]
    by_cases hwhole : chunks.flatten.length = size
    · rw [if_neg (not_not.mpr hwhole)]
      by_cases hdigest : sha256Digest (sha256.digest chunks.flatten) = expectedDigest
      · rw [if_neg (not_not.mpr hdigest), if_pos ⟨hwhole,hdigest⟩]
      · rw [if_pos hdigest, if_neg fun h => hdigest h.2]
    · rw [if_pos hwhole, if_neg fun h => hwhole h.1]
  · rw [if_neg hfits, error_bind, if_neg (by omega)]

section Outcomes
variable {upload : StoredUpload} {size : ℕ}

/-- How a content is cut into chunks does not matter. -/
theorem verifyStream_chunking (generation : String) {chunks chunks' : List Bytes}
    (h : chunks'.flatten = chunks.flatten) :
    verifyStream sha256 upload generation size (streamOf chunks') =
      verifyStream sha256 upload generation size (streamOf chunks) := by
  by_cases hsized : Sized upload.expectedContentLength size
  · rw [verifyStream_content sha256 upload generation hsized,
      verifyStream_content sha256 upload generation hsized, h]
  · rw [verifyStream_unsized sha256 generation hsized,
      verifyStream_unsized sha256 generation hsized]

theorem collectVerified_chunking {chunks chunks' : List Bytes}
    (h : chunks'.flatten = chunks.flatten) :
    collectVerified sha256 upload.expectedContentLength upload.expectedDigest size
        (streamOf chunks') =
      collectVerified sha256 upload.expectedContentLength upload.expectedDigest size
        (streamOf chunks) := by
  by_cases hsized : Sized upload.expectedContentLength size
  · rw [collectVerified_content sha256 upload.expectedDigest hsized,
      collectVerified_content sha256 upload.expectedDigest hsized, h]
  · rw [collectVerified_unsized sha256 upload.expectedDigest hsized,
      collectVerified_unsized sha256 upload.expectedDigest hsized]

theorem verifyStream_ok {generation : String} {chunks : List Bytes}
    {artifact : VerifiedUploadArtifact} :
    verifyStream sha256 upload generation size (streamOf chunks) = .ok artifact ↔
      Sized upload.expectedContentLength size ∧ chunks.flatten.length = size ∧
      sha256Digest (sha256.digest chunks.flatten) = upload.expectedDigest ∧
      HasMagic upload.expectedContentType chunks.flatten ∧
      artifact = ⟨generation,upload.expectedContentType,size,upload.expectedDigest⟩ := by
  by_cases hsized : Sized upload.expectedContentLength size
  · rw [verifyStream_content sha256 upload generation hsized, ite_ok_iff, detectContentType_take,
      and_assoc, and_assoc]
    exact (and_iff_right hsized).symm
  · rw [verifyStream_unsized sha256 generation hsized]
    exact iff_of_false nofun fun h => hsized h.1

theorem collectVerified_ok {chunks : List Bytes} {bytes : Bytes} :
    collectVerified sha256 upload.expectedContentLength upload.expectedDigest size
        (streamOf chunks) = .ok bytes ↔
      Sized upload.expectedContentLength size ∧ chunks.flatten.length = size ∧
      sha256Digest (sha256.digest chunks.flatten) = upload.expectedDigest ∧
      bytes = chunks.flatten := by
  by_cases hsized : Sized upload.expectedContentLength size
  · rw [collectVerified_content sha256 upload.expectedDigest hsized, ite_ok_iff, and_assoc]
    exact (and_iff_right hsized).symm
  · rw [collectVerified_unsized sha256 upload.expectedDigest hsized]
    exact iff_of_false nofun fun h => hsized h.1

/-- An upload which is stored has a length which is within the maximum. -/
theorem sized_of_valid {length : ℕ} (hvalid : validateUpload upload = true) :
    Sized upload.expectedContentLength length ↔ (length : ℤ) = upload.expectedContentLength := by
  have hlength : validContentLength upload.expectedContentLength = true := by
    rw [validateUpload] at hvalid
    simp only [Bool.and_eq_true] at hvalid
    exact hvalid.1.1.1.1.2
  have hmaximum : upload.expectedContentLength ≤ maximumUploadBytes :=
    (of_decide_eq_true hlength).2
  exact ⟨fun h => h.1,fun h => ⟨h,by omega⟩⟩

/-- The bytes which are kept are never more than the upload declares. -/
theorem collected_bounded (hsized : Sized upload.expectedContentLength size)
    {read : ObjectStream} {bytes : Bytes} (h : read.foldlM (collectChunk size) [] = .ok bytes) :
    (bytes.length : ℤ) ≤ upload.expectedContentLength := by
  have hbound := maximumUploadBytes_lt
  have hcapacity : size < usizeBound-1 := by
    have hmaximum := hsized.2
    unfold usizeBound
    omega
  have hlength := collect_bounded hcapacity (Nat.zero_le _) h
  rw [← hsized.1]
  exact Int.ofNat_le.mpr hlength

end Outcomes

/-- The outcomes of both verifications are those of the content. -/
structure Exact (upload : StoredUpload) (generation : String) (size : ℕ) (chunks : List Bytes) :
    Prop where
  chunking : ∀ chunks' : List Bytes, chunks'.flatten = chunks.flatten →
    verifyStream sha256 upload generation size (streamOf chunks') =
      verifyStream sha256 upload generation size (streamOf chunks) ∧
    collectVerified sha256 upload.expectedContentLength upload.expectedDigest size
        (streamOf chunks') =
      collectVerified sha256 upload.expectedContentLength upload.expectedDigest size
        (streamOf chunks)
  verified : ∀ artifact,
    verifyStream sha256 upload generation size (streamOf chunks) = .ok artifact ↔
      Sized upload.expectedContentLength size ∧ chunks.flatten.length = size ∧
      sha256Digest (sha256.digest chunks.flatten) = upload.expectedDigest ∧
      HasMagic upload.expectedContentType chunks.flatten ∧
      artifact = ⟨generation,upload.expectedContentType,size,upload.expectedDigest⟩
  collected : ∀ bytes, collectVerified sha256 upload.expectedContentLength upload.expectedDigest
      size (streamOf chunks) = .ok bytes ↔
    Sized upload.expectedContentLength size ∧ chunks.flatten.length = size ∧
    sha256Digest (sha256.digest chunks.flatten) = upload.expectedDigest ∧ bytes = chunks.flatten
  stored : validateUpload upload = true → size = chunks.flatten.length →
    (Sized upload.expectedContentLength size ↔
      (chunks.flatten.length : ℤ) = upload.expectedContentLength)
  buffered : ∀ (read : ObjectStream),
    (∀ reading, read.foldlM
        (readChunk maximumUploadBytes upload.expectedContentLength.toNat) Reading.start =
          .ok reading →
      reading.leading.length ≤ 12 ∧
      reading.sent.flatten.length ≤ maximumUploadBytes ∧
      reading.sent.flatten.length ≤ upload.expectedContentLength.toNat) ∧
    (Sized upload.expectedContentLength size → ∀ bytes,
      read.foldlM (collectChunk size) [] = .ok bytes →
        (bytes.length : ℤ) ≤ upload.expectedContentLength)

theorem verification_exact (upload : StoredUpload) (generation : String) (size : ℕ)
    (chunks : List Bytes) : Exact sha256 upload generation size chunks := by
  constructor
  · exact fun chunks' h =>
      ⟨verifyStream_chunking sha256 generation h,collectVerified_chunking sha256 h⟩
  · exact fun artifact => verifyStream_ok sha256
  · exact fun bytes => collectVerified_ok sha256
  · intro hvalid hsize
    rw [← hsize]
    exact sized_of_valid hvalid
  · intro read
    constructor
    · intro reading hread
      have hbounded := read_bounded start_bounded hread
      rw [hbounded.sent]
      exact ⟨hbounded.leading,hbounded.maximum,hbounded.expected⟩
    · exact fun hsized bytes hbytes => collected_bounded hsized hbytes

end DocumentIntelligence.ContentVerification
