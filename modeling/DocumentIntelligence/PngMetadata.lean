import DocumentIntelligence.BigEndian
import DocumentIntelligence.Table

/-!
# The metadata of a PNG

The walk over the chunks of an image counts the bytes of its metadata before the
image is decoded. An index outside of a slice and an arithmetic overflow are results
of their own, `panic`, beside the error which the walk returns. The inflater is a
parameter.
-/

set_option autoImplicit false

namespace DocumentIntelligence.PngMetadata
open BigEndian
open Table (bind_ok ok_bind ite_ok_iff)

inductive Stop where
  | invalidDocument
  | panic
  deriving DecidableEq, Repr

/-! ### Slices and numbers -/

/-- `bytes.get(start..).ok_or(..)` -/
def getFrom (bytes : Bytes) (start : ℕ) : Except Stop Bytes :=
  if start ≤ bytes.length then .ok (bytes.drop start) else .error .invalidDocument

/-- `bytes.get(..finish).ok_or(..)` -/
def getTo (bytes : Bytes) (finish : ℕ) : Except Stop Bytes :=
  if finish ≤ bytes.length then .ok (bytes.take finish) else .error .invalidDocument

/-- `&bytes[start..finish]` -/
def slice (bytes : Bytes) (start finish : ℕ) : Except Stop Bytes :=
  if start ≤ finish ∧ finish ≤ bytes.length then .ok ((bytes.take finish).drop start)
  else .error .panic

/-- `bytes[i]` -/
def index (bytes : Bytes) (i : ℕ) : Except Stop UInt8 :=
  match bytes[i]? with
  | some byte => .ok byte
  | none => .error .panic

def add (a b : ℕ) : Except Stop ℕ := if a+b < usizeBound then .ok (a+b) else .error .panic

def sub (a b : ℕ) : Except Stop ℕ := if b ≤ a then .ok (a-b) else .error .panic

def checkedAdd (a b : ℕ) : Except Stop ℕ :=
  if a+b < usizeBound then .ok (a+b) else .error .invalidDocument

def checkedSub (a b : ℕ) : Except Stop ℕ :=
  if b ≤ a then .ok (a-b) else .error .invalidDocument

/-! ### The walk -/

def maximumPngMetadataBytes : ℕ := 1024*1024

/-- `fdeflate::decompress_to_vec_bounded`, which fails where its output would be longer
than the bound. -/
structure Inflater where
  decompressToVecBounded : Bytes → ℕ → Option Bytes
  bounded : ∀ compressed limit decoded, decompressToVecBounded compressed limit = some decoded →
    decoded.length ≤ limit

def isAsciiLowercase (byte : UInt8) : Bool := decide (97 ≤ byte ∧ byte ≤ 122)

def pngTextField (data : Bytes) : Except Stop Bytes := do
  match data.findIdx? (· == 0) with
  | none => .error .invalidDocument
  | some finish => slice data (← add finish 1) data.length

/-- The compressed text in the data of a chunk. -/
def compressedText (kind data : Bytes) : Except Stop (Option Bytes) := do
  if kind = ascii "iCCP" ∨ kind = ascii "zTXt" then
    let value ← pngTextField data
    if value.head? ≠ some 0 then .error .invalidDocument
    else .ok (some (← slice value 1 value.length))
  else if kind = ascii "iTXt" then
    let value ← pngTextField data
    let flags ← getTo value 2
    let compression ← index flags 0
    let method ← index flags 1
    if 1 < compression ∨ method ≠ 0 then .error .invalidDocument
    else
      let language ← pngTextField (← slice value 2 value.length)
      let text ← pngTextField language
      .ok (if compression = 1 then some text else none)
  else .ok none

/-- The chunk counts for the metadata. -/
def counted (kind : Bytes) : Except Stop Bool := do
  .ok (isAsciiLowercase (← index kind 0) && kind != ascii "fdAT")

def countData (kind data : Bytes) (remaining : ℕ) : Except Stop ℕ := do
  if ← counted kind then checkedSub remaining data.length else .ok remaining

def countText (inflater : Inflater) (compressed : Option Bytes) (remaining : ℕ) :
    Except Stop ℕ :=
  match compressed with
  | none => .ok remaining
  | some compressed => match inflater.decompressToVecBounded compressed remaining with
    | none => .error .invalidDocument
    | some decoded => checkedSub remaining decoded.length

/-- What a round of the loop leaves. -/
structure Walked where
  kind : Bytes
  chunks : Bytes
  remaining : ℕ

def walkChunk (inflater : Inflater) (chunks : Bytes) (remaining : ℕ) : Except Stop Walked := do
  let header ← getTo chunks 8
  let length := fromBeBytes (← slice header 0 4)
  let finish ← checkedAdd length 12
  let chunk ← getTo chunks finish
  let kind ← slice header 4 header.length
  let data ← slice chunk 8 (← sub finish 4)
  let remaining ← countData kind data remaining
  let compressed ← compressedText kind data
  let remaining ← countText inflater compressed remaining
  let chunks ← slice chunks finish chunks.length
  .ok ⟨kind,chunks,remaining⟩

theorem getTo_ok {bytes value : Bytes} {finish : ℕ} :
    getTo bytes finish = .ok value ↔ finish ≤ bytes.length ∧ value = bytes.take finish :=
  ite_ok_iff

theorem slice_ok {bytes value : Bytes} {start finish : ℕ} : slice bytes start finish = .ok value ↔
    (start ≤ finish ∧ finish ≤ bytes.length) ∧ value = (bytes.take finish).drop start :=
  ite_ok_iff

theorem checkedAdd_ok {a b c : ℕ} : checkedAdd a b = .ok c ↔ a+b < usizeBound ∧ c = a+b :=
  ite_ok_iff

/-- A round takes at least the twelve bytes around the data. -/
theorem walkChunk_shorter {inflater : Inflater} {chunks : Bytes} {remaining : ℕ} {walked : Walked}
    (h : walkChunk inflater chunks remaining = .ok walked) :
    walked.chunks.length < chunks.length := by
  obtain ⟨header,_,h⟩ := bind_ok.mp h
  obtain ⟨prefixed,_,h⟩ := bind_ok.mp h
  obtain ⟨finish,hfinish,h⟩ := bind_ok.mp h
  obtain ⟨chunk,hchunk,h⟩ := bind_ok.mp h
  obtain ⟨kind,_,h⟩ := bind_ok.mp h
  obtain ⟨stop,_,h⟩ := bind_ok.mp h
  obtain ⟨data,_,h⟩ := bind_ok.mp h
  obtain ⟨counted,_,h⟩ := bind_ok.mp h
  obtain ⟨compressed,_,h⟩ := bind_ok.mp h
  obtain ⟨left,_,h⟩ := bind_ok.mp h
  obtain ⟨rest,hrest,h⟩ := bind_ok.mp h
  rw [Except.ok.injEq] at h
  have hlong := (getTo_ok.mp hchunk).1
  have hpos := (checkedAdd_ok.mp hfinish).2
  rw [← h, (slice_ok.mp hrest).2, List.length_drop, List.length_take]
  omega

def walk (inflater : Inflater) (chunks : Bytes) (remaining : ℕ) : Except Stop Unit :=
  if chunks.isEmpty then .error .invalidDocument
  else match _h : walkChunk inflater chunks remaining with
    | .error e => .error e
    | .ok walked =>
      if walked.kind = ascii "IEND" then .ok () else walk inflater walked.chunks walked.remaining
  termination_by chunks.length
  decreasing_by exact walkChunk_shorter _h

def validatePngMetadata (inflater : Inflater) (encoded : Bytes) : Except Stop Unit := do
  walk inflater (← getFrom encoded 8) maximumPngMetadataBytes

/-! ### No panic -/

/-- The result is no panic. -/
def Safe {α : Type} (x : Except Stop α) : Prop := x ≠ .error .panic

theorem safe_ok {α : Type} (a : α) : Safe (.ok a : Except Stop α) := nofun

theorem safe_invalid {α : Type} : Safe (.error .invalidDocument : Except Stop α) := nofun

theorem safe_bind {α β : Type} {x : Except Stop α} {f : α → Except Stop β} (hx : Safe x)
    (hf : ∀ a, x = .ok a → Safe (f a)) : Safe (x >>= f) := by
  cases x with
  | ok a => exact hf a rfl
  | error e =>
    cases e with
    | panic => exact absurd rfl hx
    | invalidDocument => exact safe_invalid

theorem getTo_safe (bytes : Bytes) (finish : ℕ) : Safe (getTo bytes finish) := by
  rw [getTo]
  split
  · exact safe_ok _
  · exact safe_invalid

theorem slice_safe {bytes : Bytes} {start finish : ℕ} (hstart : start ≤ finish)
    (hfinish : finish ≤ bytes.length) : Safe (slice bytes start finish) := by
  rw [slice, if_pos ⟨hstart,hfinish⟩]
  exact safe_ok _

theorem index_safe {bytes : Bytes} {i : ℕ} (h : i < bytes.length) : Safe (index bytes i) := by
  rw [index, List.getElem?_eq_getElem h]
  exact safe_ok _

theorem checkedAdd_safe (a b : ℕ) : Safe (checkedAdd a b) := by
  rw [checkedAdd]
  split
  · exact safe_ok _
  · exact safe_invalid

theorem checkedSub_safe (a b : ℕ) : Safe (checkedSub a b) := by
  rw [checkedSub]
  split
  · exact safe_ok _
  · exact safe_invalid

theorem pngTextField_safe {data : Bytes} (h : data.length < usizeBound) :
    Safe (pngTextField data) := by
  rw [pngTextField]
  split
  · exact safe_invalid
  · rename_i finish hfinish
    have hlt : finish < data.length := (List.findIdx?_eq_some_iff_findIdx_eq.mp hfinish).1
    rw [add, if_pos (by omega)]
    exact slice_safe (by omega) (by omega)

theorem pngTextField_length {data value : Bytes} (h : pngTextField data = .ok value) :
    value.length ≤ data.length := by
  rw [pngTextField] at h
  split at h
  · cases h
  · obtain ⟨start,_,hslice⟩ := bind_ok.mp h
    rw [(slice_ok.mp hslice).2, List.length_drop, List.length_take]
    omega

theorem compressedText_safe (kind : Bytes) {data : Bytes} (h : data.length < usizeBound) :
    Safe (compressedText kind data) := by
  rw [compressedText]
  split
  · apply safe_bind (pngTextField_safe h)
    intro value _
    split
    · exact safe_invalid
    · rename_i hzero
      have hpos : 1 ≤ value.length := by
        cases value with
        | nil => simp at hzero
        | cons byte bytes => simp
      apply safe_bind (slice_safe hpos le_rfl)
      exact fun _ _ => safe_ok _
  split
  · apply safe_bind (pngTextField_safe h)
    intro value hvalue
    have hlength := pngTextField_length hvalue
    apply safe_bind (getTo_safe value 2)
    intro flags hflags
    obtain ⟨htwo,rfl⟩ := getTo_ok.mp hflags
    have htaken : (value.take 2).length = 2 := by
      rw [List.length_take]
      omega
    apply safe_bind (index_safe (by omega))
    intro compression _
    apply safe_bind (index_safe (by omega))
    intro method _
    split
    · exact safe_invalid
    · apply safe_bind (slice_safe htwo le_rfl)
      intro tail htail
      have htailLength : tail.length ≤ value.length := by
        rw [(slice_ok.mp htail).2, List.length_drop, List.length_take]
        omega
      apply safe_bind (pngTextField_safe (by omega))
      intro language hlanguage
      have hlanguageLength := pngTextField_length hlanguage
      apply safe_bind (pngTextField_safe (by omega))
      exact fun _ _ => safe_ok _
  · exact safe_ok _

theorem countData_safe {kind : Bytes} (h : 0 < kind.length) (data : Bytes) (remaining : ℕ) :
    Safe (countData kind data remaining) := by
  apply safe_bind
  · exact safe_bind (index_safe h) fun _ _ => safe_ok _
  · intro isCounted _
    split
    · exact checkedSub_safe _ _
    · exact safe_ok _

theorem countText_safe (inflater : Inflater) (compressed : Option Bytes) (remaining : ℕ) :
    Safe (countText inflater compressed remaining) := by
  cases compressed with
  | none => exact safe_ok _
  | some compressed =>
    rw [countText]
    cases inflater.decompressToVecBounded compressed remaining with
    | none => exact safe_invalid
    | some decoded => exact checkedSub_safe _ _

theorem walkChunk_safe (inflater : Inflater) (chunks : Bytes) (remaining : ℕ) :
    Safe (walkChunk inflater chunks remaining) := by
  apply safe_bind (getTo_safe chunks 8)
  intro header hheader
  obtain ⟨height,rfl⟩ := getTo_ok.mp hheader
  have hlength : (chunks.take 8).length = 8 := by
    rw [List.length_take]
    omega
  apply safe_bind (slice_safe (by omega) (by omega))
  intro lengthBytes hlengthBytes
  have hfour : lengthBytes.length = 4 := by
    rw [(slice_ok.mp hlengthBytes).2, List.length_drop, List.length_take, hlength]
    rfl
  have hbound : fromBeBytes lengthBytes < 2^32 := by
    have h := fromBeBytes_lt lengthBytes
    rw [hfour] at h
    exact h
  apply safe_bind (checkedAdd_safe (fromBeBytes lengthBytes) 12)
  intro finish hadd
  obtain ⟨_,rfl⟩ := checkedAdd_ok.mp hadd
  apply safe_bind (getTo_safe chunks _)
  intro chunk hchunk
  obtain ⟨hfinish,rfl⟩ := getTo_ok.mp hchunk
  have hchunkLength : (chunks.take (fromBeBytes lengthBytes+12)).length =
      fromBeBytes lengthBytes+12 := by
    rw [List.length_take]
    omega
  apply safe_bind (slice_safe (by omega) le_rfl)
  intro kind hkind
  have hkindLength : kind.length = 4 := by
    rw [(slice_ok.mp hkind).2, List.length_drop, List.length_take, hlength]
    rfl
  rw [sub, if_pos (by omega)]
  apply safe_bind (slice_safe (by omega) (by omega))
  intro data hdata
  have hdataLength : data.length < usizeBound := by
    rw [(slice_ok.mp hdata).2, List.length_drop, List.length_take]
    unfold usizeBound
    omega
  apply safe_bind (countData_safe (by omega) data remaining)
  intro left _
  apply safe_bind (compressedText_safe kind hdataLength)
  intro compressed _
  apply safe_bind (countText_safe inflater compressed left)
  intro left' _
  apply safe_bind (slice_safe (by omega) le_rfl)
  exact fun _ _ => safe_ok _

theorem walk_safe (inflater : Inflater) (chunks : Bytes) (remaining : ℕ) :
    Safe (walk inflater chunks remaining) := by
  fun_induction walk inflater chunks remaining with
  | case1 chunks remaining hempty => exact safe_invalid
  | case2 chunks remaining hempty e herror =>
    have hsafe := walkChunk_safe inflater chunks remaining
    rw [herror] at hsafe
    cases e with
    | invalidDocument => exact safe_invalid
    | panic => exact absurd rfl hsafe
  | case3 chunks remaining hempty walked hwalked hend => exact safe_ok _
  | case4 chunks remaining hempty walked hwalked hend ih => exact ih

theorem validatePngMetadata_safe (inflater : Inflater) (encoded : Bytes) :
    Safe (validatePngMetadata inflater encoded) := by
  rw [validatePngMetadata, getFrom]
  split
  · exact walk_safe inflater _ _
  · exact safe_invalid

/-! ### The chunks of an image -/

@[ext] structure Chunk where
  kind : Bytes
  data : Bytes
  crc : Bytes
  kind_length : kind.length = 4
  data_length : data.length < 2^32
  crc_length : crc.length = 4

def Chunk.bytes (c : Chunk) : Bytes := toBeBytes c.data.length++c.kind++c.data++c.crc

theorem Chunk.length_bytes (c : Chunk) : c.bytes.length = c.data.length+12 := by
  simp only [Chunk.bytes, toBeBytes, List.length_append, List.length_cons, List.length_nil,
    c.kind_length, c.crc_length]
  omega

/-- A round on a chunk, with what it makes of its data. -/
theorem walkChunk_bytes (inflater : Inflater) (c : Chunk) (rest : Bytes) (remaining : ℕ) :
    walkChunk inflater (c.bytes++rest) remaining = (do
      let remaining ← countData c.kind c.data remaining
      let compressed ← compressedText c.kind c.data
      let remaining ← countText inflater compressed remaining
      .ok ⟨c.kind,rest,remaining⟩) := by
  have hlength := c.length_bytes
  have hheader : (c.bytes++rest).take 8 = toBeBytes c.data.length++c.kind := by
    rw [Chunk.bytes, List.append_assoc, List.append_assoc]
    apply List.take_left'
    simp only [toBeBytes, List.length_append, List.length_cons, List.length_nil, c.kind_length]
  have hbe : (toBeBytes c.data.length).length = 4 := rfl
  have hheaderLength : (toBeBytes c.data.length++c.kind).length = 8 := by
    rw [List.length_append, hbe, c.kind_length]
  have hlengthBytes : ((toBeBytes c.data.length++c.kind).take 4).drop 0 = toBeBytes c.data.length := by
    rw [List.drop_zero]
    exact List.take_left' hbe
  have hkind : ((toBeBytes c.data.length++c.kind).take 8).drop 4 = c.kind := by
    rw [List.take_of_length_le hheaderLength.le]
    exact List.drop_left' hbe
  have hdata : (c.bytes.take (c.data.length+12-4)).drop 8 = c.data := by
    have hsplit : c.bytes = (toBeBytes c.data.length++c.kind++c.data)++c.crc := rfl
    rw [hsplit, List.take_left' ?_, List.drop_left' hheaderLength]
    rw [List.length_append, hheaderLength]
    omega
  have hget : getTo (c.bytes++rest) 8 = .ok (toBeBytes c.data.length++c.kind) :=
    getTo_ok.mpr ⟨by rw [List.length_append]; omega,hheader.symm⟩
  have hfour : slice (toBeBytes c.data.length++c.kind) 0 4 = .ok (toBeBytes c.data.length) :=
    slice_ok.mpr ⟨⟨by omega,by omega⟩,hlengthBytes.symm⟩
  have hadd : checkedAdd (fromBeBytes (toBeBytes c.data.length)) 12 = .ok (c.data.length+12) := by
    have hbound := c.data_length
    rw [fromBeBytes_toBeBytes hbound]
    exact checkedAdd_ok.mpr ⟨by unfold usizeBound; omega,rfl⟩
  have hchunk : getTo (c.bytes++rest) (c.data.length+12) = .ok c.bytes :=
    getTo_ok.mpr ⟨by rw [List.length_append]; omega,(List.take_left' hlength).symm⟩
  have hkindSlice : slice (toBeBytes c.data.length++c.kind) 4
      (toBeBytes c.data.length++c.kind).length = .ok c.kind :=
    slice_ok.mpr ⟨⟨by omega,le_rfl⟩,by rw [hheaderLength, hkind]⟩
  have hsub : sub (c.data.length+12) 4 = .ok (c.data.length+12-4) := if_pos (by omega)
  have hdataSlice : slice c.bytes 8 (c.data.length+12-4) = .ok c.data :=
    slice_ok.mpr ⟨⟨by omega,by omega⟩,hdata.symm⟩
  have hrest : slice (c.bytes++rest) (c.data.length+12) (c.bytes++rest).length = .ok rest := by
    refine slice_ok.mpr ⟨⟨by rw [List.length_append]; omega,le_rfl⟩,?_⟩
    rw [List.take_of_length_le le_rfl]
    exact (List.drop_left' hlength).symm
  simp only [walkChunk, hget, hfour, hadd, hchunk, hkindSlice, hsub, hdataSlice, hrest,
    ok_bind]

/-- A round which succeeds was on a chunk. -/
theorem walkChunk_split {inflater : Inflater} {chunks : Bytes} {remaining : ℕ} {walked : Walked}
    (h : walkChunk inflater chunks remaining = .ok walked) :
    ∃ c : Chunk, ∃ rest, chunks = c.bytes++rest := by
  obtain ⟨header,hheader,h⟩ := bind_ok.mp h
  obtain ⟨lengthBytes,hlengthBytes,h⟩ := bind_ok.mp h
  obtain ⟨finish,hfinish,h⟩ := bind_ok.mp h
  obtain ⟨chunk,hchunk,_⟩ := bind_ok.mp h
  obtain ⟨height,rfl⟩ := getTo_ok.mp hheader
  obtain ⟨_,hfour⟩ := slice_ok.mp hlengthBytes
  obtain ⟨_,rfl⟩ := checkedAdd_ok.mp hfinish
  obtain ⟨hlong,rfl⟩ := getTo_ok.mp hchunk
  rw [List.drop_zero, List.take_take, show min 4 8 = 4 from rfl] at hfour
  have hlength : lengthBytes.length = 4 := by
    rw [hfour, List.length_take]
    omega
  have hbound : fromBeBytes lengthBytes < 2^32 := by
    have h := fromBeBytes_lt lengthBytes
    rw [hlength] at h
    exact h
  let n := fromBeBytes lengthBytes
  have hdataLength : ((chunks.drop 8).take n).length = n := by
    rw [List.length_take, List.length_drop]
    omega
  refine ⟨⟨(chunks.drop 4).take 4,(chunks.drop 8).take n,(chunks.drop (n+8)).take 4,?_,?_,?_⟩,
    chunks.drop (n+12),?_⟩
  · rw [List.length_take, List.length_drop]
    omega
  · rw [hdataLength]
    exact hbound
  · rw [List.length_take, List.length_drop]
    omega
  · have hbe : toBeBytes n = chunks.take 4 := by rw [← hfour]; exact toBeBytes_fromBeBytes hlength
    have hjoin : ∀ a b : ℕ, chunks.drop a = (chunks.drop a).take b++chunks.drop (a+b) := by
      intro a b
      rw [← List.drop_drop, List.take_append_drop]
    simp only [Chunk.bytes, hdataLength, hbe, List.append_assoc]
    rw [← hjoin (n+8) 4, Nat.add_comm n 8, ← hjoin 8 n, ← hjoin 4 4, List.take_append_drop]

/-! ### What the walk counts -/

/-- The data of the chunk is metadata, by the first letter of its kind. -/
def Chunk.ancillary (c : Chunk) : Bool := c.kind.head?.any isAsciiLowercase

/-- The bytes of the chunk's data, if it is metadata and no frame of an animation. -/
def Chunk.metadataBytes (c : Chunk) : ℕ :=
  if c.ancillary && c.kind != ascii "fdAT" then c.data.length else 0

/-- What the inflater has made of the compressed text of the chunk. -/
def Inflated (inflater : Inflater) (c : Chunk) (decoded : Bytes) : Prop :=
  ∃ compressed, compressedText c.kind c.data = .ok compressed ∧ match compressed with
    | none => decoded = []
    | some compressed => ∃ limit ≤ maximumPngMetadataBytes,
      inflater.decompressToVecBounded compressed limit = some decoded

/-- The chunks of the bytes up to the first `IEND`. -/
inductive Chunks : Bytes → List Chunk → Prop
  | last {c : Chunk} (rest : Bytes) : c.kind = ascii "IEND" → Chunks (c.bytes++rest) [c]
  | next {c : Chunk} {rest : Bytes} {cs : List Chunk} : c.kind ≠ ascii "IEND" → Chunks rest cs →
      Chunks (c.bytes++rest) (c::cs)

theorem counted_kind (c : Chunk) :
    counted c.kind = .ok (c.ancillary && c.kind != ascii "fdAT") := by
  have hlength := c.kind_length
  cases hkind : c.kind with
  | nil => simp [hkind] at hlength
  | cons byte kind =>
    rw [counted, index, Chunk.ancillary, hkind]
    rfl

theorem checkedSub_ok {a b c : ℕ} : checkedSub a b = .ok c ↔ c+b = a := by
  rw [checkedSub, ite_ok_iff]
  omega

theorem countData_ok {c : Chunk} {remaining left : ℕ}
    (h : countData c.kind c.data remaining = .ok left) : left+c.metadataBytes = remaining := by
  obtain ⟨isCounted,hcounted,h⟩ := bind_ok.mp h
  rw [counted_kind, Except.ok.injEq] at hcounted
  rw [Chunk.metadataBytes, hcounted]
  split at h
  · rename_i hyes
    rw [if_pos hyes]
    exact checkedSub_ok.mp h
  · rename_i hno
    rw [if_neg hno]
    rw [Except.ok.injEq] at h
    exact h.symm

theorem countText_ok {inflater : Inflater} {c : Chunk} {compressed : Option Bytes}
    {remaining left : ℕ} (hcompressed : compressedText c.kind c.data = .ok compressed)
    (hremaining : remaining ≤ maximumPngMetadataBytes)
    (h : countText inflater compressed remaining = .ok left) :
    ∃ decoded, Inflated inflater c decoded ∧ left+decoded.length = remaining := by
  cases compressed with
  | none =>
    rw [countText, Except.ok.injEq] at h
    exact ⟨[],⟨none,hcompressed,rfl⟩,h.symm⟩
  | some compressed =>
    rw [countText] at h
    cases hdecoded : inflater.decompressToVecBounded compressed remaining with
    | none =>
      rw [hdecoded] at h
      cases h
    | some decoded =>
      rw [hdecoded] at h
      exact ⟨decoded,⟨some compressed,hcompressed,remaining,hremaining,hdecoded⟩,checkedSub_ok.mp h⟩

/-- A round takes the bytes of its chunk from what remains. -/
theorem walkChunk_ok {inflater : Inflater} {chunks : Bytes} {remaining : ℕ} {walked : Walked}
    (hremaining : remaining ≤ maximumPngMetadataBytes)
    (h : walkChunk inflater chunks remaining = .ok walked) :
    ∃ (c : Chunk) (decoded : Bytes), chunks = c.bytes++walked.chunks ∧ walked.kind = c.kind ∧
      Inflated inflater c decoded ∧
      walked.remaining+(c.metadataBytes+decoded.length) = remaining := by
  obtain ⟨c,rest,rfl⟩ := walkChunk_split h
  rw [walkChunk_bytes] at h
  obtain ⟨left,hleft,h⟩ := bind_ok.mp h
  obtain ⟨compressed,hcompressed,h⟩ := bind_ok.mp h
  obtain ⟨left',hleft',h⟩ := bind_ok.mp h
  rw [Except.ok.injEq] at h
  have hdata := countData_ok hleft
  obtain ⟨decoded,hinflated,htext⟩ := countText_ok hcompressed (by omega) hleft'
  rw [← h]
  have hsum : left'+(c.metadataBytes+decoded.length) = remaining := by omega
  exact ⟨c,decoded,rfl,rfl,hinflated,hsum⟩

/-- The metadata and the decompressed texts of an image's chunks, up to its end. -/
def Measured (inflater : Inflater) (chunks : Bytes) (remaining : ℕ) : Prop :=
  ∃ (cs : List Chunk) (decoded : List Bytes), Chunks chunks cs ∧
    List.Forall₂ (Inflated inflater) cs decoded ∧
    (cs.map Chunk.metadataBytes).sum+(decoded.map List.length).sum ≤ remaining

theorem walk_measured {inflater : Inflater} {chunks : Bytes} {remaining : ℕ}
    (hremaining : remaining ≤ maximumPngMetadataBytes)
    (h : walk inflater chunks remaining = .ok ()) : Measured inflater chunks remaining := by
  fun_induction walk inflater chunks remaining with
  | case1 chunks remaining hempty => cases h
  | case2 chunks remaining hempty e herror => cases h
  | case3 chunks remaining hempty walked hwalked hend =>
    obtain ⟨c,decoded,rfl,hkind,hinflated,hsum⟩ := walkChunk_ok hremaining hwalked
    refine ⟨[c],[decoded],.last _ (hkind ▸ hend),.cons hinflated .nil,?_⟩
    simp only [List.map_cons, List.map_nil, List.sum_cons, List.sum_nil]
    omega
  | case4 chunks remaining hempty walked hwalked hend ih =>
    obtain ⟨c,decoded,rfl,hkind,hinflated,hsum⟩ := walkChunk_ok hremaining hwalked
    obtain ⟨cs,decodeds,hchunks,hall,hrest⟩ := ih (by omega) h
    refine ⟨c::cs,decoded::decodeds,.next (hkind ▸ hend) hchunks,.cons hinflated hall,?_⟩
    simp only [List.map_cons, List.sum_cons]
    omega

/-- The walk ends without a panic, and an image which it accepts has its end, and no
more metadata before it than the limit. -/
theorem validatePngMetadata_measured (inflater : Inflater) (encoded : Bytes) :
    Safe (validatePngMetadata inflater encoded) ∧
    (validatePngMetadata inflater encoded = .ok () → 8 ≤ encoded.length ∧
      Measured inflater (encoded.drop 8) maximumPngMetadataBytes) := by
  constructor
  · exact validatePngMetadata_safe inflater encoded
  · intro h
    rw [validatePngMetadata, getFrom] at h
    split at h
    · rename_i hlength
      exact ⟨hlength,walk_measured le_rfl h⟩
    · cases h

/-! ### The frames of an animation -/

theorem Chunk.bytes_inj {c d : Chunk} {rest rest' : Bytes} (h : c.bytes++rest = d.bytes++rest') :
    c = d ∧ rest = rest' := by
  simp only [Chunk.bytes, List.append_assoc] at h
  have hlengths := List.append_inj_left h rfl
  have hlength : c.data.length = d.data.length := by
    rw [← fromBeBytes_toBeBytes c.data_length, hlengths, fromBeBytes_toBeBytes d.data_length]
  have h := List.append_inj_right h rfl
  have hkind : c.kind = d.kind :=
    List.append_inj_left h (c.kind_length.trans d.kind_length.symm)
  have h := List.append_inj_right h (c.kind_length.trans d.kind_length.symm)
  have hdata : c.data = d.data := List.append_inj_left h hlength
  have h := List.append_inj_right h hlength
  have hcrc : c.crc = d.crc := List.append_inj_left h (c.crc_length.trans d.crc_length.symm)
  have hrest := List.append_inj_right h (c.crc_length.trans d.crc_length.symm)
  exact ⟨Chunk.ext hkind hdata hcrc,hrest⟩

theorem Chunks.cons_inv {c : Chunk} {rest : Bytes} {cs : List Chunk}
    (h : Chunks (c.bytes++rest) cs) : ∃ cs', cs = c::cs' := by
  generalize hbytes : c.bytes++rest = bytes at h
  cases h with
  | last rest' hend =>
    obtain ⟨rfl,_⟩ := Chunk.bytes_inj hbytes
    exact ⟨[],rfl⟩
  | next hend hchunks =>
    obtain ⟨rfl,_⟩ := Chunk.bytes_inj hbytes
    exact ⟨_,rfl⟩

def refusing : Inflater := ⟨fun _ _ => none,nofun⟩

def frameData : Chunk where
  kind := ascii "fdAT"
  data := List.replicate (maximumPngMetadataBytes+1) 0
  crc := [0,0,0,0]
  kind_length := rfl
  data_length := by
    rw [List.length_replicate]
    decide
  crc_length := rfl

def imageEnd : Chunk where
  kind := ascii "IEND"
  data := []
  crc := [0,0,0,0]
  kind_length := rfl
  data_length := by decide
  crc_length := rfl

def animated : Bytes := List.replicate 8 0++(frameData.bytes++imageEnd.bytes)

theorem animated_drop : animated.drop 8 = frameData.bytes++imageEnd.bytes :=
  List.drop_left' List.length_replicate

theorem walkChunk_frame : walkChunk refusing (frameData.bytes++imageEnd.bytes) maximumPngMetadataBytes =
    .ok ⟨ascii "fdAT",imageEnd.bytes,maximumPngMetadataBytes⟩ := by
  rw [walkChunk_bytes]
  rfl

theorem walkChunk_end : walkChunk refusing imageEnd.bytes maximumPngMetadataBytes =
    .ok ⟨ascii "IEND",[],maximumPngMetadataBytes⟩ := by
  have h := walkChunk_bytes refusing imageEnd [] maximumPngMetadataBytes
  rw [List.append_nil] at h
  rw [h]
  rfl

/-- The frames of an animation do not count: an image is accepted whose ancillary chunk
alone is above the limit. -/
theorem animated_accepted : validatePngMetadata refusing animated = .ok () ∧
    ¬∃ (cs : List Chunk) (decoded : List Bytes), Chunks (animated.drop 8) cs ∧
      List.Forall₂ (Inflated refusing) cs decoded ∧
      ((cs.filter Chunk.ancillary).map fun c => c.data.length).sum+
        (decoded.map List.length).sum ≤ maximumPngMetadataBytes := by
  constructor
  · have hlength : 8 ≤ animated.length := by
      rw [animated, List.length_append, List.length_replicate]
      omega
    rw [validatePngMetadata, getFrom, if_pos hlength, animated_drop, ok_bind, walk,
      if_neg (by decide)]
    split
    · rename_i e herror
      rw [walkChunk_frame] at herror
      cases herror
    · rename_i walked hwalked
      rw [walkChunk_frame, Except.ok.injEq] at hwalked
      rw [← hwalked, if_neg (by decide), walk, if_neg (by decide)]
      split
      · rename_i e herror
        rw [walkChunk_end] at herror
        cases herror
      · rename_i walked' hwalked'
        rw [walkChunk_end, Except.ok.injEq] at hwalked'
        rw [← hwalked', if_pos rfl]
  · rintro ⟨cs,decoded,hchunks,_,hsum⟩
    rw [animated_drop] at hchunks
    obtain ⟨cs',rfl⟩ := hchunks.cons_inv
    have hlength : frameData.data.length = maximumPngMetadataBytes+1 := List.length_replicate
    rw [List.filter_cons_of_pos (by rfl), List.map_cons, List.sum_cons, hlength] at hsum
    omega

end DocumentIntelligence.PngMetadata
