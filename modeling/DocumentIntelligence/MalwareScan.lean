import DocumentIntelligence.BigEndian
import DocumentIntelligence.Table

/-!
# The stream to the malware scanner

The content of an upload goes to the scanner in frames, and the scanner answers when it
has their end. The connection says how many bytes it takes before a write fails and what
comes back. A deadline which passes is a failure of the connection or of the source at the
place where the call waits, since all of them are `Unavailable`.
-/

set_option autoImplicit false

namespace DocumentIntelligence.MalwareScan
open BigEndian
open Table (bind_ok)

inductive MalwareScanOutcome where
  | clean
  | infected
  deriving DecidableEq, Repr

inductive MalwareScanError where
  | unavailable
  | limitExceeded
  | invalidResponse
  deriving DecidableEq, Repr

def maximumChunkBytes : ℕ := 1024*1024

def maximumResponseBytes : ℕ := 1024

/-- The limit of the scanner, which is a `usize` above zero. -/
structure ClamdScanner where
  maximumBytes : ℕ
  positive : 0 < maximumBytes
  bounded : maximumBytes < usizeBound

structure Connection where
  connects : Bool
  /-- the number of bytes which are written before a write fails -/
  accepts : ℕ
  shutdown : Bool
  /-- the bytes which come back before the connection ends -/
  reply : Bytes

/-- A call with the bytes which it has sent. -/
abbrev Scan := ExceptT MalwareScanError (StateM Bytes)

def Connection.writeAll (connection : Connection) (bytes : Bytes) : Scan Unit := do
  let sent ← get
  if (sent++bytes).length ≤ connection.accepts then set (sent++bytes)
  else
    set ((sent++bytes).take connection.accepts)
    throw .unavailable

def sendPart (connection : Connection) (part : Bytes) : Scan Unit := do
  if 2^32 ≤ part.length then throw .limitExceeded
  connection.writeAll (toBeBytes part.length)
  connection.writeAll part

def sendParts (connection : Connection) : List Bytes → Scan Unit
  | [] => pure ()
  | part::parts => do
    sendPart connection part
    sendParts connection parts

/-- The chunks of the stream, of which one may be an error. -/
abbrev Source := List (Option Bytes)

def ClamdScanner.sendChunks (scanner : ClamdScanner) (connection : Connection) :
    Source → ℕ → Scan ℕ
  | [], total => pure total
  | none::_, _ => throw .unavailable
  | some chunk::source, total => do
    if usizeBound ≤ total+chunk.length then throw .limitExceeded
    let total := total+chunk.length
    if scanner.maximumBytes < total then throw .limitExceeded
    sendParts connection (chunks maximumChunkBytes chunk)
    scanner.sendChunks connection source total

def readResponse : Bytes → Bytes → Except MalwareScanError Bytes
  | [], _ => .error .unavailable
  | byte::incoming, response =>
    if byte = 0 ∨ byte = 10 then .ok response
    else if response.length = maximumResponseBytes then .error .invalidResponse
    else readResponse incoming (response++[byte])

def outcome (response : Bytes) : Except MalwareScanError MalwareScanOutcome :=
  if response = ascii "stream: OK" then .ok .clean
  else if (ascii "stream: ").isPrefixOf response ∧ (ascii " FOUND").isSuffixOf response then
    .ok .infected
  else .error .invalidResponse

def command : Bytes := ascii "zINSTREAM\x00"

def ClamdScanner.scanInner (scanner : ClamdScanner) (connection : Connection) (source : Source) :
    Scan MalwareScanOutcome := do
  if !connection.connects then throw .unavailable
  connection.writeAll command
  let total ← scanner.sendChunks connection source 0
  if total = 0 then throw .limitExceeded
  connection.writeAll terminator
  if !connection.shutdown then throw .unavailable
  let response ← ExceptT.mk (pure (readResponse connection.reply []))
  ExceptT.mk (pure (outcome response))

/-- The result of a scan and the bytes which it has sent. -/
def ClamdScanner.scan (scanner : ClamdScanner) (connection : Connection) (source : Source) :
    Except MalwareScanError MalwareScanOutcome×Bytes :=
  (scanner.scanInner connection source).run.run []

/-! ### What a call writes -/

/-- The call writes the bytes if the connection takes them, and has the result. -/
def Writes {α : Type} (connection : Connection) (x : Scan α) (bytes : Bytes)
    (result : Except MalwareScanError α) : Prop :=
  ∀ sent : Bytes, sent.length ≤ connection.accepts → x.run.run sent =
    if (sent++bytes).length ≤ connection.accepts then (result,sent++bytes)
    else (.error .unavailable,(sent++bytes).take connection.accepts)

section Rules
variable {α β : Type} {connection : Connection}

theorem writes_pure (a : α) : Writes connection (pure a) [] (.ok a) := by
  intro sent hsent
  rw [List.append_nil, if_pos hsent]
  rfl

theorem writes_throw (e : MalwareScanError) :
    Writes connection (throw e : Scan α) [] (.error e) := by
  intro sent hsent
  rw [List.append_nil, if_pos hsent]
  rfl

theorem writes_result (result : Except MalwareScanError α) :
    Writes connection (ExceptT.mk (pure result)) [] result := by
  intro sent hsent
  rw [List.append_nil, if_pos hsent]
  rfl

theorem run_bind (x : Scan α) (f : α → Scan β) (sent : Bytes) :
    (x >>= f).run.run sent = match x.run.run sent with
      | (.ok a,sent') => (f a).run.run sent'
      | (.error e,sent') => (.error e,sent') := by
  rw [ExceptT.run_bind, StateT.run_bind]
  cases x.run.run sent with
  | mk result sent' =>
    cases result with
    | ok a => rfl
    | error e => rfl

theorem writes_writeAll (bytes : Bytes) :
    Writes connection (connection.writeAll bytes) bytes (.ok ()) := by
  intro sent _
  have hget : (get : Scan Bytes).run.run sent = (.ok sent,sent) := rfl
  rw [Connection.writeAll, run_bind, hget]
  by_cases hfits : (sent++bytes).length ≤ connection.accepts
  · simp only [if_pos hfits]
    rfl
  · simp only [if_neg hfits]
    rfl

theorem Writes.bind {x : Scan α} {f : α → Scan β} {bytes bytes' : Bytes} {a : α}
    {result : Except MalwareScanError β} (hx : Writes connection x bytes (.ok a))
    (hf : Writes connection (f a) bytes' result) :
    Writes connection (x >>= f) (bytes++bytes') result := by
  intro sent hsent
  rw [run_bind, hx sent hsent, ← List.append_assoc]
  by_cases hfits : (sent++bytes).length ≤ connection.accepts
  · rw [if_pos hfits]
    exact hf (sent++bytes) hfits
  · have hlonger : ¬(sent++bytes++bytes').length ≤ connection.accepts := by
      rw [List.length_append]
      omega
    have htake : (sent++bytes++bytes').take connection.accepts =
        (sent++bytes).take connection.accepts := List.take_append_of_le_length (by omega)
    rw [if_neg hfits, if_neg hlonger, htake]

theorem Writes.bind_error {x : Scan α} {f : α → Scan β} {bytes : Bytes} {e : MalwareScanError}
    (hx : Writes connection x bytes (.error e)) :
    Writes connection (x >>= f) bytes (.error e) := by
  intro sent hsent
  rw [run_bind, hx sent hsent]
  by_cases hfits : (sent++bytes).length ≤ connection.accepts
  · rw [if_pos hfits, if_pos hfits]
  · rw [if_neg hfits, if_neg hfits]

/-- A call which writes nothing is no more than its result. -/
theorem Writes.bind_pure {x : Scan α} {f : α → Scan β} {bytes : Bytes} {a : α}
    {result : Except MalwareScanError β} (hx : Writes connection x [] (.ok a))
    (hf : Writes connection (f a) bytes result) : Writes connection (x >>= f) bytes result :=
  hx.bind hf

end Rules

/-! ### The frames of a source -/

theorem maximumChunkBytes_lt : maximumChunkBytes < 2^32 := by decide

theorem sendPart_writes (connection : Connection) {part : Bytes}
    (h : Framed maximumChunkBytes part) :
    Writes connection (sendPart connection part) (frame part) (.ok ()) := by
  have hlength := h.2
  have hbound := maximumChunkBytes_lt
  rw [sendPart, if_neg (by omega)]
  exact (writes_writeAll _).bind (writes_writeAll _)

theorem sendParts_writes (connection : Connection) {parts : List Bytes}
    (h : ∀ part ∈ parts, Framed maximumChunkBytes part) :
    Writes connection (sendParts connection parts) (encodeFrames parts) (.ok ()) := by
  induction parts with
  | nil => exact writes_pure ()
  | cons part parts ih =>
    rw [sendParts, encodeFrames, List.flatMap_cons]
    exact (sendPart_writes connection (h part List.mem_cons_self)).bind
      (ih fun p hp => h p (List.mem_cons_of_mem _ hp))

/-- The content of the chunks up to the first which fails. -/
def contents : Source → Bytes
  | [] => []
  | none::_ => []
  | some chunk::source => chunk++contents source

/-- No chunk fails, and with the bytes before them they stay within the limit. -/
def ClamdScanner.Takes (scanner : ClamdScanner) (source : Source) (total : ℕ) : Prop :=
  none ∉ source ∧ total+(contents source).length ≤ scanner.maximumBytes

/-- The frames hold what was read of the source, which is all of it where the call
succeeds. -/
structure Sends (scanner : ClamdScanner) (source : Source) (total : ℕ) (frames : List Bytes) :
    Prop where
  framed : ∀ payload ∈ frames, Framed maximumChunkBytes payload
  content : frames.flatten <+: contents source
  taken : scanner.Takes source total → frames.flatten = contents source ∧
    ∀ connection, Writes connection (scanner.sendChunks connection source total)
      (encodeFrames frames) (.ok (total+(contents source).length))
  refused : ¬scanner.Takes source total → ∃ e, ∀ connection,
    Writes connection (scanner.sendChunks connection source total) (encodeFrames frames) (.error e)

theorem sends_none (scanner : ClamdScanner) (source : Source) (total : ℕ) :
    Sends scanner (none::source) total [] := by
  constructor
  · nofun
  · exact List.nil_prefix
  · intro htakes
    exact absurd List.mem_cons_self htakes.1
  · intro _
    exact ⟨.unavailable,fun connection => writes_throw _⟩

theorem sends_over (scanner : ClamdScanner) {chunk : Bytes} (source : Source) {total : ℕ}
    (hover : scanner.maximumBytes < total+chunk.length) :
    Sends scanner (some chunk::source) total [] := by
  constructor
  · nofun
  · exact List.nil_prefix
  · intro htakes
    have hlength := htakes.2
    rw [contents, List.length_append] at hlength
    omega
  · intro _
    refine ⟨.limitExceeded,fun connection => ?_⟩
    rw [ClamdScanner.sendChunks]
    by_cases husize : usizeBound ≤ total+chunk.length
    · rw [if_pos husize]
      exact (writes_throw _).bind_error
    · rw [if_neg husize, if_pos hover]
      exact (writes_throw _).bind_error

theorem sends_some {scanner : ClamdScanner} {chunk : Bytes} {source : Source} {total : ℕ}
    {frames : List Bytes} (hfits : total+chunk.length ≤ scanner.maximumBytes)
    (h : Sends scanner source (total+chunk.length) frames) :
    Sends scanner (some chunk::source) total (chunks maximumChunkBytes chunk++frames) := by
  have hchunks := chunks_framed (show 0 < maximumChunkBytes by decide) chunk
  have hflatten := flatten_chunks (show 0 < maximumChunkBytes by decide) chunk
  have hlength : (contents (some chunk::source)).length = chunk.length+(contents source).length :=
    List.length_append
  have hbounded := scanner.bounded
  have hrun : ∀ connection, scanner.sendChunks connection (some chunk::source) total = (do
      sendParts connection (chunks maximumChunkBytes chunk)
      scanner.sendChunks connection source (total+chunk.length)) := by
    intro connection
    rw [ClamdScanner.sendChunks, if_neg (by omega), if_neg (by omega)]
  have htakes : scanner.Takes (some chunk::source) total ↔
      scanner.Takes source (total+chunk.length) := by
    rw [ClamdScanner.Takes, ClamdScanner.Takes, hlength, Nat.add_assoc, List.mem_cons, not_or]
    exact ⟨fun h => ⟨h.1.2,h.2⟩,fun h => ⟨⟨nofun,h.1⟩,h.2⟩⟩
  constructor
  · intro payload hpayload
    rcases List.mem_append.mp hpayload with hmem | hmem
    · exact hchunks payload hmem
    · exact h.framed payload hmem
  · rw [List.flatten_append, hflatten]
    exact (List.prefix_append_right_inj chunk).mpr h.content
  · intro htaken
    obtain ⟨hcontent,hwrites⟩ := h.taken (htakes.mp htaken)
    constructor
    · rw [List.flatten_append, hflatten, hcontent, contents]
    · intro connection
      rw [hrun, encodeFrames_append, hlength, ← Nat.add_assoc]
      exact (sendParts_writes connection hchunks).bind (hwrites connection)
  · intro hrefused
    obtain ⟨e,hwrites⟩ := h.refused fun htaken => hrefused (htakes.mpr htaken)
    refine ⟨e,fun connection => ?_⟩
    rw [hrun, encodeFrames_append]
    exact (sendParts_writes connection hchunks).bind (hwrites connection)

theorem sendChunks_sends (scanner : ClamdScanner) (source : Source) (total : ℕ)
    (htotal : total ≤ scanner.maximumBytes) : ∃ frames, Sends scanner source total frames := by
  induction source generalizing total with
  | nil =>
    refine ⟨[],nofun,List.nil_prefix,fun _ => ⟨rfl,fun connection => writes_pure _⟩,?_⟩
    intro hrefused
    exact absurd ⟨List.not_mem_nil,htotal⟩ hrefused
  | cons chunk source ih =>
    cases chunk with
    | none => exact ⟨[],sends_none scanner source total⟩
    | some chunk =>
      by_cases hfits : total+chunk.length ≤ scanner.maximumBytes
      · obtain ⟨frames,h⟩ := ih (total+chunk.length) hfits
        exact ⟨_,sends_some hfits h⟩
      · exact ⟨[],sends_over scanner source (by omega)⟩

/-! ### What the scanner receives -/

/-- The frames of a stream which the command announces. -/
def received (sent : Bytes) : Option (List Bytes) :=
  if sent.take command.length = command then decodeFrames (sent.drop command.length) else none

theorem received_take (bytes : Bytes) (n : ℕ) : received ((command++bytes).take n) =
    if command.length ≤ n then decodeFrames (bytes.take (n-command.length)) else none := by
  by_cases hn : command.length ≤ n
  · rw [if_pos hn, List.take_append, List.take_of_length_le hn, received, List.take_left' rfl,
      if_pos rfl, List.drop_left' rfl]
  · rw [if_neg hn, received, if_neg]
    intro heq
    have hlength := congrArg List.length heq
    rw [List.length_take, List.length_take] at hlength
    omega

/-- The source has content, all of which is within the limit. -/
def ClamdScanner.Accepted (scanner : ClamdScanner) (source : Source) : Prop :=
  none ∉ source ∧ contents source ≠ [] ∧ (contents source).length ≤ scanner.maximumBytes

theorem accepted_takes {scanner : ClamdScanner} {source : Source}
    (h : scanner.Accepted source) : scanner.Takes source 0 :=
  ⟨h.1,(Nat.zero_add _).le.trans h.2.2⟩

/-- What the scanner answers when it has the whole stream. -/
def Connection.answer (connection : Connection) : Except MalwareScanError MalwareScanOutcome :=
  if connection.shutdown then readResponse connection.reply [] >>= outcome
  else .error .unavailable

theorem writes_answer (connection : Connection) :
    Writes connection (do
      if !connection.shutdown then throw .unavailable
      let response ← ExceptT.mk (pure (readResponse connection.reply []))
      ExceptT.mk (pure (outcome response))) [] connection.answer := by
  rw [Connection.answer]
  cases connection.shutdown with
  | false => exact (writes_throw _).bind_error
  | true =>
    cases hresponse : readResponse connection.reply [] with
    | error e => exact (writes_result (.error e)).bind_error
    | ok response => exact (writes_result (.ok response)).bind_pure (writes_result (outcome response))

theorem scanInner_accepted {scanner : ClamdScanner} {source : Source} {frames : List Bytes}
    (h : Sends scanner source 0 frames) (haccepted : scanner.Accepted source)
    {connection : Connection} (hconnects : connection.connects = true) :
    Writes connection (scanner.scanInner connection source)
      (command++(encodeFrames frames++terminator)) connection.answer := by
  have hpos := List.length_pos_iff.mpr haccepted.2.1
  obtain ⟨_,hwrites⟩ := h.taken (accepted_takes haccepted)
  rw [ClamdScanner.scanInner, hconnects, if_neg (by decide)]
  apply Writes.bind (writes_writeAll _)
  apply Writes.bind (hwrites connection)
  rw [if_neg (by omega), ← List.append_nil terminator]
  apply Writes.bind (writes_writeAll _)
  exact writes_answer connection

/-- A source which is not accepted has frames without an end, and an error. -/
theorem scanInner_refused {scanner : ClamdScanner} {source : Source} {frames : List Bytes}
    (h : Sends scanner source 0 frames) (hrefused : ¬scanner.Accepted source) :
    ∃ e, ∀ connection, connection.connects = true →
      Writes connection (scanner.scanInner connection source) (command++encodeFrames frames)
        (.error e) := by
  by_cases htakes : scanner.Takes source 0
  · -- nothing is left to refuse but an empty content
    obtain ⟨_,hwrites⟩ := h.taken htakes
    have hempty : contents source = [] := by
      by_contra hne
      exact hrefused ⟨htakes.1,hne,by simpa using htakes.2⟩
    refine ⟨.limitExceeded,fun connection hconnects => ?_⟩
    rw [ClamdScanner.scanInner, hconnects, if_neg (by decide)]
    apply Writes.bind (writes_writeAll _)
    rw [← List.append_nil (encodeFrames frames)]
    apply Writes.bind (hwrites connection)
    rw [hempty, List.length_nil, if_pos rfl]
    exact (writes_throw _).bind_error
  · obtain ⟨e,hwrites⟩ := h.refused htakes
    refine ⟨e,fun connection hconnects => ?_⟩
    rw [ClamdScanner.scanInner, hconnects, if_neg (by decide)]
    apply Writes.bind (writes_writeAll _)
    exact (hwrites connection).bind_error

/-! ### The answer -/

theorem readResponse_ok {incoming response value : Bytes}
    (h : readResponse incoming response = .ok value) :
    ∃ line byte rest, incoming = line++byte::rest ∧ (byte = 0 ∨ byte = 10) ∧
      value = response++line := by
  induction incoming generalizing response with
  | nil => cases h
  | cons byte incoming ih =>
    rw [readResponse] at h
    split at h
    · rename_i hend
      rw [Except.ok.injEq] at h
      exact ⟨[],byte,incoming,rfl,hend,by rw [List.append_nil, h]⟩
    split at h
    · cases h
    · obtain ⟨line,last,rest,rfl,hend,rfl⟩ := ih h
      exact ⟨byte::line,last,rest,rfl,hend,by rw [List.append_assoc]; rfl⟩

theorem outcome_clean {response : Bytes} (h : outcome response = .ok .clean) :
    response = ascii "stream: OK" := by
  rw [outcome] at h
  split at h
  · assumption
  split at h
  · cases h
  · cases h

/-- The first line which comes back is the clean reply. -/
def Connection.RepliesClean (connection : Connection) : Prop :=
  ∃ byte rest, connection.reply = ascii "stream: OK"++byte::rest ∧ (byte = 0 ∨ byte = 10)

theorem answer_clean {connection : Connection} (h : connection.answer = .ok .clean) :
    connection.RepliesClean := by
  rw [Connection.answer] at h
  split at h
  · obtain ⟨response,hresponse,houtcome⟩ := bind_ok.mp h
    obtain ⟨line,byte,rest,hreply,hend,hline⟩ := readResponse_ok hresponse
    rw [outcome_clean houtcome, List.nil_append] at hline
    exact ⟨byte,rest,hline ▸ hreply,hend⟩
  · cases h

/-! ### The scan -/

theorem scan_disconnected (scanner : ClamdScanner) {connection : Connection}
    (h : connection.connects = false) (source : Source) :
    scanner.scan connection source = (.error .unavailable,[]) := by
  rw [ClamdScanner.scan, ClamdScanner.scanInner, h]
  rfl

theorem Writes.scan {scanner : ClamdScanner} {connection : Connection} {source : Source}
    {bytes : Bytes} {result : Except MalwareScanError MalwareScanOutcome}
    (h : Writes connection (scanner.scanInner connection source) bytes result) :
    (scanner.scan connection source).2 = bytes.take connection.accepts ∧
    (scanner.scan connection source).1 =
      if bytes.length ≤ connection.accepts then result else .error .unavailable := by
  have hrun := h [] (Nat.zero_le _)
  rw [List.nil_append] at hrun
  rw [ClamdScanner.scan, hrun]
  by_cases hfits : bytes.length ≤ connection.accepts
  · rw [if_pos hfits, if_pos hfits, List.take_of_length_le hfits]
    exact ⟨rfl,rfl⟩
  · rw [if_neg hfits, if_neg hfits]
    exact ⟨rfl,rfl⟩

section Received
variable {scanner : ClamdScanner} {connection : Connection} {source : Source} {frames : List Bytes}

theorem received_whole (hframed : ∀ payload ∈ frames, Framed maximumChunkBytes payload) {n : ℕ}
    (h : (command++(encodeFrames frames++terminator)).length ≤ n) :
    received ((command++(encodeFrames frames++terminator)).take n) = some frames := by
  rw [List.take_of_length_le h, received, List.take_left' rfl, if_pos rfl, List.drop_left' rfl]
  exact decodeFrames_encodeFrames maximumChunkBytes_lt hframed

theorem received_open (hframed : ∀ payload ∈ frames, Framed maximumChunkBytes payload) (n : ℕ) :
    received ((command++encodeFrames frames).take n) = none := by
  rw [received_take, decodeFrames_open maximumChunkBytes_lt hframed, ite_self]

/-- A source which is not accepted ends in an error, and nothing decodes. -/
theorem scan_refused (hsends : Sends scanner source 0 frames) (hrefused : ¬scanner.Accepted source)
    (connection : Connection) : (∃ e, (scanner.scan connection source).1 = .error e) ∧
      received (scanner.scan connection source).2 = none ∧
      (connection.connects = true → (scanner.scan connection source).2 =
        (command++encodeFrames frames).take connection.accepts) := by
  cases hconnects : connection.connects with
  | false =>
    rw [scan_disconnected scanner hconnects]
    exact ⟨⟨_,rfl⟩,rfl,nofun⟩
  | true =>
    obtain ⟨e,hwrites⟩ := scanInner_refused hsends hrefused
    obtain ⟨hsent,hresult⟩ := (hwrites connection hconnects).scan
    rw [hresult, hsent]
    refine ⟨?_,received_open hsends.framed _,fun _ => rfl⟩
    split
    · exact ⟨e,rfl⟩
    · exact ⟨_,rfl⟩

/-- A clean outcome is that of a source which was sent whole, and answered. -/
theorem scan_clean (hsends : Sends scanner source 0 frames) (haccepted : scanner.Accepted source)
    (hclean : (scanner.scan connection source).1 = .ok .clean) :
    received (scanner.scan connection source).2 = some frames ∧ connection.RepliesClean := by
  cases hconnects : connection.connects with
  | false =>
    rw [scan_disconnected scanner hconnects] at hclean
    cases hclean
  | true =>
    obtain ⟨hsent,hresult⟩ := (scanInner_accepted hsends haccepted hconnects).scan
    rw [hresult] at hclean
    split at hclean
    · rename_i hfits
      exact ⟨hsent ▸ received_whole hsends.framed hfits,answer_clean hclean⟩
    · cases hclean

end Received

end DocumentIntelligence.MalwareScan
