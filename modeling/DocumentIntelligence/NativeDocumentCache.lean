import DocumentIntelligence.PageArtifacts
import DocumentIntelligence.Table
import DocumentIntelligence.Transition

/-!
# The cache of native documents

Calls of `load` share one cell for each document and run its extraction in turn,
until one of them succeeds. The map drops a cell by its reference count, which is
the number of its entries and of the calls which hold a lease of it.
-/

set_option autoImplicit false

namespace DocumentIntelligence.NativeDocumentCache
open Identifiers (ProductId TenantId JobId)
open PageArtifacts (PageRecognitionError)
open Transition

abbrev CacheKey := ProductId×TenantId×JobId

/-- The pages which an extraction returned. Each extraction allocates its own, so
the call which ran it names the allocation. -/
structure CachedPages (Pages : Type) where
  allocation : ℕ
  pages : Pages
  deriving DecidableEq

/-- Where a call of `load` is. From `leased` to `failed` it holds a lease of its
cell, and a caller which is `holding` has a `CachedDocument`. -/
inductive Phase (Pages : Type) where
  | looking
  | leased (cell : ℕ)
  | extracting (cell : ℕ)
  | loaded (cell : ℕ) (document : CachedPages Pages)
  | failed (cell : ℕ) (error : PageRecognitionError)
  | holding (document : CachedPages Pages)
  | refused (error : PageRecognitionError)
  | ended
  deriving DecidableEq

/-- `outcome` records what the extraction of the call returned. -/
structure Call (Pages : Type) where
  key : CacheKey
  phase : Phase Pages
  outcome : Option (Except PageRecognitionError Pages)

/-- The cells are numbered as they are allocated. -/
structure State (Pages : Type) where
  entries : List (CacheKey×ℕ)
  contents : ℕ → Option (CachedPages Pages)
  allocated : ℕ
  calls : List (Call Pages)

inductive Action (Pages : Type) where
  | load (key : CacheKey)
  | look (i : ℕ)
  | get (i : ℕ)
  | finish (i : ℕ) (outcome : Except PageRecognitionError Pages)
  | give (i : ℕ)
  | discard (i : ℕ)
  | cancel (i : ℕ)
  | drop (i : ℕ)

section Cache
variable {Pages : Type}

def Phase.cell? : Phase Pages → Option ℕ
  | .leased cell | .extracting cell | .loaded cell _ | .failed cell _ => some cell
  | _ => none

def Phase.document? : Phase Pages → Option (CachedPages Pages)
  | .loaded _ document | .holding document => some document
  | _ => none

def Phase.error? : Phase Pages → Option PageRecognitionError
  | .failed _ error | .refused error => some error
  | _ => none

/-- The cell whose extraction the call runs. -/
def Phase.extracts? : Phase Pages → Option ℕ
  | .extracting cell => some cell
  | _ => none

/-- The pages of the `CachedDocument` of a caller. -/
def Phase.held? : Phase Pages → Option (CachedPages Pages)
  | .holding document => some document
  | _ => none

def Phase.holds (allocation : ℕ) (phase : Phase Pages) : Bool :=
  phase.held?.any fun document => document.allocation == allocation

def State.enter (s : State Pages) (i : ℕ) (call : Call Pages) (phase : Phase Pages) :
    State Pages :=
  { s with calls := s.calls.set i { call with phase } }

/-- `Arc::strong_count(cell)` -/
def strongCount (s : State Pages) (cell : ℕ) : ℕ :=
  s.entries.countP (·.2 == cell)+s.calls.countP (·.phase.cell? == some cell)

/-- `Arc::strong_count(pages)`, for pages which a cell has. -/
def pagesCount (s : State Pages) (document : CachedPages Pages) : ℕ :=
  1+s.calls.countP (·.phase.holds document.allocation)

/-- Nobody uses the cell of the entry, nor its pages. -/
def idle (s : State Pages) (entry : CacheKey×ℕ) : Bool :=
  strongCount s entry.2 == 1 && (s.contents entry.2).all fun pages => pagesCount s pages == 1

def newCell (s : State Pages) (i : ℕ) (call : Call Pages) : State Pages :=
  { s.enter i call (.leased s.allocated) with
    entries := s.entries++[(call.key,s.allocated)]
    contents := Function.update s.contents s.allocated none
    allocated := s.allocated+1 }

/-- The locked section of the loop. A call which finds no slot waits for a
notification and looks again. -/
def look (capacity : ℕ) (s : State Pages) (i : ℕ) (call : Call Pages) : State Pages :=
  match s.entries.find? (·.1 == call.key) with
  | some entry =>
    { s.enter i call (.leased entry.2) with
      entries := s.entries.eraseP (·.1 == call.key)++[entry] }
  | none =>
    if capacity ≤ s.entries.length then
      if s.entries.any (idle s) then
        newCell { s with entries := s.entries.eraseP (idle s) } i call
      else s
    else newCell s i call

/-- `get_or_try_init`: the pages of the cell, or the permit to extract them. -/
def get (s : State Pages) (i cell : ℕ) (call : Call Pages) : State Pages :=
  match s.contents cell with
  | some document => s.enter i call (.loaded cell document)
  | none =>
    if s.calls.any (·.phase.extracts? == some cell) then s
    else s.enter i call (.extracting cell)

/-- A cell keeps nothing of an extraction which failed. -/
def finish (s : State Pages) (i cell : ℕ) (call : Call Pages)
    (outcome : Except PageRecognitionError Pages) : State Pages :=
  match outcome with
  | .ok pages =>
    { s.enter i { call with outcome := some (.ok pages) } (.loaded cell ⟨i,pages⟩) with
      contents := Function.update s.contents cell (some ⟨i,pages⟩) }
  | .error error => s.enter i { call with outcome := some (.error error) } (.failed cell error)

/-- The locked section after a failure. -/
def discard (s : State Pages) (i cell : ℕ) (call : Call Pages) (error : PageRecognitionError) :
    State Pages :=
  { s.enter i call (.refused error) with
    entries := if strongCount s cell = 2 then
      s.entries.filter fun entry => !(entry.1 == call.key && entry.2 == cell)
    else s.entries }

def step (capacity : ℕ) (s : State Pages) : Action Pages → State Pages
  | .load key => { s with calls := s.calls++[⟨key,.looking,none⟩] }
  | .look i => match s.calls[i]? with
    | some call => match call.phase with
      | .looking => look capacity s i call
      | _ => s
    | none => s
  | .get i => match s.calls[i]? with
    | some call => match call.phase with
      | .leased cell => get s i cell call
      | _ => s
    | none => s
  | .finish i outcome => match s.calls[i]? with
    | some call => match call.phase with
      | .extracting cell => finish s i cell call outcome
      | _ => s
    | none => s
  -- The lease ends when `load` returns.
  | .give i => match s.calls[i]? with
    | some call => match call.phase with
      | .loaded _ document => s.enter i call (.holding document)
      | _ => s
    | none => s
  | .discard i => match s.calls[i]? with
    | some call => match call.phase with
      | .failed cell error => discard s i cell call error
      | _ => s
    | none => s
  | .cancel i => match s.calls[i]? with
    | some call => match call.phase with
      | .looking | .leased _ | .extracting _ | .failed _ _ => s.enter i call .ended
      | _ => s
    | none => s
  | .drop i => match s.calls[i]? with
    | some call => match call.phase with
      | .holding _ => s.enter i call .ended
      | _ => s
    | none => s

def empty : State Pages := ⟨[],fun _ => none,0,[]⟩

/-! ### What a step does -/

/-- How the phase of a call changes on its own. -/
inductive Turn (s : State Pages) : Phase Pages → Phase Pages → Prop where
  | serve (cell : ℕ) (document : CachedPages Pages) (hcontents : s.contents cell = some document) :
      Turn s (.leased cell) (.loaded cell document)
  | start (cell : ℕ) (hempty : s.contents cell = none)
      (hfree : ∀ call ∈ s.calls, call.phase ≠ .extracting cell) :
      Turn s (.leased cell) (.extracting cell)
  | give (cell : ℕ) (document : CachedPages Pages) :
      Turn s (.loaded cell document) (.holding document)
  | leave (phase : Phase Pages) : Turn s phase .ended

/-- The call which an action sends into the section after a failure. -/
def Action.discards? : Action Pages → Option ℕ
  | .discard i => some i
  | _ => none

variable (capacity : ℕ)

inductive Moves (s : State Pages) : Action Pages → State Pages → Prop where
  | stay (a : Action Pages) (ha : a.discards? = none) : Moves s a s
  | absent (i : ℕ) (h : ∀ call cell error, s.calls[i]? = some call →
      call.phase ≠ .failed cell error) : Moves s (.discard i) s
  | load (key : CacheKey) :
      Moves s (.load key) { s with calls := s.calls++[⟨key,.looking,none⟩] }
  | turn (a : Action Pages) (ha : a.discards? = none) (i : ℕ) (call : Call Pages)
      (phase : Phase Pages) (hcall : s.calls[i]? = some call) (h : Turn s call.phase phase) :
      Moves s a (s.enter i call phase)
  | reuse (i : ℕ) (call : Call Pages) (entry : CacheKey×ℕ) (hcall : s.calls[i]? = some call)
      (hlooking : call.phase = .looking)
      (hfind : s.entries.find? (·.1 == call.key) = some entry) :
      Moves s (.look i) { s.enter i call (.leased entry.2) with
        entries := s.entries.eraseP (·.1 == call.key)++[entry] }
  | evict (i : ℕ) (call : Call Pages) (entry : CacheKey×ℕ) (hcall : s.calls[i]? = some call)
      (hlooking : call.phase = .looking) (hnew : ∀ entry ∈ s.entries, entry.1 ≠ call.key)
      (hentry : entry ∈ s.entries) (hidle : idle s entry = true) :
      Moves s (.look i) (newCell { s with entries := s.entries.eraseP (idle s) } i call)
  | insert (i : ℕ) (call : Call Pages) (hcall : s.calls[i]? = some call)
      (hlooking : call.phase = .looking) (hnew : ∀ entry ∈ s.entries, entry.1 ≠ call.key)
      (hroom : s.entries.length < capacity) : Moves s (.look i) (newCell s i call)
  | finish (i cell : ℕ) (call : Call Pages) (outcome : Except PageRecognitionError Pages)
      (hcall : s.calls[i]? = some call) (hextracting : call.phase = .extracting cell) :
      Moves s (.finish i outcome) (finish s i cell call outcome)
  | discard (i cell : ℕ) (call : Call Pages) (error : PageRecognitionError)
      (hcall : s.calls[i]? = some call) (hfailed : call.phase = .failed cell error) :
      Moves s (.discard i) (discard s i cell call error)

theorem look_moves (s : State Pages) (i : ℕ) (call : Call Pages) (hcall : s.calls[i]? = some call)
    (hlooking : call.phase = .looking) :
    Moves capacity s (.look i) (look capacity s i call) := by
  rw [look]
  cases hfind : s.entries.find? (·.1 == call.key) with
  | some entry => exact .reuse i call entry hcall hlooking hfind
  | none =>
    have hnew : ∀ entry ∈ s.entries, entry.1 ≠ call.key := by
      intro entry hentry heq
      have h := List.find?_eq_none.mp hfind entry hentry
      exact h (beq_iff_eq.mpr heq)
    by_cases hfull : capacity ≤ s.entries.length
    · by_cases hany : s.entries.any (idle s) = true
      · obtain ⟨entry,hentry,hidle⟩ := List.any_eq_true.mp hany
        simp only [if_pos hfull, if_pos hany]
        exact .evict i call entry hcall hlooking hnew hentry hidle
      · simp only [if_pos hfull, if_neg hany]
        exact .stay _ rfl
    · simp only [if_neg hfull]
      exact .insert i call hcall hlooking hnew (not_le.mp hfull)

theorem get_moves (s : State Pages) (i cell : ℕ) (call : Call Pages)
    (hcall : s.calls[i]? = some call) (hleased : call.phase = .leased cell) :
    Moves capacity s (.get i) (get s i cell call) := by
  rw [get]
  cases hcontents : s.contents cell with
  | some document =>
    exact .turn _ rfl i call _ hcall (hleased ▸ Turn.serve cell document hcontents)
  | none =>
    by_cases hany : s.calls.any (·.phase.extracts? == some cell) = true
    · simp only [if_pos hany]
      exact .stay _ rfl
    · simp only [if_neg hany]
      refine .turn _ rfl i call _ hcall (hleased ▸ Turn.start cell hcontents ?_)
      intro other hother hextracting
      rw [List.any_eq_true] at hany
      exact hany ⟨other,hother,by rw [hextracting]; exact beq_self_eq_true _⟩

theorem step_moves (s : State Pages) (a : Action Pages) :
    Moves capacity s a (step capacity s a) := by
  cases a with
  | load key => exact .load key
  | look i =>
    cases hcall : s.calls[i]? with
    | none => simp only [step, hcall]; exact .stay _ rfl
    | some call =>
      cases hphase : call.phase with
      | looking => simp only [step, hcall, hphase]; exact look_moves capacity s i call hcall hphase
      | _ => simp only [step, hcall, hphase]; exact .stay _ rfl
  | get i =>
    cases hcall : s.calls[i]? with
    | none => simp only [step, hcall]; exact .stay _ rfl
    | some call =>
      cases hphase : call.phase with
      | leased cell =>
        simp only [step, hcall, hphase]
        exact get_moves capacity s i cell call hcall hphase
      | _ => simp only [step, hcall, hphase]; exact .stay _ rfl
  | finish i outcome =>
    cases hcall : s.calls[i]? with
    | none => simp only [step, hcall]; exact .stay _ rfl
    | some call =>
      cases hphase : call.phase with
      | extracting cell =>
        simp only [step, hcall, hphase]
        exact .finish i cell call outcome hcall hphase
      | _ => simp only [step, hcall, hphase]; exact .stay _ rfl
  | give i =>
    cases hcall : s.calls[i]? with
    | none => simp only [step, hcall]; exact .stay _ rfl
    | some call =>
      cases hphase : call.phase with
      | loaded cell document =>
        simp only [step, hcall, hphase]
        exact .turn _ rfl i call _ hcall (hphase ▸ Turn.give cell document)
      | _ => simp only [step, hcall, hphase]; exact .stay _ rfl
  | discard i =>
    cases hcall : s.calls[i]? with
    | none =>
      simp only [step, hcall]
      exact .absent i (fun _ _ _ h => absurd (hcall.symm.trans h) nofun)
    | some call =>
      have habsent : (∀ cell error, call.phase ≠ .failed cell error) → Moves capacity s
          (.discard i) s := by
        intro h
        refine .absent i ?_
        intro other cell error hother
        rw [hcall, Option.some.injEq] at hother
        exact hother ▸ h cell error
      cases hphase : call.phase with
      | failed cell error =>
        simp only [step, hcall, hphase]
        exact .discard i cell call error hcall hphase
      | _ =>
        simp only [step, hcall, hphase]
        exact habsent (by rw [hphase]; exact nofun)
  | cancel i =>
    cases hcall : s.calls[i]? with
    | none => simp only [step, hcall]; exact .stay _ rfl
    | some call =>
      cases hphase : call.phase with
      | looking | leased | extracting | failed =>
        simp only [step, hcall, hphase]
        exact .turn _ rfl i call _ hcall (Turn.leave _)
      | _ => simp only [step, hcall, hphase]; exact .stay _ rfl
  | drop i =>
    cases hcall : s.calls[i]? with
    | none => simp only [step, hcall]; exact .stay _ rfl
    | some call =>
      cases hphase : call.phase with
      | holding document =>
        simp only [step, hcall, hphase]
        exact .turn _ rfl i call _ hcall (Turn.leave _)
      | _ => simp only [step, hcall, hphase]; exact .stay _ rfl

/-! ### What holds in every state -/

/-- The pages are those which the extraction of a call for the key returned. -/
def Extracted (s : State Pages) (key : CacheKey) (document : CachedPages Pages) : Prop :=
  ∃ call, s.calls[document.allocation]? = some call ∧ call.key = key ∧
    call.outcome = some (.ok document.pages)

structure Settled (s : State Pages) (call : Call Pages) : Prop where
  cell : ∀ cell, call.phase.cell? = some cell → (call.key,cell) ∈ s.entries
  loaded : ∀ cell document, call.phase = .loaded cell document → s.contents cell = some document
  running : ∀ cell, call.phase = .extracting cell → s.contents cell = none
  waiting : (call.phase = .looking ∨ ∃ cell, call.phase = .leased cell ∨
    call.phase = .extracting cell) → call.outcome = none
  document : ∀ document, call.phase.document? = some document → Extracted s call.key document
  error : ∀ error, call.phase.error? = some error → call.outcome = some (.error error)

structure Inv (s : State Pages) : Prop where
  bounded : s.entries.length ≤ capacity
  distinct : (s.entries.map (·.1)).Nodup
  cells : (s.entries.map (·.2)).Nodup
  allocated : ∀ entry ∈ s.entries, entry.2 < s.allocated
  contents : ∀ cell document, s.contents cell = some document → ∃ key,
    Extracted s key document ∧ ∀ entry ∈ s.entries, entry.2 = cell → entry.1 = key
  owned : ∀ cell other document another, s.contents cell = some document →
    s.contents other = some another → document.allocation = another.allocation → cell = other
  calls : ∀ call ∈ s.calls, Settled s call
  alone : ∀ (i j : ℕ) (call other : Call Pages) (cell : ℕ), s.calls[i]? = some call →
    s.calls[j]? = some other →
    call.phase = .extracting cell → other.phase = .extracting cell → i = j

/-- Calls keep their keys, and what their extractions returned. -/
def Grows (s t : State Pages) : Prop :=
  ∀ (i : ℕ) (call : Call Pages), s.calls[i]? = some call → ∃ later, t.calls[i]? = some later ∧ later.key = call.key ∧
    ∀ outcome, call.outcome = some outcome → later.outcome = some outcome

theorem Grows.refl (s : State Pages) : Grows s s := fun _ call hcall => ⟨call,hcall,rfl,fun _ h => h⟩

theorem Extracted.mono {s t : State Pages} {key : CacheKey} {document : CachedPages Pages}
    (h : Extracted s key document) (hgrows : Grows s t) : Extracted t key document := by
  obtain ⟨call,hcall,hkey,houtcome⟩ := h
  obtain ⟨later,hlater,hsame,hkept⟩ := hgrows _ call hcall
  exact ⟨later,hlater,hsame.trans hkey,hkept _ houtcome⟩

theorem grows_set {s : State Pages} {i : ℕ} {call new : Call Pages}
    (hcall : s.calls[i]? = some call) (hkey : new.key = call.key)
    (houtcome : ∀ outcome, call.outcome = some outcome → new.outcome = some outcome) :
    Grows s { s with calls := s.calls.set i new } := by
  intro j other hother
  show ∃ later, (s.calls.set i new)[j]? = some later ∧ _
  rw [List.getElem?_set]
  by_cases hij : i = j
  · subst hij
    have hlt : i < s.calls.length := (List.getElem?_eq_some_iff.mp hcall).1
    rw [hcall, Option.some.injEq] at hother
    subst hother
    exact ⟨new,by rw [if_pos rfl, if_pos hlt],hkey,houtcome⟩
  · exact ⟨other,by rw [if_neg hij]; exact hother,rfl,fun _ h => h⟩

theorem get_set {s : State Pages} {i j : ℕ} {new other : Call Pages}
    (h : (s.calls.set i new)[j]? = some other) :
    (j = i ∧ other = new) ∨ (j ≠ i ∧ s.calls[j]? = some other) := by
  rw [List.getElem?_set] at h
  by_cases hij : i = j
  · rw [if_pos hij] at h
    by_cases hlt : i < s.calls.length
    · rw [if_pos hlt, Option.some.injEq] at h
      exact .inl ⟨hij.symm,h.symm⟩
    · rw [if_neg hlt] at h
      exact absurd h (by simp)
  · rw [if_neg hij] at h
    exact .inr ⟨fun heq => hij heq.symm,h⟩

theorem Settled.transport {s t : State Pages} {call : Call Pages} (h : Settled s call)
    (hgrows : Grows s t) (hcell : ∀ cell, call.phase.cell? = some cell →
      (call.key,cell) ∈ t.entries ∧ t.contents cell = s.contents cell) : Settled t call where
  cell cell hphase := (hcell cell hphase).1
  loaded cell document hphase := by
    rw [(hcell cell (by rw [hphase]; rfl)).2]
    exact h.loaded cell document hphase
  running cell hphase := by
    rw [(hcell cell (by rw [hphase]; rfl)).2]
    exact h.running cell hphase
  waiting := h.waiting
  document document hphase := (h.document document hphase).mono hgrows
  error := h.error

variable {capacity} {s : State Pages}

/-- A call changes, and the map and the cells stay. -/
theorem Inv.set (h : Inv capacity s) {i : ℕ} {call new : Call Pages}
    (hcall : s.calls[i]? = some call) (hkey : new.key = call.key)
    (houtcome : ∀ outcome, call.outcome = some outcome → new.outcome = some outcome)
    (hsettled : Settled { s with calls := s.calls.set i new } new)
    (halone : ∀ cell, new.phase = .extracting cell →
      ∀ other ∈ s.calls, other.phase ≠ .extracting cell) :
    Inv capacity { s with calls := s.calls.set i new } where
  bounded := h.bounded
  distinct := h.distinct
  cells := h.cells
  allocated := h.allocated
  contents cell document hcontents := by
    obtain ⟨key,hextracted,hentries⟩ := h.contents cell document hcontents
    exact ⟨key,hextracted.mono (grows_set hcall hkey houtcome),hentries⟩
  owned := h.owned
  calls other hother := by
    rcases List.mem_or_eq_of_mem_set hother with hold | hnew
    · exact (h.calls other hold).transport (grows_set hcall hkey houtcome)
        fun cell hcell => ⟨(h.calls other hold).cell cell hcell,rfl⟩
    · rw [hnew]
      exact hsettled
  alone j k a b cell ha hb hphaseA hphaseB := by
    rcases get_set ha with ⟨rfl,rfl⟩ | ⟨_,holdA⟩
    · rcases get_set hb with ⟨rfl,_⟩ | ⟨_,holdB⟩
      · rfl
      · exact absurd hphaseB (halone cell hphaseA b (List.mem_of_getElem? holdB))
    · rcases get_set hb with ⟨rfl,rfl⟩ | ⟨_,holdB⟩
      · exact absurd hphaseA (halone cell hphaseB a (List.mem_of_getElem? holdA))
      · exact h.alone j k a b cell holdA holdB hphaseA hphaseB

/-- Entries move or go, but not those of cells which are leased. -/
theorem Inv.withEntries (h : Inv capacity s) {entries : List (CacheKey×ℕ)}
    (hsubset : entries ⊆ s.entries) (hlength : entries.length ≤ s.entries.length)
    (hdistinct : (entries.map (·.1)).Nodup) (hcells : (entries.map (·.2)).Nodup)
    (hleased : ∀ call ∈ s.calls, ∀ cell, call.phase.cell? = some cell →
      (call.key,cell) ∈ entries) : Inv capacity { s with entries } where
  bounded := hlength.trans h.bounded
  distinct := hdistinct
  cells := hcells
  allocated entry hentry := h.allocated entry (hsubset hentry)
  contents cell document hcontents := by
    obtain ⟨key,hextracted,hentries⟩ := h.contents cell document hcontents
    exact ⟨key,hextracted,fun entry hentry => hentries entry (hsubset hentry)⟩
  owned := h.owned
  calls call hcall := (h.calls call hcall).transport (Grows.refl s)
    fun cell hcell => ⟨hleased call hcall cell hcell,rfl⟩
  alone := h.alone

/-! #### Reference counts -/

theorem entry_counted {entry : CacheKey×ℕ} (hentry : entry ∈ s.entries) :
    1 ≤ s.entries.countP (·.2 == entry.2) :=
  List.countP_pos_iff.mpr ⟨entry,hentry,beq_self_eq_true _⟩

/-- Nobody leases the cell of an idle entry. -/
theorem idle_unleased {entry : CacheKey×ℕ} (hentry : entry ∈ s.entries)
    (hidle : idle s entry = true) :
    ∀ call ∈ s.calls, call.phase.cell? ≠ some entry.2 := by
  rw [idle, Bool.and_eq_true, beq_iff_eq, strongCount] at hidle
  have hentries := entry_counted hentry
  have hnone : s.calls.countP (·.phase.cell? == some entry.2) = 0 := by omega
  intro call hcall heq
  have h := List.countP_eq_zero.mp hnone call hcall
  exact h (beq_iff_eq.mpr heq)

/-- After a failure which finds two references, nobody leases the cell. -/
theorem discarded_unleased (h : Inv capacity s) {i cell : ℕ} {call : Call Pages}
    {phase : Phase Pages} (hcall : s.calls[i]? = some call) (hcell : call.phase.cell? = some cell)
    (hcount : strongCount s cell = 2) (hphase : phase.cell? = none) :
    ∀ other ∈ (s.enter i call phase).calls, other.phase.cell? ≠ some cell := by
  have hentries := entry_counted ((h.calls call (List.mem_of_getElem? hcall)).cell cell hcell)
  rw [strongCount] at hcount
  have hlt := (List.getElem?_eq_some_iff.mp hcall).1
  have hget := (List.getElem?_eq_some_iff.mp hcall).2
  have hset : (s.enter i call phase).calls.countP (·.phase.cell? == some cell) = 0 := by
    rw [State.enter, List.countP_set hlt, hget, hcell, hphase]
    simp only [beq_self_eq_true, if_true, Option.none_beq_some, Bool.false_eq_true, if_false]
    simp only at hentries
    omega
  intro other hother heq
  exact List.countP_eq_zero.mp hset other hother (beq_iff_eq.mpr heq)

theorem eraseP_perm {entries : List (CacheKey×ℕ)} {p : CacheKey×ℕ → Bool} {entry : CacheKey×ℕ}
    (hfind : entries.find? p = some entry) : (entry::entries.eraseP p).Perm entries := by
  induction entries with
  | nil => exact absurd hfind (by simp)
  | cons first rest ih =>
    by_cases hfirst : p first = true
    · rw [List.find?_cons_of_pos hfirst, Option.some.injEq] at hfind
      rw [List.eraseP_cons_of_pos hfirst, hfind]
    · rw [List.find?_cons_of_neg hfirst] at hfind
      rw [List.eraseP_cons_of_neg hfirst]
      exact (List.Perm.swap _ _ _).trans ((ih hfind).cons first)

/-! #### Each step -/

theorem Inv.turn (h : Inv capacity s) {i : ℕ} {call : Call Pages} {phase : Phase Pages}
    (hcall : s.calls[i]? = some call) (hturn : Turn s call.phase phase) :
    Inv capacity (s.enter i call phase) := by
  have hsettled := h.calls call (List.mem_of_getElem? hcall)
  have hgrows := @grows_set _ s i call { call with phase } hcall rfl (fun _ houtcome => houtcome)
  refine h.set hcall rfl (fun _ houtcome => houtcome) ?_ ?_
  · generalize hphase : call.phase = before at hturn
    cases hturn with
    | serve cell document hcontents =>
      have hentry := hsettled.cell cell (by rw [hphase]; rfl)
      obtain ⟨key,hextracted,hentries⟩ := h.contents cell document hcontents
      exact {
        cell := fun other hother => by cases hother; exact hentry
        loaded := fun _ _ hloaded => by cases hloaded; exact hcontents
        running := nofun
        waiting := by rintro (hw | ⟨_,hw | hw⟩) <;> cases hw
        document := fun other hother => by
          cases hother
          exact (hentries _ hentry rfl ▸ hextracted).mono hgrows
        error := nofun }
    | start cell hempty _ =>
      exact {
        cell := fun other hother => by
          cases hother
          exact hsettled.cell cell (by rw [hphase]; rfl)
        loaded := nofun
        running := fun other hother => by cases hother; exact hempty
        waiting := fun _ => hsettled.waiting (.inr ⟨cell,.inl hphase⟩)
        document := nofun
        error := nofun }
    | give cell document =>
      exact {
        cell := nofun
        loaded := nofun
        running := nofun
        waiting := by rintro (hw | ⟨_,hw | hw⟩) <;> cases hw
        document := fun other hother => by
          cases hother
          exact (hsettled.document document (by rw [hphase]; rfl)).mono hgrows
        error := nofun }
    | leave =>
      exact {
        cell := nofun
        loaded := nofun
        running := nofun
        waiting := by rintro (hw | ⟨_,hw | hw⟩) <;> cases hw
        document := nofun
        error := nofun }
  · intro cell hextracting other hother
    generalize call.phase = before at hturn
    cases hturn with
    | start _ _ hfree =>
      cases hextracting
      exact hfree other hother
    | _ => cases hextracting

theorem Inv.reuse (h : Inv capacity s) {i : ℕ} {call : Call Pages} {entry : CacheKey×ℕ}
    (hcall : s.calls[i]? = some call) (hlooking : call.phase = .looking)
    (hfind : s.entries.find? (·.1 == call.key) = some entry) :
    Inv capacity { s.enter i call (.leased entry.2) with
      entries := s.entries.eraseP (·.1 == call.key)++[entry] } := by
  have hentry := List.mem_of_find?_eq_some hfind
  have hfound : (entry.1 == call.key) = true := by
    have hsome := List.find?_some hfind
    exact hsome
  have hlease : (call.key,entry.2) ∈ s.entries := beq_iff_eq.mp hfound ▸ hentry
  have hperm : (s.entries.eraseP (·.1 == call.key)++[entry]).Perm s.entries :=
    (List.perm_append_singleton _ _).trans (eraseP_perm hfind)
  have hmoved : Inv capacity { s with
      entries := s.entries.eraseP (·.1 == call.key)++[entry] } := by
    refine h.withEntries hperm.subset hperm.length_eq.le ?_ ?_ ?_
    · exact (hperm.map _).nodup_iff.mpr h.distinct
    · exact (hperm.map _).nodup_iff.mpr h.cells
    · exact fun other hother cell hcell =>
        hperm.mem_iff.mpr ((h.calls other hother).cell cell hcell)
  refine @Inv.set _ _ _ hmoved i call { call with phase := .leased entry.2 } hcall rfl
    (fun _ houtcome => houtcome) ?_ nofun
  exact {
    cell := fun other hother => by
      cases hother
      exact hperm.mem_iff.mpr hlease
    loaded := nofun
    running := nofun
    waiting := fun _ => (h.calls call (List.mem_of_getElem? hcall)).waiting (.inl hlooking)
    document := nofun
    error := nofun }

/-- The map with a new cell for the key. -/
def State.allocate (s : State Pages) (key : CacheKey) : State Pages :=
  { s with
    entries := s.entries++[(key,s.allocated)]
    contents := Function.update s.contents s.allocated none
    allocated := s.allocated+1 }

theorem allocate_contents {key : CacheKey} {cell : ℕ} {document : CachedPages Pages}
    (h : (s.allocate key).contents cell = some document) :
    cell ≠ s.allocated ∧ s.contents cell = some document := by
  rw [State.allocate] at h
  by_cases heq : cell = s.allocated
  · simp only [heq, Function.update_self] at h
    exact absurd h nofun
  · simp only [Function.update_of_ne heq] at h
    exact ⟨heq,h⟩

/-- A cell which is in the map is not the next one. -/
theorem allocate_kept (h : Inv capacity s) (key : CacheKey) {entry : CacheKey×ℕ}
    (hentry : entry ∈ s.entries) : (s.allocate key).contents entry.2 = s.contents entry.2 :=
  Function.update_of_ne (h.allocated entry hentry).ne _ _

theorem Inv.allocate (h : Inv capacity s) {key : CacheKey}
    (hnew : ∀ entry ∈ s.entries, entry.1 ≠ key) (hroom : s.entries.length < capacity) :
    Inv capacity (s.allocate key) where
  bounded := by
    rw [State.allocate, List.length_append, List.length_singleton]
    omega
  distinct := Table.nodup_append_key h.distinct fun entry hentry => hnew entry hentry
  cells := Table.nodup_append_key h.cells fun entry hentry => (h.allocated entry hentry).ne
  allocated entry hentry := by
    rcases List.mem_append.mp hentry with hold | hlast
    · exact Nat.lt_succ_of_lt (h.allocated entry hold)
    · rw [List.mem_singleton.mp hlast]
      exact Nat.lt_succ_self _
  contents cell document hcontents := by
    obtain ⟨hne,hold⟩ := allocate_contents hcontents
    obtain ⟨owner,hextracted,hentries⟩ := h.contents cell document hold
    refine ⟨owner,hextracted,?_⟩
    intro entry hentry heq
    rcases List.mem_append.mp hentry with hold | hlast
    · exact hentries entry hold heq
    · rw [List.mem_singleton.mp hlast] at heq
      exact absurd heq.symm hne
  owned cell other document another hcontents hanother :=
    h.owned cell other document another (allocate_contents hcontents).2
      (allocate_contents hanother).2
  calls call hcall := (h.calls call hcall).transport (Grows.refl s) fun cell hcell => by
    have hentry := (h.calls call hcall).cell cell hcell
    exact ⟨List.mem_append_left _ hentry,allocate_kept h key hentry⟩
  alone := h.alone

theorem Inv.insert (h : Inv capacity s) {i : ℕ} {call : Call Pages}
    (hcall : s.calls[i]? = some call) (hlooking : call.phase = .looking)
    (hnew : ∀ entry ∈ s.entries, entry.1 ≠ call.key) (hroom : s.entries.length < capacity) :
    Inv capacity (newCell s i call) := by
  refine @Inv.set _ _ _ (h.allocate hnew hroom) i call
    { call with phase := .leased s.allocated } hcall rfl (fun _ houtcome => houtcome) ?_ nofun
  exact {
    cell := fun other hother => by
      cases hother
      exact List.mem_append_right _ (List.mem_singleton_self _)
    loaded := nofun
    running := nofun
    waiting := fun _ => (h.calls call (List.mem_of_getElem? hcall)).waiting (.inl hlooking)
    document := nofun
    error := nofun }

/-- The map without an entry which nobody uses. -/
theorem Inv.evict (h : Inv capacity s) {entry : CacheKey×ℕ} (hentry : entry ∈ s.entries)
    (hidle : idle s entry = true) : Inv capacity { s with
      entries := s.entries.eraseP (idle s) } ∧
      (s.entries.eraseP (idle s)).length < capacity := by
  obtain ⟨gone,hfind⟩ := List.find?_isSome.mpr ⟨entry,hentry,hidle⟩ |> Option.isSome_iff_exists.mp
  have hperm := eraseP_perm hfind
  have hgone := List.mem_of_find?_eq_some hfind
  have hgoneIdle : idle s gone = true := List.find?_some hfind
  constructor
  · refine h.withEntries (List.eraseP_subset) (List.length_eraseP_le) ?_ ?_ ?_
    · exact h.distinct.sublist (List.eraseP_sublist.map _)
    · exact h.cells.sublist (List.eraseP_sublist.map _)
    · intro call hcall cell hcell
      have hlease := (h.calls call hcall).cell cell hcell
      rcases List.mem_cons.mp (hperm.mem_iff.mpr hlease) with heq | hkept
      · exact absurd (heq ▸ hcell) (idle_unleased hgone hgoneIdle call hcall)
      · exact hkept
  · have hlength := hperm.length_eq
    have hbounded := h.bounded
    rw [List.length_cons] at hlength
    omega

/-- The pages of an extraction come into its cell, and the call gets them. -/
theorem Inv.fill (h : Inv capacity s) {i cell : ℕ} {call : Call Pages} (pages : Pages)
    (hcall : s.calls[i]? = some call) (hextracting : call.phase = .extracting cell) :
    Inv capacity (finish s i cell call (.ok pages)) := by
  let new : Call Pages := ⟨call.key,.loaded cell ⟨i,pages⟩,some (.ok pages)⟩
  have hsettled := h.calls call (List.mem_of_getElem? hcall)
  have hentry := hsettled.cell cell (by rw [hextracting]; rfl)
  have hempty := hsettled.running cell hextracting
  have hnone := hsettled.waiting (.inr ⟨cell,.inr hextracting⟩)
  have hgrows : Grows s (finish s i cell call (.ok pages)) :=
    @grows_set _ s i call new hcall rfl fun o ho => absurd (hnone.symm.trans ho) nofun
  have hnew : (finish s i cell call (.ok pages)).calls[i]? = some new := by
    show (s.calls.set i new)[i]? = some new
    rw [List.getElem?_set_self (List.getElem?_eq_some_iff.mp hcall).1]
  have hself : (finish s i cell call (.ok pages)).contents cell = some ⟨i,pages⟩ :=
    Function.update_self _ _ _
  have hother : ∀ other, other ≠ cell →
      (finish s i cell call (.ok pages)).contents other = s.contents other :=
    fun other hne => Function.update_of_ne hne _ _
  -- No cell has pages of the call yet, for its extraction ends only now.
  have hunused : ∀ other document, s.contents other = some document →
      document.allocation ≠ i := by
    intro other document hcontents heq
    obtain ⟨_,⟨extractor,hextractor,_,houtcome⟩,_⟩ := h.contents other document hcontents
    rw [heq, hcall, Option.some.injEq] at hextractor
    rw [← hextractor, hnone] at houtcome
    exact absurd houtcome nofun
  exact {
    bounded := h.bounded
    distinct := h.distinct
    cells := h.cells
    allocated := h.allocated
    contents := fun other document hcontents => by
      by_cases heq : other = cell
      · rw [heq, hself, Option.some.injEq] at hcontents
        refine ⟨call.key,⟨new,hcontents ▸ hnew,rfl,hcontents ▸ rfl⟩,?_⟩
        intro entry hmem hcell
        exact congrArg Prod.fst (Table.eq_of_key h.cells hmem hentry (hcell.trans heq))
      · rw [hother other heq] at hcontents
        obtain ⟨key,hextracted,hentries⟩ := h.contents other document hcontents
        exact ⟨key,hextracted.mono hgrows,hentries⟩
    owned := fun one two document another hone htwo hsame => by
      by_cases heq : one = cell
      · by_cases heq' : two = cell
        · exact heq.trans heq'.symm
        · rw [heq, hself, Option.some.injEq] at hone
          rw [hother two heq'] at htwo
          exact absurd (hsame.symm.trans (hone ▸ rfl)) (hunused two another htwo)
      · rw [hother one heq] at hone
        by_cases heq' : two = cell
        · rw [heq', hself, Option.some.injEq] at htwo
          exact absurd (hsame.trans (htwo ▸ rfl)) (hunused one document hone)
        · rw [hother two heq'] at htwo
          exact h.owned one two document another hone htwo hsame
    calls := fun other hmem => by
      obtain ⟨j,hj⟩ := List.mem_iff_getElem?.mp hmem
      rcases get_set hj with ⟨_,rfl⟩ | ⟨hne,hold⟩
      · exact {
          cell := fun _ hcell => by cases hcell; exact hentry
          loaded := fun _ _ hloaded => by cases hloaded; exact hself
          running := nofun
          waiting := by rintro (hw | ⟨_,hw | hw⟩) <;> cases hw
          document := fun _ hdocument => by cases hdocument; exact ⟨new,hnew,rfl,rfl⟩
          error := nofun }
      · have hkept := h.calls other (List.mem_of_getElem? hold)
        exact {
          cell := hkept.cell
          loaded := fun c document hloaded => by
            have hcontents := hkept.loaded c document hloaded
            have hne : c ≠ cell := by
              rintro rfl
              rw [hempty] at hcontents
              exact absurd hcontents nofun
            rw [hother c hne, hcontents]
          running := fun c hrunning => by
            have hne : c ≠ cell := by
              rintro rfl
              exact hne (h.alone j i other call c hold hcall hrunning hextracting)
            rw [hother c hne]
            exact hkept.running c hrunning
          waiting := hkept.waiting
          document := fun document hdocument => (hkept.document document hdocument).mono hgrows
          error := hkept.error }
    alone := fun j k a b c ha hb hphaseA hphaseB => by
      rcases get_set ha with ⟨_,rfl⟩ | ⟨_,holdA⟩
      · cases hphaseA
      · rcases get_set hb with ⟨_,rfl⟩ | ⟨_,holdB⟩
        · cases hphaseB
        · exact h.alone j k a b c holdA holdB hphaseA hphaseB }

theorem Inv.finish (h : Inv capacity s) {i cell : ℕ} {call : Call Pages}
    (outcome : Except PageRecognitionError Pages) (hcall : s.calls[i]? = some call)
    (hextracting : call.phase = .extracting cell) :
    Inv capacity (finish s i cell call outcome) := by
  have hsettled := h.calls call (List.mem_of_getElem? hcall)
  have hnone := hsettled.waiting (.inr ⟨cell,.inr hextracting⟩)
  cases outcome with
  | ok pages => exact h.fill pages hcall hextracting
  | error error =>
    refine @Inv.set _ _ _ h i call ⟨call.key,.failed cell error,some (.error error)⟩ hcall rfl
      (fun o ho => absurd (hnone.symm.trans ho) nofun) ?_ nofun
    exact {
      cell := fun _ hcell => by
        cases hcell
        exact hsettled.cell cell (by rw [hextracting]; rfl)
      loaded := nofun
      running := nofun
      waiting := by rintro (hw | ⟨_,hw | hw⟩) <;> cases hw
      document := nofun
      error := fun _ herror => by cases herror; rfl }

/-- What the section after a failure leaves. -/
theorem Inv.discard (h : Inv capacity s) {i cell : ℕ} {call : Call Pages}
    {error : PageRecognitionError} (hcall : s.calls[i]? = some call)
    (hfailed : call.phase = .failed cell error) :
    Inv capacity (discard s i cell call error) := by
  have hsettled := h.calls call (List.mem_of_getElem? hcall)
  have hrefused : Inv capacity (s.enter i call (.refused error)) := by
    refine h.set hcall rfl (fun _ houtcome => houtcome) ?_ nofun
    exact {
      cell := nofun
      loaded := nofun
      running := nofun
      waiting := by rintro (hw | ⟨_,hw | hw⟩) <;> cases hw
      document := nofun
      error := fun _ herror => by
        cases herror
        exact hsettled.error error (by rw [hfailed]; rfl) }
  by_cases hcount : strongCount s cell = 2
  · rw [NativeDocumentCache.discard]
    simp only [if_pos hcount]
    refine hrefused.withEntries (List.filter_subset_self _) (List.length_filter_le _ _) ?_ ?_ ?_
    · exact h.distinct.sublist (List.filter_sublist.map _)
    · exact h.cells.sublist (List.filter_sublist.map _)
    · intro other hother c hcell
      have hne : c ≠ cell := by
        rintro rfl
        exact discarded_unleased h hcall (by rw [hfailed]; rfl) hcount rfl other hother hcell
      refine List.mem_filter.mpr ⟨(hrefused.calls other hother).cell c hcell,?_⟩
      simp [hne]
  · rw [NativeDocumentCache.discard]
    simp only [if_neg hcount]
    exact hrefused

theorem Inv.load (h : Inv capacity s) (key : CacheKey) :
    Inv capacity { s with calls := s.calls++[⟨key,.looking,none⟩] } := by
  have hgrows : Grows s { s with calls := s.calls++[⟨key,.looking,none⟩] } := by
    intro i call hcall
    have hlt := (List.getElem?_eq_some_iff.mp hcall).1
    exact ⟨call,(List.getElem?_append_left hlt).trans hcall,rfl,fun _ houtcome => houtcome⟩
  have hold : ∀ {j : ℕ} {other : Call Pages} {cell : ℕ},
      (s.calls++[⟨key,.looking,none⟩])[j]? = some other → other.phase = .extracting cell →
        s.calls[j]? = some other := by
    intro j other cell hother hphase
    by_cases hlt : j < s.calls.length
    · rwa [List.getElem?_append_left hlt] at hother
    · rw [List.getElem?_append_right (not_lt.mp hlt)] at hother
      rw [List.mem_singleton.mp (List.mem_of_getElem? hother)] at hphase
      cases hphase
  exact {
    bounded := h.bounded
    distinct := h.distinct
    cells := h.cells
    allocated := h.allocated
    contents := fun cell document hcontents => by
      obtain ⟨owner,hextracted,hentries⟩ := h.contents cell document hcontents
      exact ⟨owner,hextracted.mono hgrows,hentries⟩
    owned := h.owned
    calls := fun call hcall => by
      rcases List.mem_append.mp hcall with hmem | hlast
      · exact (h.calls call hmem).transport hgrows
          fun cell hcell => ⟨(h.calls call hmem).cell cell hcell,rfl⟩
      · rw [List.mem_singleton.mp hlast]
        exact ⟨nofun,nofun,nofun,fun _ => rfl,nofun,nofun⟩
    alone := fun i j call other cell hi hj hphase hother =>
      h.alone i j call other cell (hold hi hphase) (hold hj hother) hphase hother }

theorem inv_step (h : Inv capacity s) (a : Action Pages) : Inv capacity (step capacity s a) := by
  have hmoves := step_moves capacity s a
  generalize step capacity s a = t at hmoves
  cases hmoves with
  | stay | absent => exact h
  | load key => exact h.load key
  | turn _ _ i call phase hcall hturn => exact h.turn hcall hturn
  | reuse i call entry hcall hlooking hfind => exact h.reuse hcall hlooking hfind
  | evict i call entry hcall hlooking hnew hentry hidle =>
    obtain ⟨hevicted,hroom⟩ := h.evict hentry hidle
    exact hevicted.insert hcall hlooking (fun other hother =>
      hnew other (List.eraseP_subset hother)) hroom
  | insert i call hcall hlooking hnew hroom => exact h.insert hcall hlooking hnew hroom
  | finish i cell call outcome hcall hextracting => exact h.finish outcome hcall hextracting
  | discard i cell call error hcall hfailed => exact h.discard hcall hfailed

theorem inv_empty : Inv capacity (empty : State Pages) where
  bounded := Nat.zero_le _
  distinct := .nil
  cells := .nil
  allocated _ hentry := absurd hentry List.not_mem_nil
  contents _ _ hcontents := absurd hcontents (Option.some_ne_none _).symm
  owned _ _ _ _ hcontents _ _ := absurd hcontents (Option.some_ne_none _).symm
  calls _ hcall := absurd hcall List.not_mem_nil
  alone _ _ _ _ _ hcall := absurd hcall (Option.some_ne_none _).symm

theorem inv_run (actions : List (Action Pages)) :
    Inv capacity (run (step capacity) empty actions) :=
  @Transition.run_invariant _ _ (step capacity) (Inv capacity) (fun _ a h => inv_step h a) _
    inv_empty actions

/-! ### Documents do not mix -/

/-- The map is bounded with one entry for a key, one call extracts a document at a
time, a call gets pages only from a successful extraction for its own key, and an
error only from its own extraction. -/
structure Isolated (capacity : ℕ) (s : State Pages) : Prop where
  bounded : s.entries.length ≤ capacity
  distinct : (s.entries.map (·.1)).Nodup
  exclusive : ∀ (i j : ℕ) (call other : Call Pages) (cell another : ℕ), s.calls[i]? = some call →
    s.calls[j]? = some other → call.phase = .extracting cell → other.phase = .extracting another →
    call.key = other.key → i = j
  served : ∀ call ∈ s.calls, ∀ document, call.phase.document? = some document →
    Extracted s call.key document
  refused : ∀ call ∈ s.calls, ∀ error, call.phase.error? = some error →
    call.outcome = some (.error error)

theorem Inv.isolated (h : Inv capacity s) : Isolated capacity s where
  bounded := h.bounded
  distinct := h.distinct
  exclusive i j call other cell another hi hj hphase hother hkey := by
    have hentry := (h.calls call (List.mem_of_getElem? hi)).cell cell (by rw [hphase]; rfl)
    have hanother := (h.calls other (List.mem_of_getElem? hj)).cell another (by rw [hother]; rfl)
    have hcell : cell = another :=
      congrArg Prod.snd (Table.eq_of_key h.distinct hentry hanother hkey)
    exact h.alone i j call other cell hi hj hphase (hcell ▸ hother)
  served call hcall := (h.calls call hcall).document
  refused call hcall := (h.calls call hcall).error

variable (capacity)

/-- Every run keeps the documents apart. -/
theorem documents_isolated (actions : List (Action Pages)) :
    Always (step capacity) (Isolated capacity) empty actions := by
  rw [Transition.always_iff_take]
  exact fun n => (inv_run (actions.take n)).isolated

end Cache

end DocumentIntelligence.NativeDocumentCache
