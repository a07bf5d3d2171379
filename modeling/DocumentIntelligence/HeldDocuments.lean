import DocumentIntelligence.NativeDocumentCache

/-!
# The documents which callers hold

A call which failed reads the reference count of its cell later, when another call
may have extracted the document and returned. It then drops an entry whose pages
are held, and the next call for the key extracts the document again. Along the
runs where this does not happen the documents in use fit into the map.
-/

set_option autoImplicit false

namespace DocumentIntelligence.HeldDocuments
open NativeDocumentCache Transition

variable {Pages : Type}

/-- The documents which are extracted or held by callers. -/
def liveKeys (s : State Pages) : List CacheKey :=
  (s.calls.filter fun call => call.phase.extracts?.isSome || call.phase.held?.isSome).map (·.key)

/-- The pages which a caller holds are those of an entry for their key. -/
def Held (s : State Pages) : Prop :=
  ∀ call ∈ s.calls, ∀ document, call.phase = .holding document →
    ∃ cell, (call.key,cell) ∈ s.entries ∧ s.contents cell = some document

/-- The section after a failure drops no cell whose pages somebody holds. -/
def Orderly (s : State Pages) : Action Pages → Prop
  | .discard i => ∀ call cell error document, s.calls[i]? = some call →
      call.phase = .failed cell error → strongCount s cell = 2 →
      s.contents cell = some document → pagesCount s document = 1
  | _ => True

/-- The documents in use fit into the map, those which are held stay in it, and a
call which looks for one of them is served without an extraction. -/
structure Bounded (capacity : ℕ) (s : State Pages) : Prop where
  live : (liveKeys s).dedup.length ≤ capacity
  held : Held s
  served : ∀ holder ∈ s.calls, ∀ document, holder.phase = .holding document →
    ∀ (i : ℕ) (call : Call Pages), s.calls[i]? = some call → call.phase = .looking →
    call.key = holder.key → ∀ actions, ∃ later,
      (run (step capacity) (step capacity s (.look i)) actions).calls[i]? = some later ∧
      (∀ cell, later.phase ≠ .extracting cell) ∧ later.outcome = none ∧
      ∀ other, later.phase.document? = some other → other = document

variable {capacity : ℕ} {s t : State Pages}

/-! ### The pages which are held -/

theorem held_mono (h : Held s)
    (hcalls : ∀ call ∈ t.calls, ∀ document, call.phase = .holding document → call ∈ s.calls)
    (hkept : ∀ call ∈ s.calls, ∀ document cell, call.phase = .holding document →
      (call.key,cell) ∈ s.entries → s.contents cell = some document →
      (call.key,cell) ∈ t.entries ∧ t.contents cell = some document) : Held t := by
  intro call hcall document hholding
  have hold := hcalls call hcall document hholding
  obtain ⟨cell,hentry,hcontents⟩ := h call hold document hholding
  exact ⟨cell,hkept call hold document cell hholding hentry hcontents⟩

/-- A call which changes to another phase than `holding` holds nothing. -/
theorem set_held {calls : List (Call Pages)} {i : ℕ} {new : Call Pages}
    (hnew : new.phase.held? = none) : ∀ call ∈ calls.set i new, ∀ document,
      call.phase = .holding document → call ∈ calls := by
  intro call hcall document hholding
  rcases List.mem_or_eq_of_mem_set hcall with hold | heq
  · exact hold
  · rw [← heq, hholding] at hnew
    exact absurd hnew nofun

theorem holding_of_holds {phase : Phase Pages} {allocation : ℕ}
    (h : phase.holds allocation = true) :
    ∃ document, phase = .holding document ∧ document.allocation = allocation := by
  cases phase with
  | holding document => exact ⟨document,rfl,beq_iff_eq.mp h⟩
  | _ => exact absurd h Bool.false_ne_true

theorem unheld_of_count {document : CachedPages Pages} (hcount : pagesCount s document = 1) :
    ∀ call ∈ s.calls, call.phase ≠ .holding document := by
  have hnone : s.calls.countP (·.phase.holds document.allocation) = 0 := by
    rw [pagesCount] at hcount
    omega
  intro call hcall hholding
  have h := List.countP_eq_zero.mp hnone call hcall
  rw [hholding] at h
  exact h (beq_self_eq_true _)

theorem idle_unheld {entry : CacheKey×ℕ} {document : CachedPages Pages}
    (hidle : idle s entry = true) (hcontents : s.contents entry.2 = some document) :
    ∀ call ∈ s.calls, call.phase ≠ .holding document := by
  rw [idle, Bool.and_eq_true, hcontents, Option.all_some, beq_iff_eq, beq_iff_eq] at hidle
  exact unheld_of_count hidle.2

theorem held_turn (h : Held s) (hinv : Inv capacity s) {i : ℕ} {call : Call Pages}
    {phase : Phase Pages} (hcall : s.calls[i]? = some call) (hturn : Turn s call.phase phase) :
    Held (s.enter i call phase) := by
  have hsettled := hinv.calls call (List.mem_of_getElem? hcall)
  by_cases hheld : phase.held? = none
  · exact held_mono h (set_held hheld) fun _ _ _ _ _ hentry hcontents => ⟨hentry,hcontents⟩
  · intro other hother document hholding
    rcases List.mem_or_eq_of_mem_set hother with hold | heq
    · exact h other hold document hholding
    · generalize hbefore : call.phase = before at hturn
      subst heq
      cases hturn with
      | give cell loaded =>
        cases hholding
        exact ⟨cell,hsettled.cell cell (by rw [hbefore]; rfl),
          hsettled.loaded cell document hbefore⟩
      | _ => cases hholding

theorem held_newCell (h : Held s) (hinv : Inv capacity s) (i : ℕ) (call : Call Pages) :
    Held (newCell s i call) := by
  refine held_mono h (set_held rfl) ?_
  intro _ _ document cell _ hentry hcontents
  refine ⟨List.mem_append_left _ hentry,?_⟩
  rw [← hcontents]
  exact allocate_kept hinv call.key hentry

theorem held_evict (h : Held s) {entry : CacheKey×ℕ}
    (hentry : entry ∈ s.entries) (hidle : idle s entry = true) :
    Held { s with entries := s.entries.eraseP (idle s) } := by
  obtain ⟨gone,hfind⟩ := Option.isSome_iff_exists.mp (List.find?_isSome.mpr ⟨entry,hentry,hidle⟩)
  refine held_mono h (fun _ hcall _ _ => hcall) ?_
  intro call hcall document cell hholding hmem hcontents
  refine ⟨?_,hcontents⟩
  rcases List.mem_cons.mp ((eraseP_perm hfind).mem_iff.mpr hmem) with heq | hkept
  · have hgone : idle s gone = true := List.find?_some hfind
    rw [← heq] at hgone
    exact absurd hholding (idle_unheld hgone hcontents call hcall)
  · exact hkept

theorem held_finish (h : Held s) (hinv : Inv capacity s) {i cell : ℕ} {call : Call Pages}
    (outcome : Except PageArtifacts.PageRecognitionError Pages) (hcall : s.calls[i]? = some call)
    (hextracting : call.phase = .extracting cell) : Held (finish s i cell call outcome) := by
  cases outcome with
  | error error =>
    exact held_mono h (set_held rfl) fun _ _ _ _ _ hentry hcontents => ⟨hentry,hcontents⟩
  | ok pages =>
    refine held_mono h (set_held rfl) ?_
    intro _ _ document other _ hentry hcontents
    have hempty := (hinv.calls call (List.mem_of_getElem? hcall)).running cell hextracting
    have hne : other ≠ cell := by
      rintro rfl
      rw [hempty] at hcontents
      exact absurd hcontents nofun
    refine ⟨hentry,?_⟩
    rw [← hcontents]
    exact Function.update_of_ne hne _ _

/-- The section after a failure keeps the entries of the pages which are held
exactly when it finds nobody who holds those of its cell. -/
theorem held_discard (h : Held s) (hinv : Inv capacity s) {i cell : ℕ} {call : Call Pages}
    {error : PageArtifacts.PageRecognitionError} (hcall : s.calls[i]? = some call)
    (hfailed : call.phase = .failed cell error) :
    Held (discard s i cell call error) ↔ (strongCount s cell = 2 → ∀ document,
      s.contents cell = some document → pagesCount s document = 1) := by
  have hentry := (hinv.calls call (List.mem_of_getElem? hcall)).cell cell (by rw [hfailed]; rfl)
  constructor
  · intro hheld hcount document hcontents
    by_contra hpages
    have hpos : 0 < s.calls.countP (·.phase.holds document.allocation) := by
      rw [pagesCount] at hpages
      omega
    obtain ⟨holder,hholder,hholds⟩ := List.countP_pos_iff.mp hpos
    obtain ⟨held,hphase,hsame⟩ := holding_of_holds hholds
    have hmember : holder ∈ (discard s i cell call error).calls := by
      obtain ⟨j,hj⟩ := List.mem_iff_getElem?.mp hholder
      have hne : i ≠ j := by
        rintro rfl
        rw [hcall, Option.some.injEq] at hj
        rw [← hj, hfailed] at hphase
        cases hphase
      apply List.mem_of_getElem? (i := j)
      show (s.calls.set i _)[j]? = some holder
      rw [List.getElem?_set_ne hne, hj]
    obtain ⟨another,hanother,hcontents'⟩ := hheld holder hmember held hphase
    have hcell : another = cell := hinv.owned another cell held document hcontents' hcontents hsame
    subst hcell
    rw [NativeDocumentCache.discard] at hanother
    simp only [if_pos hcount] at hanother
    obtain ⟨hkept,hother⟩ := List.mem_filter.mp hanother
    have hkey := Table.eq_of_key hinv.cells hkept hentry rfl
    rw [hkey] at hother
    simp at hother
  · intro hcondition
    refine held_mono h (set_held rfl) ?_
    intro other hother document another hholding hmem hcontents
    refine ⟨?_,hcontents⟩
    rw [NativeDocumentCache.discard]
    by_cases hcount : strongCount s cell = 2
    · simp only [if_pos hcount]
      refine List.mem_filter.mpr ⟨hmem,?_⟩
      have hne : another ≠ cell := by
        rintro rfl
        exact unheld_of_count (hcondition hcount document hcontents) other hother hholding
      simp [hne]
    · simp only [if_neg hcount]
      exact hmem

/-- A step keeps the pages which are held in the map exactly when it is orderly. -/
theorem held_step (hinv : Inv capacity s) (h : Held s) (a : Action Pages) :
    Orderly s a ↔ Held (step capacity s a) := by
  have hmoves := step_moves capacity s a
  generalize step capacity s a = t at hmoves
  have hfree : a.discards? = none → Orderly s a := by
    intro ha
    cases a with
    | discard i => cases ha
    | _ => trivial
  cases hmoves with
  | stay _ ha => exact ⟨fun _ => h,fun _ => hfree ha⟩
  | absent i hnone =>
    exact ⟨fun _ => h,fun _ call cell error _ hcall hfailed =>
      absurd hfailed (hnone call cell error hcall)⟩
  | load key =>
    refine ⟨fun _ => held_mono h ?_ fun _ _ _ _ _ hentry hcontents => ⟨hentry,hcontents⟩,
      fun _ => trivial⟩
    intro call hcall document hholding
    rcases List.mem_append.mp hcall with hold | hlast
    · exact hold
    · rw [List.mem_singleton.mp hlast] at hholding
      cases hholding
  | turn _ ha i call phase hcall hturn =>
    exact ⟨fun _ => held_turn h hinv hcall hturn,fun _ => hfree ha⟩
  | reuse i call entry hcall hlooking hfind =>
    refine ⟨fun _ => held_mono h (set_held rfl) ?_,fun _ => trivial⟩
    intro _ _ document cell _ hentry hcontents
    exact ⟨((List.perm_append_singleton _ _).trans (eraseP_perm hfind)).mem_iff.mpr hentry,
      hcontents⟩
  | evict i call entry hcall hlooking hnew hentry hidle =>
    exact ⟨fun _ => held_newCell (held_evict h hentry hidle) (hinv.evict hentry hidle).1 i call,
      fun _ => trivial⟩
  | insert i call hcall hlooking hnew hroom =>
    exact ⟨fun _ => held_newCell h hinv i call,fun _ => trivial⟩
  | finish i cell call outcome hcall hextracting =>
    exact ⟨fun _ => held_finish h hinv outcome hcall hextracting,fun _ => trivial⟩
  | discard i cell call error hcall hfailed =>
    rw [held_discard h hinv hcall hfailed]
    constructor
    · exact fun horderly hcount document hcontents =>
        horderly call cell error document hcall hfailed hcount hcontents
    · intro hcondition other another error' document hother hfailed' hcount hcontents
      rw [hcall, Option.some.injEq] at hother
      rw [← hother, hfailed] at hfailed'
      cases hfailed'
      exact hcondition hcount document hcontents

/-! ### A further call for pages which are held -/

/-- The call `i` has come to a cell with pages, and stays with them. -/
def Served (i cell : ℕ) (document : CachedPages Pages) (s : State Pages) : Prop :=
  (cell < s.allocated ∧ s.contents cell = some document) ∧
    ∃ later, s.calls[i]? = some later ∧ later.outcome = none ∧
      (later.phase = .leased cell ∨ later.phase = .loaded cell document ∨
        later.phase = .holding document ∨ later.phase = .ended)

theorem Served.frame {i cell : ℕ} {document : CachedPages Pages} (h : Served i cell document s)
    (hallocated : s.allocated ≤ t.allocated) (hcontents : t.contents cell = s.contents cell)
    (hcalls : t.calls[i]? = s.calls[i]?) : Served i cell document t := by
  obtain ⟨⟨hlt,hcell⟩,later,hlater,hrest⟩ := h
  exact ⟨⟨hlt.trans_le hallocated,hcontents.trans hcell⟩,later,hcalls.trans hlater,hrest⟩

/-- A call which is in none of its phases is another one. -/
theorem Served.other {i j cell : ℕ} {document : CachedPages Pages} {call new : Call Pages}
    (h : Served i cell document s) (hcall : s.calls[j]? = some call)
    (hphase : call.phase = .looking ∨ (∃ other, call.phase = .extracting other) ∨
      ∃ other error, call.phase = .failed other error) :
    (s.calls.set j new)[i]? = s.calls[i]? := by
  obtain ⟨_,later,hlater,_,hphases⟩ := h
  refine List.getElem?_set_ne ?_
  rintro rfl
  rw [hcall, Option.some.injEq] at hlater
  subst hlater
  rcases hphase with hp | ⟨_,hp⟩ | ⟨_,_,hp⟩
  all_goals
    rw [hp] at hphases
    rcases hphases with h' | h' | h' | h' <;> cases h'

theorem served_turn {i j cell : ℕ} {document : CachedPages Pages} {call : Call Pages}
    {phase : Phase Pages} (h : Served i cell document s) (hcall : s.calls[j]? = some call)
    (hturn : Turn s call.phase phase) : Served i cell document (s.enter j call phase) := by
  by_cases hij : j = i
  · subst hij
    obtain ⟨hcell,later,hlater,hnone,hphases⟩ := h
    rw [hcall, Option.some.injEq] at hlater
    subst hlater
    have hlt := (List.getElem?_eq_some_iff.mp hcall).1
    refine ⟨hcell,{ call with phase },List.getElem?_set_self hlt,hnone,?_⟩
    generalize call.phase = before at hturn hphases
    cases hturn with
    | serve other found hfound =>
      rcases hphases with hp | hp | hp | hp
      · cases hp
        rw [hcell.2, Option.some.injEq] at hfound
        exact .inr (.inl (by rw [hfound]))
      all_goals cases hp
    | start other hempty _ =>
      rcases hphases with hp | hp | hp | hp
      · cases hp
        exact absurd (hcell.2.symm.trans hempty) nofun
      all_goals cases hp
    | give other found =>
      rcases hphases with hp | hp | hp | hp
      · cases hp
      · cases hp
        exact .inr (.inr (.inl rfl))
      all_goals cases hp
    | leave => exact .inr (.inr (.inr rfl))
  · exact h.frame le_rfl rfl (List.getElem?_set_ne hij)

theorem served_step {i cell : ℕ} {document : CachedPages Pages} (hinv : Inv capacity s)
    (h : Served i cell document s) (a : Action Pages) :
    Served i cell document (step capacity s a) := by
  have hmoves := step_moves capacity s a
  generalize step capacity s a = t at hmoves
  have hfresh : cell ≠ s.allocated := h.1.1.ne
  cases hmoves with
  | stay | absent => exact h
  | load key =>
    obtain ⟨hcell,later,hlater,hrest⟩ := h
    have hlt := (List.getElem?_eq_some_iff.mp hlater).1
    exact ⟨hcell,later,(List.getElem?_append_left hlt).trans hlater,hrest⟩
  | turn _ _ j call phase hcall hturn => exact served_turn h hcall hturn
  | reuse j call entry hcall hlooking _ => exact h.frame le_rfl rfl (h.other hcall (.inl hlooking))
  | evict j call entry hcall hlooking =>
    exact h.frame (Nat.le_succ _) (Function.update_of_ne hfresh _ _)
      (h.other hcall (.inl hlooking))
  | insert j call hcall hlooking =>
    exact h.frame (Nat.le_succ _) (Function.update_of_ne hfresh _ _)
      (h.other hcall (.inl hlooking))
  | finish j other call outcome hcall hextracting =>
    have hset := fun new => @Served.other _ _ i j cell document call new h hcall
      (.inr (.inl ⟨other,hextracting⟩))
    have hempty := (hinv.calls call (List.mem_of_getElem? hcall)).running other hextracting
    have hne : cell ≠ other := by
      rintro rfl
      exact absurd (h.1.2.symm.trans hempty) nofun
    cases outcome with
    | error error => exact h.frame le_rfl rfl (hset _)
    | ok pages => exact h.frame le_rfl (Function.update_of_ne hne _ _) (hset _)
  | discard j other call error hcall hfailed =>
    exact h.frame le_rfl rfl (h.other hcall (.inr (.inr ⟨other,error,hfailed⟩)))

theorem served_run {i cell : ℕ} {document : CachedPages Pages} (hinv : Inv capacity s)
    (h : Served i cell document s) (actions : List (Action Pages)) :
    Served i cell document (run (step capacity) s actions) := by
  have hboth := @Transition.run_invariant _ _ (step capacity)
    (fun s => Inv capacity s ∧ Served i cell document s)
    (fun _ a h => ⟨inv_step h.1 a,served_step h.1 h.2 a⟩) s ⟨hinv,h⟩ actions
  exact hboth.2

/-- A call which looks for pages in the map comes to their cell. -/
theorem look_served (hinv : Inv capacity s) {i cell : ℕ} {document : CachedPages Pages}
    {call : Call Pages} (hcall : s.calls[i]? = some call) (hlooking : call.phase = .looking)
    (hentry : (call.key,cell) ∈ s.entries) (hcontents : s.contents cell = some document) :
    Served i cell document (step capacity s (.look i)) := by
  have hfind : s.entries.find? (·.1 == call.key) = some (call.key,cell) :=
    Table.find?_eq_of_unique hentry (beq_self_eq_true _) fun other hother hkey =>
      Table.eq_of_key hinv.distinct hother hentry (beq_iff_eq.mp hkey)
  have hlt := (List.getElem?_eq_some_iff.mp hcall).1
  have hnone := (hinv.calls call (List.mem_of_getElem? hcall)).waiting (.inl hlooking)
  simp only [step, hcall, hlooking, look, hfind]
  exact ⟨⟨hinv.allocated _ hentry,hcontents⟩,{ call with phase := .leased cell },
    List.getElem?_set_self hlt,hnone,.inl rfl⟩

/-! ### The documents in use -/

theorem live_length (hinv : Inv capacity s) (h : Held s) :
    (liveKeys s).dedup.length ≤ capacity := by
  have hsubset : (liveKeys s).dedup ⊆ s.entries.map (·.1) := by
    intro key hkey
    obtain ⟨call,hcall,rfl⟩ := List.mem_map.mp (List.mem_dedup.mp hkey)
    obtain ⟨hmem,hlive⟩ := List.mem_filter.mp hcall
    cases hphase : call.phase with
    | extracting cell =>
      have hentry := (hinv.calls call hmem).cell cell (by rw [hphase]; rfl)
      exact List.mem_map_of_mem (f := Prod.fst) hentry
    | holding document =>
      obtain ⟨cell,hentry,_⟩ := h call hmem document hphase
      exact List.mem_map_of_mem (f := Prod.fst) hentry
    | _ =>
      rw [hphase] at hlive
      exact absurd hlive Bool.false_ne_true
  have hlength := ((List.nodup_dedup _).subperm hsubset).length_le
  rw [List.length_map] at hlength
  exact hlength.trans hinv.bounded

theorem bounded_of_held (hinv : Inv capacity s) (h : Held s) : Bounded capacity s where
  live := live_length hinv h
  held := h
  served holder hholder document hholding i call hcall hlooking hkey actions := by
    obtain ⟨cell,hentry,hcontents⟩ := h holder hholder document hholding
    have hlook := look_served hinv hcall hlooking (hkey ▸ hentry) hcontents
    obtain ⟨_,later,hlater,hnone,hphases⟩ := served_run (inv_step hinv (.look i)) hlook actions
    refine ⟨later,hlater,?_,hnone,?_⟩
    · intro other hphase
      rw [hphase] at hphases
      rcases hphases with hp | hp | hp | hp <;> cases hp
    · intro other hother
      rcases hphases with hp | hp | hp | hp
      all_goals
        rw [hp] at hother
        cases hother
      all_goals rfl

variable (capacity)

/-- A run keeps the documents in use within the map exactly when no section after a
failure drops a cell whose pages somebody holds. -/
theorem documents_bounded (actions : List (Action Pages)) :
    Always (step capacity) (Bounded capacity) empty actions ↔
      Along (step capacity) Orderly empty actions := by
  have hheld : Held (empty : State Pages) := fun _ hcall => absurd hcall List.not_mem_nil
  constructor
  · intro h
    have hkept := @Transition.always_iff_along _ _ (step capacity) (Inv capacity) Held Orderly
      (fun _ a hinv => inv_step hinv a) (fun _ a hinv h => held_step hinv h a) empty actions
      inv_empty hheld
    exact hkept.mp (Transition.always_mono (fun _ hbounded => hbounded.held) h)
  · intro h
    have hboth := @Transition.always_of_along _ _ (step capacity) (Inv capacity)
      (fun s => Inv capacity s ∧ Held s) Orderly (fun _ a hinv => inv_step hinv a)
      (fun _ a hinv h horderly => ⟨inv_step hinv a,(held_step hinv h.2 a).mp horderly⟩)
      _ _ inv_empty ⟨inv_empty,hheld⟩ h
    exact Transition.always_mono (fun _ h => bounded_of_held h.1 h.2) hboth

/-! ### A failure which is noticed late -/

section Late
open Identifiers (JobId)

def firstDocument : CacheKey := (default,default,⟨"job_A",by decide⟩)
def nextDocument : CacheKey := (default,default,⟨"job_B",by decide⟩)

/-- The first extraction fails; before its call drops the cell, the second one
succeeds and its pages are handed out. The pages are given by their width. -/
def lateDiscard : List (Action ℕ) :=
  [.load firstDocument,.load firstDocument,.look 0,.look 1,.get 0,.finish 0 (.error .retryable),
    .get 1,.finish 1 (.ok 10),.give 1,.discard 0,.load nextDocument,.look 2,.get 2]

/-- A cache for one document has two in use. -/
theorem late_discard_exceeds : ¬Always (step 1) (Bounded 1) empty lateDiscard := by
  intro h
  have hlive := (Transition.always_run h).live
  revert hlive
  decide +kernel

end Late

end DocumentIntelligence.HeldDocuments
