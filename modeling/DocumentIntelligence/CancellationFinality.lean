import DocumentIntelligence.PageAgreement

/-!
# The finality of a cancellation

The event of a cancellation is published by a worker which saw the checkpoint
cancelled, and the job was cancelled in the transaction which wrote the event.
Neither is undone, whatever the copies are which other workers hold.
-/

set_option autoImplicit false

namespace DocumentIntelligence.CancellationFinality
open Identifiers hiding Error
open Schema Jobs Outbox PageWorkflowStore PageRunner Commands Transition PageWorkers PageAgreement
open JobLifecycle (Lifecycle statusOf step_lifecycle lifecycle_empty statusOf_of_mem stage settled)
open OutboxExhaustion (Inv step_inv inv_empty claim_cases claimWebhook_cases publish_cases)
open Dispatch
open PageCheckpoint hiding Error

/-! ## The events which stay -/

/-- The columns which no delivery writes. -/
def SameEvent (row row' : OutboxRow) : Prop :=
  row'.eventId = row.eventId ∧ row'.scope = row.scope ∧ row'.jobId = row.jobId ∧
    row'.eventType = row.eventType

theorem SameEvent.refl (row : OutboxRow) : SameEvent row row := ⟨rfl,rfl,rfl,rfl⟩

/-- Every event stays, and the events of the new store which are published were
published before. -/
structure EventsKept (s s' : Store) : Prop where
  kept : ∀ row ∈ s.outbox, ∃ row' ∈ s'.outbox, SameEvent row row'
  published : ∀ row' ∈ s'.outbox, row'.publishedAt ≠ none →
    ∃ row ∈ s.outbox, SameEvent row row' ∧ row.publishedAt ≠ none

theorem eventsKept_same {s s' : Store} (h : s'.outbox = s.outbox) : EventsKept s s' where
  kept := fun row hrow => ⟨row,h ▸ hrow,SameEvent.refl row⟩
  published := fun row hrow hpublished => ⟨row,h ▸ hrow,SameEvent.refl row,hpublished⟩

theorem eventsKept_update {s s' : Store} {p : OutboxRow → Bool} {f : OutboxRow → OutboxRow}
    (h : s'.outbox = Table.update p f s.outbox) (hf : ∀ row, SameEvent row (f row))
    (hpublished : ∀ row, (f row).publishedAt = row.publishedAt) : EventsKept s s' where
  kept := by
    intro row hrow
    rw [h]
    refine ⟨_,Table.mem_update_of_mem hrow,?_⟩
    split
    · exact hf row
    · exact SameEvent.refl row
  published := by
    rw [h]
    intro row' hrow' hnone
    rcases Table.mem_update_cases hrow' with ⟨hm,_⟩ | ⟨row,hrow,_,rfl⟩
    · exact ⟨row',hm,SameEvent.refl row',hnone⟩
    · rw [hpublished] at hnone
      exact ⟨row,hrow,hf row,hnone⟩

theorem EventsKept.trans {s s' s'' : Store} (h : EventsKept s s') (h' : EventsKept s' s'') :
    EventsKept s s'' where
  kept := by
    intro row hrow
    obtain ⟨row',hrow',h1,h2,h3,h4⟩ := h.kept row hrow
    obtain ⟨row'',hrow'',k1,k2,k3,k4⟩ := h'.kept row' hrow'
    exact ⟨row'',hrow'',k1.trans h1,k2.trans h2,k3.trans h3,k4.trans h4⟩
  published := by
    intro row'' hrow'' hnone
    obtain ⟨row',hrow',⟨k1,k2,k3,k4⟩,hnone'⟩ := h'.published row'' hrow'' hnone
    obtain ⟨row,hrow,⟨h1,h2,h3,h4⟩,hnone⟩ := h.published row' hrow' hnone'
    exact ⟨row,hrow,⟨k1.trans h1,k2.trans h2,k3.trans h3,k4.trans h4⟩,hnone⟩

theorem eventsKept_claimRows (s : Store) (now : ℤ) (scope : Scope) (c : Channel)
    (claim : ClaimJobOutbox) : EventsKept s (claimRows s now scope c claim) := by
  have hexhausted : EventsKept s (deadLetterExhausted s now scope) :=
    eventsKept_update rfl (fun row => SameEvent.refl row) fun _ => rfl
  exact hexhausted.trans (eventsKept_update rfl (fun row => SameEvent.refl row) fun _ => rfl)

theorem eventsKept_command (s : Store) (now : ℤ) (c : Command) :
    EventsKept s (execute s now c) := by
  rcases execute_outbox s now c with hkept | ⟨scope,jobId,eventType,houtbox,_⟩
  · exact eventsKept_same hkept.1
  · constructor
    · intro row hrow
      rw [houtbox]
      exact ⟨row,List.mem_append_left _ hrow,SameEvent.refl row⟩
    · rw [houtbox]
      intro row' hrow' hnone
      rcases List.mem_append.mp hrow' with hm | hm
      · exact ⟨row',hm,SameEvent.refl row',hnone⟩
      · rw [List.mem_singleton.mp hm] at hnone
        exact absurd rfl hnone

theorem eventsKept_apart {s : Store} (hi : Inv s) {a : OutboxExhaustion.Action}
    (h : apart a = true) : EventsKept s (OutboxExhaustion.step s a) := by
  cases a with
  | command now c => exact eventsKept_command s now c
  | claim now scope claim =>
    have hrows := eventsKept_claimRows s now scope .job claim
    rcases claim_cases hi.sourced now scope claim with ⟨_,heq | heq⟩ | ⟨_,_,heq⟩ <;> rw [heq]
    · exact eventsKept_same rfl
    · exact hrows
    · exact hrows.trans (eventsKept_same rfl)
  | claimWebhook now scope claim =>
    rcases claimWebhook_cases s now scope claim with heq | heq <;> rw [heq]
    · exact eventsKept_same rfl
    · exact eventsKept_claimRows s now scope .webhook claim
  | publish now scope eventId owner => cases h

/-- A publication publishes the event with its identity, if any. -/
theorem publish_events (s : Store) (now : ℤ) (scope : Scope) (eventId : ℕ) (owner : String) :
    let s' := commit s (publishJobOutbox s now scope eventId owner)
    (∀ row ∈ s.outbox, ∃ row' ∈ s'.outbox, SameEvent row row') ∧
    ∀ row' ∈ s'.outbox, row'.publishedAt ≠ none → ∃ row ∈ s.outbox, SameEvent row row' ∧
      (row.publishedAt ≠ none ∨ row.eventId = eventId) := by
  intro s'
  have hcases := publish_cases s now scope eventId owner
  rcases hcases with ⟨_,heq⟩ | ⟨_,heq⟩
  · have hs : s' = s := heq
    rw [hs]
    exact ⟨fun row hrow => ⟨row,hrow,SameEvent.refl row⟩,
      fun row hrow hnone => ⟨row,hrow,SameEvent.refl row,Or.inl hnone⟩⟩
  · have hs : s' = publishRow s now scope eventId owner := heq
    rw [hs]
    constructor
    · intro row hrow
      refine ⟨_,Table.mem_update_of_mem hrow,?_⟩
      split <;> exact SameEvent.refl row
    · intro row' hrow' hnone
      rcases Table.mem_update_cases hrow' with ⟨hm,_⟩ | ⟨row,hrow,hp,rfl⟩
      · exact ⟨row',hm,SameEvent.refl row',Or.inl hnone⟩
      · simp only [publishable, Bool.and_eq_true, beq_iff_eq] at hp
        exact ⟨row,hrow,SameEvent.refl row,Or.inr hp.2.1.1.1⟩

/-! ## The transaction of a step -/

section
variable {scope : Scope} {jobId : JobId}

variable (scope) in
/-- The store after one step: at most one transaction ran. -/
inductive StoreStep (σ : System) : Store → Prop
  | same : StoreStep σ σ.store
  | ran {a : OutboxExhaustion.Action} : apart a = true →
      StoreStep σ (OutboxExhaustion.step σ.store a)
  | wrote (c : Command) : StoreStep σ (execute σ.store 0 c)
  | published (i eventId : ℕ) (now : ℤ) (owner : String) : σ.workers i = .delivered eventId →
      StoreStep σ (commit σ.store (publishJobOutbox σ.store now scope eventId owner))

theorem storeStep_action {σ : System} {s : Store} (h : StoreStep scope σ s) :
    s = σ.store ∨ ∃ a, s = OutboxExhaustion.step σ.store a := by
  cases h with
  | same => exact Or.inl rfl
  | ran hapart => exact Or.inr ⟨_,rfl⟩
  | wrote c => exact Or.inr ⟨.command 0 c,rfl⟩
  | published i eventId now owner hworker => exact Or.inr ⟨.publish now scope eventId owner,rfl⟩

theorem wrote_save {σ : System} {s : Store} {revision : ℕ} {workflow : PageWorkflow}
    {outcome : SavePageWorkflowOutcome}
    (h : savePageWorkflow σ.store scope jobId revision workflow = .ok (outcome,s)) :
    StoreStep scope σ s := by
  have hwrote : StoreStep scope σ
      (execute σ.store 0 (.savePageWorkflow scope jobId revision workflow [])) := .wrote _
  rw [savePageWorkflow] at h
  rw [execute, h, commit_ok] at hwrote
  exact hwrote

theorem wrote_create {σ : System} {s : Store} {workflow : PageWorkflow}
    {outcome : CreatePageWorkflowOutcome}
    (h : createPageWorkflow σ.store scope jobId workflow = .ok (outcome,s)) :
    StoreStep scope σ s := by
  have hwrote : StoreStep scope σ
      (execute σ.store 0 (.createPageWorkflow scope jobId workflow)) := .wrote _
  rw [execute, h, commit_ok] at hwrote
  exact hwrote

theorem wrote_complete {σ : System} {s : Store} {outcome : CompleteCancellationOutcome}
    (h : completeCancellation σ.store scope jobId = .ok (outcome,s)) : StoreStep scope σ s := by
  have hwrote : StoreStep scope σ
      (execute σ.store 0 (.completeCancellation scope jobId)) := .wrote _
  rw [execute, h, commit_ok] at hwrote
  exact hwrote

theorem claimStep_store (σ : System) (i limit : ℕ) (stored : StoredPageWorkflow) :
    StoreStep scope σ (claimStep scope jobId σ i limit stored).store := by
  unfold claimStep
  split
  · exact .same
  · exact .same
  · split <;> first | exact .same | (rename_i hsave; exact wrote_save hsave)

theorem recordStep_store (σ : System) (i : ℕ) (stored : StoredPageWorkflow)
    (outcomes : List (PageTask × PageOutcome)) :
    StoreStep scope σ (recordStep scope jobId σ i stored outcomes).store := by
  unfold recordStep
  split
  · exact .same
  · exact .wrote (.savePageWorkflow scope jobId _ _ _)

theorem startStep_store (σ : System) (i eventId pageCount maxAttempts : ℕ) :
    StoreStep scope σ (startStep scope jobId σ i eventId pageCount maxAttempts).store := by
  unfold startStep
  split
  · exact .same
  · split <;> first | exact .same | (rename_i hcreate; exact wrote_create hcreate)

theorem cancelCreateStep_store (σ : System) (i eventId pageCount maxAttempts : ℕ) :
    StoreStep scope σ (cancelCreateStep scope jobId σ i eventId pageCount maxAttempts).store := by
  unfold cancelCreateStep
  split
  · exact .same
  · split <;> first | exact .same | (rename_i hcreate; exact wrote_create hcreate)

theorem cancelStoredStep_store (σ : System) (i eventId : ℕ) (stored : StoredPageWorkflow) :
    StoreStep scope σ (cancelStoredStep scope jobId σ i eventId stored).store := by
  unfold cancelStoredStep
  split
  · exact .same
  · split <;> first | exact .same | (rename_i hsave; exact wrote_save hsave)

theorem cancelCompleteStep_store (σ : System) (i eventId : ℕ) :
    StoreStep scope σ (cancelCompleteStep scope jobId σ i eventId).store := by
  unfold cancelCompleteStep
  split <;> first | exact .same | (rename_i hcomplete; exact wrote_complete hcomplete)

theorem step_store (σ : System) (a : Action) :
    StoreStep scope σ (PageWorkers.step scope jobId σ a).store := by
  cases a with
  | other a =>
    simp only [PageWorkers.step]
    split
    · rename_i hapart
      exact .ran hapart
    · exact .same
  | load i =>
    simp only [PageWorkers.step]
    split <;> exact .same
  | claim i limit =>
    simp only [PageWorkers.step]
    split
    · exact claimStep_store σ i limit _
    · exact .same
  | record i outcomes =>
    simp only [PageWorkers.step]
    split
    · split
      · exact recordStep_store σ i _ outcomes
      · exact .same
    · exact .same
  | start i eventId pageCount maxAttempts =>
    simp only [PageWorkers.step]
    split
    · exact startStep_store σ i eventId pageCount maxAttempts
    · exact .same
  | cancelLoad i eventId =>
    simp only [PageWorkers.step]
    split <;> exact .same
  | cancelWrite i pageCount maxAttempts =>
    simp only [PageWorkers.step]
    split
    · exact cancelCreateStep_store σ i _ pageCount maxAttempts
    · exact cancelStoredStep_store σ i _ _
    · exact .same
  | cancelComplete i =>
    simp only [PageWorkers.step]
    split
    · exact cancelCompleteStep_store σ i _
    · exact .same
  | publish i now owner =>
    simp only [PageWorkers.step]
    split
    · rename_i eventId hworker
      exact .published i eventId now owner hworker
    · exact .same
  | crash i => exact .same

theorem storeStep_kept {σ : System} {s : Store} (h : StoreStep scope σ s) (hi : Inv σ.store) :
    ∀ row ∈ σ.store.outbox, ∃ row' ∈ s.outbox, SameEvent row row' := by
  cases h with
  | same => exact fun row hrow => ⟨row,hrow,SameEvent.refl row⟩
  | ran hapart => exact (eventsKept_apart hi hapart).kept
  | wrote c => exact (eventsKept_command σ.store 0 c).kept
  | published i eventId now owner hworker =>
    exact (publish_events σ.store now scope eventId owner).1

/-! ## What the workers know -/

variable (scope jobId) in
def CheckpointCancelled (s : Store) : Prop :=
  ∃ stored, loadPageWorkflow s scope jobId = some stored ∧ stored.workflow.cancelled = true

theorem checkpointCancelled_effect {s s' : Store} (heffect : PageEffect scope jobId s s')
    (h : CheckpointCancelled scope jobId s) : CheckpointCancelled scope jobId s' := by
  obtain ⟨stored,hload,hcancelled⟩ := h
  exact ⟨stored,(cancelled_effect heffect hload hcancelled).1,hcancelled⟩

variable (scope jobId) in
/-- A worker which goes on to publish an event of the job started the job under
it or saw the checkpoint cancelled. -/
def Knows (s : Store) : Phase → Prop
  | .delivered eventId =>
    hasEvent scope jobId s eventId .accepted = true ∨ CheckpointCancelled scope jobId s
  | .checkpointCancelled _ => CheckpointCancelled scope jobId s
  | .cancelling _ (some stored) =>
    stored.workflow.cancelled = true → CheckpointCancelled scope jobId s
  | _ => True

theorem hasEvent_iff {s : Store} {eventId : ℕ} {eventType : EventType} :
    hasEvent scope jobId s eventId eventType = true ↔ ∃ row ∈ s.outbox,
      row.eventId = eventId ∧ row.scope = scope ∧ row.jobId = jobId ∧ row.eventType = eventType := by
  simp [hasEvent, List.any_eq_true, and_assoc]

theorem hasEvent_kept {s s' : Store}
    (h : ∀ row ∈ s.outbox, ∃ row' ∈ s'.outbox, SameEvent row row') {eventId : ℕ}
    {eventType : EventType} (hevent : hasEvent scope jobId s eventId eventType = true) :
    hasEvent scope jobId s' eventId eventType = true := by
  rw [hasEvent_iff] at *
  obtain ⟨row,hrow,h1,h2,h3,h4⟩ := hevent
  obtain ⟨row',hrow',k1,k2,k3,k4⟩ := h row hrow
  exact ⟨row',hrow',k1.trans h1,k2.trans h2,k3.trans h3,k4.trans h4⟩

theorem knows_kept {s s' : Store} (heffect : PageEffect scope jobId s s')
    (hkept : ∀ row ∈ s.outbox, ∃ row' ∈ s'.outbox, SameEvent row row') {phase : Phase}
    (h : Knows scope jobId s phase) : Knows scope jobId s' phase := by
  cases phase with
  | delivered eventId =>
    exact h.imp (hasEvent_kept hkept) (checkpointCancelled_effect heffect)
  | checkpointCancelled eventId => exact checkpointCancelled_effect heffect h
  | cancelling eventId stored =>
    cases stored with
    | none => trivial
    | some stored => exact fun hcancelled => checkpointCancelled_effect heffect (h hcancelled)
  | _ => trivial

variable (scope jobId) in
def Informs (σ σ' : System) : Prop :=
  ∀ i, σ'.workers i = σ.workers i ∨ Knows scope jobId σ'.store (σ'.workers i)

theorem informs_refl (σ : System) : Informs scope jobId σ σ := fun _ => Or.inl rfl

theorem informs_enter {σ : System} {s : Store} {phase : Phase} (i : ℕ)
    (h : Knows scope jobId s phase) : Informs scope jobId σ (σ.enter i phase s) := by
  intro j
  by_cases hj : j = i
  · right
    simpa [System.enter, hj] using h
  · left
    simp [System.enter, hj]

theorem informs_idle (σ : System) (i : ℕ) (s : Store) :
    Informs scope jobId σ (σ.enter i .idle s) := informs_enter i trivial

theorem claimStep_informs (σ : System) (i limit : ℕ) (stored : StoredPageWorkflow) :
    Informs scope jobId σ (claimStep scope jobId σ i limit stored) := by
  unfold claimStep
  split
  · exact informs_idle σ i _
  · exact informs_idle σ i _
  · split
    · exact informs_enter i trivial
    · exact informs_idle σ i _
    · exact informs_idle σ i _
    · exact informs_idle σ i _

theorem recordStep_informs (σ : System) (i : ℕ) (stored : StoredPageWorkflow)
    (outcomes : List (PageTask × PageOutcome)) :
    Informs scope jobId σ (recordStep scope jobId σ i stored outcomes) := by
  unfold recordStep
  split <;> exact informs_idle σ i _

theorem startStep_informs {σ : System} (hi : Inv σ.store) (i : ℕ) {eventId : ℕ}
    (hevent : hasEvent scope jobId σ.store eventId .accepted = true) (pageCount maxAttempts : ℕ) :
    Informs scope jobId σ (startStep scope jobId σ i eventId pageCount maxAttempts) := by
  have hknows : ∀ workflow outcome s, createPageWorkflow σ.store scope jobId workflow =
      .ok (outcome,s) → Knows scope jobId s (.delivered eventId) := by
    intro workflow outcome s hcreate
    exact Or.inl (hasEvent_kept (storeStep_kept (wrote_create hcreate) hi) hevent)
  unfold startStep
  split
  · exact informs_idle σ i _
  · split
    · rename_i hcreate
      exact informs_enter i (hknows _ _ _ hcreate)
    · rename_i hcreate
      exact informs_enter i (hknows _ _ _ hcreate)
    · exact informs_idle σ i _
    · exact informs_idle σ i _
    · exact informs_idle σ i _

theorem cancelCreateStep_informs (σ : System) (i eventId pageCount maxAttempts : ℕ) :
    Informs scope jobId σ (cancelCreateStep scope jobId σ i eventId pageCount maxAttempts) := by
  unfold cancelCreateStep
  split
  · exact informs_idle σ i _
  · rename_i workflow hnew
    split
    · rename_i stored s hcreate
      refine informs_enter i (Or.inr ?_)
      rcases create_cases hcreate with ⟨_,hfresh,hrows,_⟩ | ⟨_,⟨_,hout,_⟩ | hout | hout⟩
      · exact ⟨_,(load_created hfresh hrows).2,rfl⟩
      · cases hout
      · cases hout
      · cases hout
    · rename_i stored s hcreate
      have hload := (create_effect (untouched_new hnew).2 hcreate).2 stored rfl
      exact informs_enter i fun hcancelled => ⟨stored,hload,hcancelled⟩
    · exact informs_idle σ i _
    · exact informs_idle σ i _
    · exact informs_idle σ i _

theorem cancelStoredStep_informs {σ : System} {stored : StoredPageWorkflow} (i : ℕ) {eventId : ℕ}
    (hheld : Held scope jobId σ.store stored)
    (hknows : Knows scope jobId σ.store (.cancelling eventId (some stored))) :
    Informs scope jobId σ (cancelStoredStep scope jobId σ i eventId stored) := by
  unfold cancelStoredStep
  split
  · rename_i hstatus
    exact informs_enter i (hknows ((PageWorkflow.status_cancelled_iff _).mp hstatus))
  · split
    · rename_i stored' s hsave
      refine informs_enter i ?_
      rcases held_save hheld hsave with ⟨hout | hout,_⟩ | ⟨hload,_,_,rfl⟩
      · cases hout
      · cases hout
      · exact ⟨_,load_saved hload rfl,rfl⟩
    · exact informs_idle σ i _
    · exact informs_idle σ i _
    · exact informs_idle σ i _

theorem cancelCompleteStep_informs {σ : System} (i : ℕ) {eventId : ℕ}
    (hknows : CheckpointCancelled scope jobId σ.store) :
    Informs scope jobId σ (cancelCompleteStep scope jobId σ i eventId) := by
  have hkept : ∀ outcome s, completeCancellation σ.store scope jobId = .ok (outcome,s) →
      Knows scope jobId s (.delivered eventId) := by
    intro outcome s hcomplete
    obtain ⟨hrows,hartifacts⟩ := completeCancellation_pages hcomplete
    exact Or.inr (checkpointCancelled_effect (.kept hrows hartifacts) hknows)
  unfold cancelCompleteStep
  split
  · rename_i hcomplete
    exact informs_enter i (hkept _ _ hcomplete)
  · rename_i hcomplete
    exact informs_enter i (hkept _ _ hcomplete)
  · exact informs_idle σ i _
  · exact informs_idle σ i _
  · exact informs_idle σ i _

variable (scope jobId) in
/-- The invariant of the runs: a published cancellation is a cancelled checkpoint. -/
structure Final (σ : System) : Prop where
  coherent : Coherent scope jobId σ
  inv : Inv σ.store
  lifecycle : Lifecycle σ.store
  knows : ∀ i, Knows scope jobId σ.store (σ.workers i)
  published : ∀ row ∈ σ.store.outbox, row.scope = scope → row.jobId = jobId →
    row.eventType = .cancellationRequested → row.publishedAt ≠ none →
    CheckpointCancelled scope jobId σ.store

theorem final_initial : Final scope jobId initial where
  coherent := initial_coherent
  inv := inv_empty
  lifecycle := lifecycle_empty
  knows := fun _ => trivial
  published := fun _ hrow => absurd hrow List.not_mem_nil

theorem step_informs {σ : System} (h : Final scope jobId σ) (a : Action) :
    Informs scope jobId σ (PageWorkers.step scope jobId σ a) := by
  cases a with
  | other a =>
    simp only [PageWorkers.step]
    split
    · exact fun _ => Or.inl rfl
    · exact informs_refl σ
  | load i =>
    simp only [PageWorkers.step]
    split <;> exact informs_enter i trivial
  | claim i limit =>
    simp only [PageWorkers.step]
    split
    · exact claimStep_informs σ i limit _
    · exact informs_refl σ
  | record i outcomes =>
    simp only [PageWorkers.step]
    split
    · split
      · exact recordStep_informs σ i _ outcomes
      · exact informs_refl σ
    · exact informs_refl σ
  | start i eventId pageCount maxAttempts =>
    simp only [PageWorkers.step]
    split
    · rename_i hevent
      exact startStep_informs h.inv i hevent pageCount maxAttempts
    · exact informs_refl σ
  | cancelLoad i eventId =>
    simp only [PageWorkers.step]
    split
    · cases hload : loadPageWorkflow σ.store scope jobId with
      | none => exact informs_enter i trivial
      | some stored => exact informs_enter i fun hcancelled => ⟨stored,hload,hcancelled⟩
    · exact informs_refl σ
  | cancelWrite i pageCount maxAttempts =>
    have hphase := h.coherent.phases i
    have hknows := h.knows i
    simp only [PageWorkers.step]
    split
    · exact cancelCreateStep_informs σ i _ pageCount maxAttempts
    · rename_i eventId stored hworker
      rw [hworker] at hphase hknows
      exact cancelStoredStep_informs i hphase hknows
    · exact informs_refl σ
  | cancelComplete i =>
    have hknows := h.knows i
    simp only [PageWorkers.step]
    split
    · rename_i eventId hworker
      rw [hworker] at hknows
      exact cancelCompleteStep_informs i hknows
    · exact informs_refl σ
  | publish i now owner =>
    simp only [PageWorkers.step]
    split
    · exact informs_idle σ i _
    · exact informs_refl σ
  | crash i => exact informs_idle σ i _

theorem storeStep_published {σ : System} {s : Store} (h : Final scope jobId σ)
    (hstep : StoreStep scope σ s) {row' : OutboxRow} (hrow' : row' ∈ s.outbox)
    (hscope : row'.scope = scope) (hid : row'.jobId = jobId)
    (htype : row'.eventType = .cancellationRequested) (hpublished : row'.publishedAt ≠ none) :
    CheckpointCancelled scope jobId σ.store := by
  have hbefore : ∀ row ∈ σ.store.outbox, SameEvent row row' → row.publishedAt ≠ none →
      CheckpointCancelled scope jobId σ.store := by
    intro row hrow ⟨_,h2,h3,h4⟩ hnone
    exact h.published row hrow (h2.symm.trans hscope) (h3.symm.trans hid) (h4.symm.trans htype) hnone
  cases hstep with
  | same => exact hbefore row' hrow' (SameEvent.refl row') hpublished
  | ran hapart =>
    obtain ⟨row,hrow,hsame,hnone⟩ :=
      (eventsKept_apart h.inv hapart).published row' hrow' hpublished
    exact hbefore row hrow hsame hnone
  | wrote c =>
    obtain ⟨row,hrow,hsame,hnone⟩ := (eventsKept_command σ.store 0 c).published row' hrow' hpublished
    exact hbefore row hrow hsame hnone
  | published i eventId now owner hworker =>
    obtain ⟨row,hrow,hsame,hnone | heq⟩ :=
      (publish_events σ.store now scope eventId owner).2 row' hrow' hpublished
    · exact hbefore row hrow hsame hnone
    · have hknows := h.knows i
      rw [hworker] at hknows
      rcases hknows with haccepted | hcancelled
      · -- The event of the worker is the published one, which is no acceptance.
        obtain ⟨x,hx,hxid,_,_,hxtype⟩ := hasEvent_iff.mp haccepted
        have hrowx : x = row := Table.eq_of_key h.inv.keys hx hrow (hxid.trans heq.symm)
        rw [hsame.2.2.2, ← hrowx, hxtype] at htype
        cases htype
      · exact hcancelled

theorem step_final {σ : System} (h : Final scope jobId σ) (a : Action) :
    Final scope jobId (PageWorkers.step scope jobId σ a) := by
  have hadvance := step_advance h.coherent a
  have hstore : StoreStep scope σ (PageWorkers.step scope jobId σ a).store := step_store σ a
  have hkept : Inv (PageWorkers.step scope jobId σ a).store ∧
      Lifecycle (PageWorkers.step scope jobId σ a).store := by
    rcases storeStep_action hstore with heq | ⟨b,heq⟩ <;> rw [heq]
    · exact ⟨h.inv,h.lifecycle⟩
    · exact JobLifecycle.step_kept ⟨h.inv,h.lifecycle⟩ b
  refine ⟨advance_coherent h.coherent hadvance,hkept.1,hkept.2,?_,?_⟩
  · intro i
    rcases step_informs h a i with hsame | hnew
    · rw [hsame]
      exact knows_kept hadvance.effect (storeStep_kept hstore h.inv) (h.knows i)
    · exact hnew
  · intro row hrow hscope hid htype hpublished
    exact checkpointCancelled_effect hadvance.effect
      (storeStep_published h hstore hrow hscope hid htype hpublished)

theorem run_final {σ : System} (h : Final scope jobId σ) (as : List Action) :
    Final scope jobId (run (PageWorkers.step scope jobId) σ as) := by
  have hstep : ∀ σ a, Final scope jobId σ → Final scope jobId (PageWorkers.step scope jobId σ a) :=
    fun _ a h => step_final h a
  exact run_invariant hstep h as

/-! ## After the publication -/

theorem step_status {σ : System} (h : Final scope jobId σ) (a : Action)
    (hstatus : statusOf σ.store jobId = some .cancelled) :
    statusOf (PageWorkers.step scope jobId σ a).store jobId = some .cancelled := by
  have hstore : StoreStep scope σ (PageWorkers.step scope jobId σ a).store := step_store σ a
  rcases storeStep_action hstore with heq | ⟨b,heq⟩ <;> rw [heq]
  · exact hstatus
  · obtain ⟨new,hnew,_,hkept⟩ := JobLifecycle.step_status ⟨h.inv,h.lifecycle⟩ b hstatus
    rw [hnew, hkept rfl]

theorem run_status {σ : System} (h : Final scope jobId σ)
    (hstatus : statusOf σ.store jobId = some .cancelled) (as : List Action) :
    statusOf (run (PageWorkers.step scope jobId) σ as).store jobId = some .cancelled := by
  induction as generalizing σ with
  | nil => exact hstatus
  | cons a as ih => exact ih (step_final h a) (step_status h a hstatus)

/-- A cancellation is announced only of a cancelled job. -/
theorem announced_cancelled {s : Store} (h : Lifecycle s) {row : OutboxRow} (hrow : row ∈ s.outbox)
    (htype : row.eventType = .cancellationRequested) :
    statusOf s row.jobId = some .cancelled := by
  obtain ⟨job,hjob,hkey,hannounces⟩ := h.events row hrow
  have hstage : stage row.eventType = .cancelled := by
    rw [htype]
    rfl
  have hstatus := statusOf_of_mem h hjob
  rw [((isJob_iff _ _ _).mp hkey).2, hannounces.1 hstage] at hstatus
  exact hstatus

theorem cancelled_no_result {s : Store} (h : Lifecycle s)
    (hstatus : statusOf s jobId = some .cancelled) : ∀ r ∈ s.results, r.jobId ≠ jobId := by
  intro r hr hid
  obtain ⟨job,hjob,hkey,hfinished⟩ := h.results r hr
  have hjobStatus := statusOf_of_mem h hjob
  rw [((isJob_iff _ _ _).mp hkey).2, hid, hstatus, Option.some.injEq] at hjobStatus
  rw [← hjobStatus] at hfinished
  cases hfinished

/-- Tasks are taken up from an open checkpoint only. -/
theorem step_schedules {σ : System} (h : Coherent scope jobId σ)
    (hcancelled : CheckpointCancelled scope jobId σ.store) (a : Action) {i : ℕ}
    {stored : StoredPageWorkflow} {tasks : List PageTask}
    (hworker : (PageWorkers.step scope jobId σ a).workers i = .processing stored tasks) :
    σ.workers i = .processing stored tasks := by
  have hadvance := step_advance h a
  rcases hadvance.phases i with hsame | hnew
  · rw [← hsame]
    exact hworker
  · rw [hworker] at hnew
    obtain ⟨current,hload,hclosed⟩ := checkpointCancelled_effect hadvance.effect hcancelled
    obtain ⟨task,htask⟩ := List.exists_mem_of_ne_nil tasks hnew.2.nonempty
    have hopen := (PageRounds.activeProgress_iff.mp (hnew.2.active task htask)).1
    rw [hnew.1, Option.some.injEq] at hload
    rw [hload, hclosed] at hopen
    cases hopen

theorem run_cancellation_final (as : List Action) :
    let σ := run (PageWorkers.step scope jobId) initial as
    ∀ row ∈ σ.store.outbox, row.scope = scope → row.jobId = jobId →
    row.eventType = .cancellationRequested → row.publishedAt ≠ none →
    ∃ stored, stored.workflow.cancelled = true ∧ ∀ bs,
      let σ' := run (PageWorkers.step scope jobId) σ bs
      statusOf σ'.store jobId = some .cancelled ∧
      loadPageWorkflow σ'.store scope jobId = some stored ∧
      σ'.store.pageArtifacts = σ.store.pageArtifacts ∧
      (∀ r ∈ σ'.store.results, r.jobId ≠ jobId) ∧
      ∀ a i held tasks, (PageWorkers.step scope jobId σ' a).workers i = .processing held tasks →
        σ'.workers i = .processing held tasks := by
  intro σ row hrow hscope hid htype hpublished
  have hσ : Final scope jobId σ := run_final final_initial as
  obtain ⟨stored,hload,hcancelled⟩ := hσ.published row hrow hscope hid htype hpublished
  have hstatus : statusOf σ.store jobId = some .cancelled :=
    hid ▸ announced_cancelled hσ.lifecycle hrow htype
  refine ⟨stored,hcancelled,fun bs => ?_⟩
  intro σ'
  have hσ' : Final scope jobId σ' := run_final hσ bs
  have hstatus' : statusOf σ'.store jobId = some .cancelled := run_status hσ hstatus bs
  obtain ⟨hload',hartifacts⟩ : loadPageWorkflow σ'.store scope jobId = some stored ∧
      σ'.store.pageArtifacts = σ.store.pageArtifacts := by
    refine run_keeps (P := fun s => loadPageWorkflow s scope jobId = some stored ∧
      s.pageArtifacts = σ.store.pageArtifacts) ?_ hσ.coherent ⟨hload,rfl⟩ bs
    intro s s' heffect h
    obtain ⟨hkept,hsame⟩ := cancelled_effect heffect h.1 hcancelled
    exact ⟨hkept,hsame.trans h.2⟩
  refine ⟨hstatus',hload',hartifacts,cancelled_no_result hσ'.lifecycle hstatus',?_⟩
  intro a i held tasks hworker
  exact step_schedules hσ'.coherent ⟨stored,hload',hcancelled⟩ a hworker

end

/-- A job is accepted and cancelled, and a relay dispatches the cancellation and
publishes it before the acceptance was dispatched at all. -/
def cancelledRun : List Action :=
  (acceptedJob.map fun c => .other (.command 3 c))++
    [.other (.command 4 (.cancel default default)),.other (.claim 5 default ⟨"relay-01",2⟩),
      .cancelLoad 0 2,.cancelWrite 0 3 4,.publish 0 6 "relay-01"]

def publishedCancellation : OutboxRow :=
  { newEvent 2 4 default default .cancellationRequested with
    publishedAt := some 6
    deliveryAttempts := 1 }

theorem published_cancellation_final :
    ∃ stored, stored.workflow.cancelled = true ∧ ∀ bs,
      let σ := run (PageWorkers.step default default) initial cancelledRun
      let σ' := run (PageWorkers.step default default) σ bs
      statusOf σ'.store default = some .cancelled ∧
      loadPageWorkflow σ'.store default default = some stored ∧
      σ'.store.pageArtifacts = σ.store.pageArtifacts ∧
      (∀ r ∈ σ'.store.results, r.jobId ≠ default) ∧
      ∀ a i held tasks, (PageWorkers.step default default σ' a).workers i =
          .processing held tasks → σ'.workers i = .processing held tasks :=
  run_cancellation_final cancelledRun publishedCancellation (by decide +kernel) rfl rfl rfl
    (by decide)

/-! ## The two statements of a creation -/

section
variable {scope : Scope} {jobId : JobId}

/-- A creation as its statements run: the insert reads the job in a snapshot of
its own, while the status update and the load see what was committed since. -/
def createStatements (seen s : Store) (scope : Scope) (jobId : JobId) (workflow : PageWorkflow) :
    Transaction CreatePageWorkflowOutcome :=
  if workflow.jobId ≠ jobId then .error .invalidStoredPageWorkflow
  else if ((seen.jobs.find? (isJob scope jobId)).any fun job => insertable workflow job.status) &&
      !s.pageWorkflows.any (·.jobId == jobId) then
    let s' := insertWorkflow s scope jobId workflow
    if workflow.status = .cancelled then .ok (.created ⟨workflow,0⟩, s')
    else if (s.jobs.find? (isJob scope jobId)).any fun job => startable job.status then
      .ok (.created ⟨workflow,0⟩, { s' with
        jobs := Table.update (fun job => isJob scope jobId job && startable job.status)
          (setStatus .processing) s'.jobs })
    else .error .invalidStoredPageWorkflow
  else match loadPageWorkflow s scope jobId with
    | some stored =>
      if stored.workflow = workflow then .ok (.existing stored, s) else .ok (.conflict, s)
    | none => .ok (.notFound, s)

theorem cancelled_insertable {s : Store} (h : Lifecycle s) {eventId : ℕ}
    (hevent : hasEvent scope jobId s eventId .cancellationRequested = true)
    {workflow : PageWorkflow} (hcancelled : workflow.status = .cancelled) :
    ((s.jobs.find? (isJob scope jobId)).any fun job => insertable workflow job.status) = true := by
  obtain ⟨row,hrow,_,hscope,hid,htype⟩ := hasEvent_iff.mp hevent
  obtain ⟨job,hjob,hkey,hannounces⟩ := h.events row hrow
  rw [hscope, hid] at hkey
  have hstatus : job.status = .cancelled := by
    apply hannounces.1
    rw [htype]
    rfl
  have hfind : s.jobs.find? (isJob scope jobId) = some job := by
    apply Table.find?_eq_of_unique hjob hkey
    intro x hx hxkey
    rw [isJob_iff] at hkey hxkey
    exact Table.eq_of_key h.jobKeys hx hjob (hxkey.2.trans hkey.2.symm)
  rw [hfind, Option.any_some, hstatus, insertable, hcancelled]
  rfl

/-- Whatever the snapshot was, the statements do what the transaction does at
the instant of its commit, or they refuse and leave the store alone. -/
theorem create_statements (seen : Store) {s : Store} (h : Lifecycle s) {workflow : PageWorkflow}
    (hcancelled : workflow.status = .cancelled →
      ∃ eventId, hasEvent scope jobId s eventId .cancellationRequested = true) :
    createStatements seen s scope jobId workflow = createPageWorkflow s scope jobId workflow ∨
      createStatements seen s scope jobId workflow = .error .invalidStoredPageWorkflow ∨
      createStatements seen s scope jobId workflow = .ok (.notFound,s) := by
  by_cases hid : workflow.jobId ≠ jobId
  · right; left
    rw [createStatements, if_pos hid]
  · cases hrow : s.pageWorkflows.any (·.jobId == jobId) with
    | true =>
      left
      cases hload : loadPageWorkflow s scope jobId <;>
        simp only [createStatements, createPageWorkflow, inserts, hrow, if_neg hid, Bool.not_true,
          Bool.and_false, Bool.false_eq_true, if_false, hload]
    | false =>
      have hnone : loadPageWorkflow s scope jobId = none := by
        rw [loadPageWorkflow, Option.map_eq_none_iff, List.find?_eq_none]
        intro row hmem hkey
        simp only [isPageWorkflow, Bool.and_eq_true, beq_iff_eq] at hkey
        simpa [hkey.2] using List.any_eq_false.mp hrow row hmem
      cases hseen : (seen.jobs.find? (isJob scope jobId)).any fun job =>
          insertable workflow job.status with
      | false =>
        right; right
        simp only [createStatements, hseen, hnone, if_neg hid, Bool.false_and, Bool.false_eq_true,
          if_false]
      | true =>
        by_cases hstatus : workflow.status = .cancelled
        · left
          obtain ⟨eventId,hevent⟩ := hcancelled hstatus
          have hinsertable := cancelled_insertable h hevent hstatus
          simp only [createStatements, createPageWorkflow, inserts, hrow, hseen, hinsertable,
            if_neg hid, hstatus, Bool.not_false, Bool.and_self, if_true]
        · cases hstart : (s.jobs.find? (isJob scope jobId)).any fun job => startable job.status with
          | false =>
            right; left
            simp only [createStatements, hrow, hseen, hstart, if_neg hid, if_neg hstatus,
              Bool.not_false, Bool.and_self, Bool.false_eq_true, if_true, if_false]
          | true =>
            left
            have hinsertable : ((s.jobs.find? (isJob scope jobId)).any fun job =>
                insertable workflow job.status) = true := by
              rw [Option.any_eq_true] at hstart ⊢
              obtain ⟨job,hfind,hjob⟩ := hstart
              exact ⟨job,hfind,by rw [insertable, hjob, Bool.true_or]⟩
            simp only [createStatements, createPageWorkflow, inserts, hrow, hseen, hstart,
              hinsertable, if_neg hid, if_neg hstatus, Bool.not_false, Bool.and_self, if_true]

end

/-! ## The dispatches of the relay -/

section
variable (starter : DurableWorkflowStarter) (dispatch : WorkflowDispatch) (σ : System) (i : ℕ)

/-- The worker publishes the event, after a dispatch which succeeded. -/
def Answers (σ : System) (i eventId : ℕ) (answer : Dispatched) : Prop :=
  σ.store = answer.2 ∧ (σ.workers i = .delivered eventId ↔ answer.1.isOk = true)

theorem answers_refused {σ : System} (i : ℕ) {eventId : ℕ} {s : Store}
    {e : WorkflowDispatchError} : Answers (σ.enter i .idle s) i eventId (.error e,s) := by
  refine ⟨rfl,?_⟩
  rw [enter_workers]
  simp [Except.isOk, Except.toBool]

theorem answers_delivered {σ : System} (i eventId : ℕ) {s : Store}
    {outcome : WorkflowDispatchOutcome} :
    Answers (σ.enter i (.delivered eventId) s) i eventId (.ok outcome,s) := by
  refine ⟨rfl,?_⟩
  rw [enter_workers]
  simp [Except.isOk, Except.toBool]

theorem start_steps
    (hevent : hasEvent dispatch.scope dispatch.jobId σ.store dispatch.eventId .accepted = true) :
    Answers (PageWorkers.step dispatch.scope dispatch.jobId σ
        (.start i dispatch.eventId dispatch.pageCount starter.maxAttempts)) i dispatch.eventId
      (starter.start σ.store dispatch) := by
  simp only [PageWorkers.step, hevent, if_true, startStep, DurableWorkflowStarter.start]
  cases PageWorkflow.new dispatch.jobId dispatch.pageCount starter.maxAttempts with
  | error e => exact answers_refused i
  | ok workflow =>
    simp only
    cases createPageWorkflow σ.store dispatch.scope dispatch.jobId workflow with
    | error e => exact answers_refused i
    | ok x =>
      obtain ⟨outcome,s⟩ := x
      cases outcome with
      | created stored => exact answers_delivered i _
      | existing stored => exact answers_delivered i _
      | conflict => exact answers_refused i
      | notFound => exact answers_refused i

theorem complete_steps (eventId : ℕ) :
    Answers (cancelCompleteStep dispatch.scope dispatch.jobId σ i eventId) i eventId
      (DurableWorkflowStarter.completeCancellation σ.store dispatch) := by
  simp only [cancelCompleteStep, DurableWorkflowStarter.completeCancellation]
  cases Jobs.completeCancellation σ.store dispatch.scope dispatch.jobId with
  | error e => exact answers_refused i
  | ok x =>
    obtain ⟨outcome,s⟩ := x
    cases outcome with
    | cancelled job => exact answers_delivered i _
    | existing job => exact answers_delivered i _
    | notCancellable job => exact answers_refused i
    | notFound => exact answers_refused i

theorem complete_idle {σ : System} (eventId : ℕ) (s : Store) (e : WorkflowDispatchError) :
    Answers (PageWorkers.step dispatch.scope dispatch.jobId (σ.enter i .idle s) (.cancelComplete i))
      i eventId (.error e,s) := by
  have hstep : PageWorkers.step dispatch.scope dispatch.jobId (σ.enter i .idle s)
      (.cancelComplete i) = σ.enter i .idle s := by
    simp [PageWorkers.step]
  rw [hstep]
  exact answers_refused i

theorem complete_known {σ : System} (eventId : ℕ) (s : Store) :
    Answers (PageWorkers.step dispatch.scope dispatch.jobId
        (σ.enter i (.checkpointCancelled eventId) s) (.cancelComplete i)) i eventId
      (DurableWorkflowStarter.completeCancellation s dispatch) := by
  have hstep : PageWorkers.step dispatch.scope dispatch.jobId
      (σ.enter i (.checkpointCancelled eventId) s) (.cancelComplete i) =
      cancelCompleteStep dispatch.scope dispatch.jobId (σ.enter i (.checkpointCancelled eventId) s)
        i eventId := by
    simp [PageWorkers.step]
  rw [hstep]
  exact complete_steps dispatch (σ.enter i (.checkpointCancelled eventId) s) i eventId

theorem stored_steps (eventId : ℕ) (stored : StoredPageWorkflow) :
    Answers (PageWorkers.step dispatch.scope dispatch.jobId
        (cancelStoredStep dispatch.scope dispatch.jobId σ i eventId stored) (.cancelComplete i))
      i eventId (DurableWorkflowStarter.cancelStored σ.store dispatch stored) := by
  unfold cancelStoredStep DurableWorkflowStarter.cancelStored
  by_cases hstatus : stored.workflow.status = .cancelled
  · rw [if_pos hstatus, if_pos hstatus]
    exact complete_known dispatch i eventId σ.store
  · rw [if_neg hstatus, if_neg hstatus]
    cases savePageWorkflow σ.store dispatch.scope dispatch.jobId stored.revision
        stored.workflow.requestCancellation with
    | error e => exact complete_idle dispatch i eventId σ.store _
    | ok x =>
      obtain ⟨outcome,s⟩ := x
      cases outcome with
      | saved stored' => exact complete_known dispatch i eventId s
      | conflict => exact complete_idle dispatch i eventId s _
      | notFound => exact complete_idle dispatch i eventId s _

/-- Without an interruption a cancellation is a load, at most two writes and the
completion, of which a worker leaves out what it has no use for. -/
theorem cancel_steps (hevent : hasEvent dispatch.scope dispatch.jobId σ.store dispatch.eventId
      .cancellationRequested = true) :
    ∃ as ∈ [[],[.cancelComplete i],
        [.cancelWrite i dispatch.pageCount starter.maxAttempts,.cancelComplete i]],
      Answers (run (PageWorkers.step dispatch.scope dispatch.jobId) σ
          (.cancelLoad i dispatch.eventId::.cancelWrite i dispatch.pageCount starter.maxAttempts::as))
        i dispatch.eventId (starter.cancel σ.store dispatch) := by
  have hload : PageWorkers.step dispatch.scope dispatch.jobId σ (.cancelLoad i dispatch.eventId) =
      σ.enter i (.cancelling dispatch.eventId
        (loadPageWorkflow σ.store dispatch.scope dispatch.jobId)) σ.store := by
    simp [PageWorkers.step, hevent]
  simp only [run_cons, hload, DurableWorkflowStarter.cancel]
  cases loadPageWorkflow σ.store dispatch.scope dispatch.jobId with
  | some stored =>
    refine ⟨[.cancelComplete i],by simp,?_⟩
    simp only [PageWorkers.step, enter_workers]
    exact stored_steps dispatch _ i dispatch.eventId stored
  | none =>
    simp only [PageWorkers.step, enter_workers, cancelCreateStep, enter_store]
    cases PageWorkflow.new dispatch.jobId dispatch.pageCount starter.maxAttempts with
    | error e => exact ⟨[],by simp,answers_refused i⟩
    | ok workflow =>
      simp only
      cases createPageWorkflow σ.store dispatch.scope dispatch.jobId
          workflow.requestCancellation with
      | error e => exact ⟨[],by simp,answers_refused i⟩
      | ok x =>
        obtain ⟨outcome,s⟩ := x
        cases outcome with
        | created stored => exact ⟨[],by simp,answers_delivered i _⟩
        | existing stored =>
          refine ⟨[.cancelWrite i dispatch.pageCount starter.maxAttempts,.cancelComplete i],by simp,?_⟩
          simp only [run_cons, run_nil, PageWorkers.step, enter_workers]
          exact stored_steps dispatch _ i dispatch.eventId stored
        | conflict => exact ⟨[],by simp,answers_refused i⟩
        | notFound => exact ⟨[],by simp,answers_refused i⟩

end

end DocumentIntelligence.CancellationFinality
