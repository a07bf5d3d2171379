import DocumentIntelligence.OutboxExhaustion
import DocumentIntelligence.OutboxStatements

/-!
# Wake-ups under concurrency

A creation and a cancellation hold the directory row when they commit their
event, so whoever clears the flag meets either the committed event or the lock.
The flag is lost only where it is cleared from a stale answer. In every run in
which each clearing statement sees no deliverable event, no wake-up is lost.
-/

set_option autoImplicit false

namespace DocumentIntelligence.OutboxConcurrency
open Identifiers hiding Error
open WorkScopes Schema Jobs Outbox Commands OutboxStatements Transition
open ReadCommitted (Tx view holds Free setTx commitTx put merge Isolated mem_put mem_merge)

variable {n : ℕ}

/-- The transaction is about to set the dispatch flag or has set it. -/
def Registering (tx : Tx Row Program) : Prop :=
  tx.program.statement = .register ∨ ∃ row ∈ scopes tx.writes, row.dispatchPending = true

/-- The committed event of this identity is deliverable already. -/
def Based (w : World n) (row : OutboxRow) : Prop :=
  ∃ base ∈ events w.db.committed, base.eventId = row.eventId ∧ deliverable base = true

structure SessionOk (w : World n) (tx : Tx Row Program) : Prop where
  known : ∀ row ∈ events tx.writes, row.eventId < w.nextEventId
  based : ∀ row ∈ events tx.writes, deliverable row = true → Based w row ∨ Registering tx
  directory : ∀ row ∈ scopes tx.writes, row.scope = w.scope ∧ tx.program.statement = .finish

structure Inv (w : World n) : Prop where
  isolated : Isolated Row.key w.db
  known : ∀ row ∈ events w.db.committed, row.eventId < w.nextEventId
  directory : ∀ row ∈ scopes w.db.committed, row.scope = w.scope
  sessions : ∀ i tx, w.db.sessions i = some tx → SessionOk w tx

/-- What the runs with the condition keep besides: the flag of the committed
events, and the sight of every session which has cleared it. -/
structure InSight (w : World n) : Prop where
  flagged : ∀ row ∈ events w.db.committed, deliverable row = true →
    ∃ s ∈ scopes w.db.committed, s.dispatchPending = true
  cleared : ∀ i tx, w.db.sessions i = some tx → ∀ s ∈ scopes tx.writes,
    s.dispatchPending = false → ∀ row ∈ events (rows w tx), deliverable row = false

theorem events_put {r : Row} {ws : List Row} {row : OutboxRow}
    (h : row ∈ events (put Row.key r ws)) : r = .event row ∨ row ∈ events ws := by
  rcases (mem_put Row.key).mp (mem_events.mp h) with heq | ⟨hm,_⟩
  · exact Or.inl heq.symm
  · exact Or.inr (mem_events.mpr hm)

theorem scopes_put {r : Row} {ws : List Row} {row : WorkScopeRow}
    (h : row ∈ scopes (put Row.key r ws)) : r = .scope row ∨ row ∈ scopes ws := by
  rcases (mem_put Row.key).mp (mem_scopes.mp h) with heq | ⟨hm,_⟩
  · exact Or.inl heq.symm
  · exact Or.inr (mem_scopes.mpr hm)

theorem events_rows {w : World n} {tx : Tx Row Program} {row : OutboxRow} :
    row ∈ events (rows w tx) ↔ row ∈ events tx.writes ∨
      row ∈ events w.db.committed ∧ ∀ o ∈ tx.writes, o.key ≠ .event row.eventId := by
  simp only [mem_events]
  exact mem_merge Row.key

/-- What one execution may do. `Busy` excludes the two statements after which
the directory row counts. -/
def Busy (tx : Tx Row Program) : Prop :=
  tx.program.statement ≠ .register ∧ tx.program.statement ≠ .finish

inductive Effect (w : World n) (i : Fin n) (tx : Tx Row Program) : World n → Prop
  | wait : Effect w i tx w
  | rollback : Effect w i tx (rollback w i)
  | goto (s : Statement) (hbusy : Busy tx) : Effect w i tx (goto w i tx s)
  | writeJob (job : JobRow) (s : Statement) (hbusy : Busy tx)
      (hfree : free w i (.job job.jobId)) : Effect w i tx (write w i tx (.job job) s)
  | writeEvent (base row : OutboxRow) (s : Statement) (hbusy : Busy tx)
      (hbase : base ∈ events (rows w tx)) (hid : row.eventId = base.eventId)
      (hdeliverable : deliverable row = true → deliverable base = true)
      (hfree : free w i (.event row.eventId)) : Effect w i tx (write w i tx (.event row) s)
  | insertEvent (jobId : JobId) (eventType : EventType) (hbusy : Busy tx) :
      Effect w i tx (insertEvent w i tx jobId eventType)
  | register (row : WorkScopeRow) (hstatement : tx.program.statement = .register)
      (hscope : row.scope = w.scope) (hpending : row.dispatchPending = true)
      (hfree : free w i (.scope w.scope)) : Effect w i tx (write w i tx (.scope row) .finish)
  | setPending (pending : Bool) (row : WorkScopeRow)
      (hstatement : tx.program.statement = .setPending pending) (hscope : row.scope = w.scope)
      (hpending : row.dispatchPending = pending) (hfree : free w i (.scope w.scope)) :
      Effect w i tx (write w i tx (.scope row) .finish)
  | finish (hstatement : tx.program.statement = .finish) : Effect w i tx (finish w i tx)

theorem busy_of_eq {tx : Tx Row Program} {s : Statement} (h : tx.program.statement = s)
    (hr : s ≠ .register) (hf : s ≠ .finish) : Busy tx := by
  unfold Busy
  rw [h]
  exact ⟨hr,hf⟩

theorem find_event {w : World n} {tx : Tx Row Program} {eventId : ℕ} {row : OutboxRow}
    (h : eventRow w tx eventId = some row) : row ∈ events (rows w tx) :=
  List.mem_of_find?_eq_some h

theorem find_scope {w : World n} {tx : Tx Row Program} {row : WorkScopeRow}
    (h : scopeRow w tx = some row) : row.scope = w.scope := by
  simpa using List.find?_some h

theorem registered_row (now : ℤ) (scope : Scope) (row : Option WorkScopeRow)
    (h : ∀ r, row = some r → r.scope = scope) :
    (registered now scope row).scope = scope ∧
      (registered now scope row).dispatchPending = true := by
  cases row with
  | none => exact ⟨rfl,rfl⟩
  | some r => exact ⟨h r rfl,by simp [registered, WorkScopeRow.register]⟩

section Effects
variable (w : World n) (i : Fin n) (tx : Tx Row Program)

theorem insertJob_effect (hbusy : Busy tx) (request : CreateJob) :
    Effect w i tx (insertJob w i tx request) := by
  unfold insertJob
  split
  · exact Effect.goto _ hbusy
  · split
    · exact Effect.rollback
    · split
      · exact Effect.rollback
      · split
        · exact Effect.wait
        · rename_i hcontends
          split
          · exact Effect.rollback
          · apply Effect.writeJob _ _ hbusy
            intro j hne a ha
            by_contra hheld
            rw [Bool.not_eq_false] at hheld
            obtain ⟨r,hr,hkey⟩ := (ReadCommitted.holds_iff Row.key).mp hheld
            apply hcontends
            refine ⟨j,hne,?_⟩
            rw [ha, Option.any_some, List.any_eq_true]
            cases r with
            | job job =>
              refine ⟨job,mem_jobs.mpr hr,?_⟩
              have hid : job.jobId = request.jobId := by simpa [Row.key, CreateJob.row] using hkey
              simp [hid]
            | event row => cases hkey
            | scope row => cases hkey

theorem cancelJob_effect (hbusy : Busy tx) (jobId : JobId) :
    Effect w i tx (cancelJob w i tx jobId) := by
  unfold cancelJob
  split
  · exact Effect.goto _ hbusy
  · split
    · exact Effect.goto _ hbusy
    · split
      · rename_i hfree
        exact Effect.writeJob _ _ hbusy hfree
      · exact Effect.wait

theorem register_effect (hstatement : tx.program.statement = .register) :
    Effect w i tx (register w i tx) := by
  unfold register
  split
  · rename_i hfree
    have hrow := registered_row tx.program.now w.scope (scopeRow w tx) fun _ => find_scope
    exact Effect.register _ hstatement hrow.1 hrow.2 hfree
  · exact Effect.wait

theorem deadLetterRow_effect (hbusy : Busy tx) (claim : ClaimJobOutbox) (eventId : ℕ)
    (rest : List ℕ) : Effect w i tx (deadLetterRow w i tx claim eventId rest) := by
  unfold deadLetterRow
  split
  · exact Effect.goto _ hbusy
  · rename_i row hfind
    split
    · exact Effect.goto _ hbusy
    · split
      · rename_i hfree
        refine Effect.writeEvent row _ _ hbusy (find_event hfind) rfl ?_ hfree
        intro hd
        rw [OutboxExhaustion.deliverable_deadLetter] at hd
        cases hd
      · exact Effect.wait

theorem leaseRow_effect (hbusy : Busy tx) (claim : ClaimJobOutbox) (eventId : ℕ)
    (rest : List ℕ) (leased : ℕ) :
    Effect w i tx (leaseRow w i tx claim eventId rest leased) := by
  unfold leaseRow
  split
  · exact Effect.goto _ hbusy
  · split
    · exact Effect.goto _ hbusy
    · rename_i row hfind
      split
      · rename_i hfree
        exact Effect.writeEvent row _ _ hbusy (find_event hfind) rfl
          OutboxExhaustion.deliverable_lease hfree.2
      · exact Effect.goto _ hbusy

theorem publishEvent_effect (hbusy : Busy tx) (eventId : ℕ) (owner : String) :
    Effect w i tx (publishEvent w i tx eventId owner) := by
  unfold publishEvent
  split
  · exact Effect.goto _ hbusy
  · rename_i row hfind
    split
    · exact Effect.goto _ hbusy
    · split
      · rename_i hfree
        refine Effect.writeEvent row _ _ hbusy (find_event hfind) rfl ?_ hfree
        intro hd
        rw [OutboxExhaustion.deliverable_publish] at hd
        cases hd
      · exact Effect.wait

theorem setPending_effect {pending : Bool} (hstatement : tx.program.statement = .setPending pending) :
    Effect w i tx (setPending w i tx pending) := by
  have hbusy : Busy tx := busy_of_eq hstatement (by simp) (by simp)
  unfold setPending
  split
  · rename_i hfree
    split
    · exact Effect.goto _ hbusy
    · rename_i row hfind
      have hscope : row.scope = w.scope := find_scope hfind
      exact Effect.setPending pending _ hstatement hscope (by simp [WorkScopeRow.setPending]) hfree
  · exact Effect.wait

theorem exec_effect : Effect w i tx (exec w i tx) := by
  unfold exec
  have hb : ∀ s, tx.program.statement = s → s ≠ .register → s ≠ .finish → Busy tx :=
    fun _ => busy_of_eq
  split
  · rename_i h
    exact insertJob_effect w i tx (hb _ h (by simp) (by simp)) _
  · rename_i h
    exact cancelJob_effect w i tx (hb _ h (by simp) (by simp)) _
  · rename_i h
    exact Effect.insertEvent _ _ (hb _ h (by simp) (by simp))
  · rename_i h
    exact register_effect w i tx h
  · rename_i h
    exact Effect.goto _ (hb _ h (by simp) (by simp))
  · rename_i h
    exact Effect.goto _ (hb _ h (by simp) (by simp))
  · rename_i h
    exact deadLetterRow_effect w i tx (hb _ h (by simp) (by simp)) _ _ _
  · rename_i h
    exact Effect.goto _ (hb _ h (by simp) (by simp))
  · rename_i h
    exact Effect.goto _ (hb _ h (by simp) (by simp))
  · rename_i h
    exact leaseRow_effect w i tx (hb _ h (by simp) (by simp)) _ _ _ _
  · rename_i h
    exact publishEvent_effect w i tx (hb _ h (by simp) (by simp)) _ _
  · rename_i h
    exact Effect.goto _ (hb _ h (by simp) (by simp))
  · rename_i h
    exact setPending_effect w i tx h
  · rename_i h
    exact Effect.finish h

end Effects

theorem scopes_of_busy {w : World n} {tx : Tx Row Program} (h : SessionOk w tx) (hbusy : Busy tx)
    {row : WorkScopeRow} (hrow : row ∈ scopes tx.writes) : False :=
  hbusy.2 (h.directory row hrow).2

theorem based_of_busy {w : World n} {tx : Tx Row Program} (h : SessionOk w tx) (hbusy : Busy tx)
    {row : OutboxRow} (hrow : row ∈ events tx.writes) (hd : deliverable row = true) :
    Based w row := by
  rcases h.based row hrow hd with hbased | hregister | ⟨s,hs,_⟩
  · exact hbased
  · exact absurd hregister hbusy.1
  · exact absurd hs fun hs => scopes_of_busy h hbusy hs

/-- The worlds which differ from `w` in one session and in drawn identities. -/
structure Resumes (w : World n) (i : Fin n) (tx : Option (Tx Row Program)) (w' : World n) : Prop where
  db : w'.db = setTx w.db i tx
  scope : w'.scope = w.scope
  next : w.nextEventId ≤ w'.nextEventId

theorem goto_resumes (w : World n) (i : Fin n) (tx : Tx Row Program) (s : Statement) :
    Resumes w i (some ⟨tx.writes,⟨tx.program.now,s⟩⟩) (goto w i tx s) :=
  ⟨rfl,rfl,le_refl _⟩

theorem write_resumes (w : World n) (i : Fin n) (tx : Tx Row Program) (r : Row) (s : Statement) :
    Resumes w i (some ⟨put Row.key r tx.writes,⟨tx.program.now,s⟩⟩) (write w i tx r s) :=
  ⟨rfl,rfl,le_refl _⟩

theorem insertEvent_resumes (w : World n) (i : Fin n) (tx : Tx Row Program) (jobId : JobId)
    (eventType : EventType) :
    Resumes w i (some ⟨put Row.key (.event (newEvent w.nextEventId tx.program.now w.scope jobId
      eventType)) tx.writes,⟨tx.program.now,.register⟩⟩) (insertEvent w i tx jobId eventType) :=
  ⟨rfl,rfl,Nat.le_succ _⟩

theorem rollback_resumes (w : World n) (i : Fin n) : Resumes w i none (rollback w i) :=
  ⟨rfl,rfl,le_refl _⟩

section Resume
variable {w w' : World n} {i : Fin n} {tx : Option (Tx Row Program)}

theorem sessionOk_resume (h : Resumes w i tx w') {a : Tx Row Program} (ha : SessionOk w a) :
    SessionOk w' a where
  known := fun row hrow => (ha.known row hrow).trans_le h.next
  based := by
    intro row hrow hd
    rcases ha.based row hrow hd with ⟨base,hbase⟩ | hr
    · left
      refine ⟨base,?_⟩
      rw [h.db]
      exact hbase
    · exact Or.inr hr
  directory := by
    rw [h.scope]
    exact ha.directory

theorem inv_resume (h : Inv w) (hw : Resumes w i tx w') (hisolated : Isolated Row.key w'.db)
    (hsession : ∀ a, tx = some a → SessionOk w' a) : Inv w' where
  isolated := hisolated
  known := by
    rw [hw.db]
    exact fun row hrow => (h.known row hrow).trans_le hw.next
  directory := by
    rw [hw.db, hw.scope]
    exact h.directory
  sessions := by
    intro j a ha
    rw [hw.db] at ha
    rcases ReadCommitted.session_cases ha with ⟨_,heq⟩ | ⟨_,hold⟩
    · exact hsession a heq
    · exact sessionOk_resume hw (h.sessions j a hold)

theorem inSight_resume (h : InSight w) (hw : Resumes w i tx w')
    (hsession : ∀ a, tx = some a → ∀ s ∈ scopes a.writes, s.dispatchPending = false →
      ∀ row ∈ events (rows w a), deliverable row = false) : InSight w' where
  flagged := by
    rw [hw.db]
    exact h.flagged
  cleared := by
    intro j a ha s hs hpending row hrow
    rw [hw.db] at ha
    have hrows : row ∈ events (rows w a) := by
      rw [rows, hw.db] at hrow
      exact hrow
    rcases ReadCommitted.session_cases ha with ⟨_,heq⟩ | ⟨_,hold⟩
    · exact hsession a heq s hs hpending row hrows
    · exact h.cleared j a hold s hs hpending row hrows

end Resume

/-- A row of the table after a commit was written by the transaction or was
committed and left alone. -/
theorem finish_mem {w : World n} {i : Fin n} {tx : Tx Row Program} {r : Row}
    (hr : r ∈ (finish w i tx).db.committed) :
    r ∈ tx.writes ∨ r ∈ w.db.committed ∧ ∀ o ∈ tx.writes, o.key ≠ r.key :=
  (mem_merge Row.key).mp hr

section Steps
variable {w : World n} {i : Fin n} {tx : Tx Row Program} (h : Inv w)
  (htx : w.db.sessions i = some tx)
include h htx

theorem goto_inv (hbusy : Busy tx) (s : Statement) : Inv (goto w i tx s) := by
  have hok := h.sessions i tx htx
  apply inv_resume h (goto_resumes w i tx s) (ReadCommitted.isolated_continue h.isolated htx _)
  rintro a ⟨⟩
  exact {
    known := hok.known
    based := fun row hrow hd => Or.inl (based_of_busy hok hbusy hrow hd)
    directory := fun row hrow => absurd hrow fun hr => scopes_of_busy hok hbusy hr }

theorem writeJob_inv (hbusy : Busy tx) (job : JobRow) (s : Statement)
    (hfree : free w i (.job job.jobId)) : Inv (write w i tx (.job job) s) := by
  have hok := h.sessions i tx htx
  have hkey : Free Row.key w.db i (Row.job job).key := hfree
  apply inv_resume h (write_resumes w i tx _ s) (ReadCommitted.isolated_put h.isolated htx hkey _)
  rintro a ⟨⟩
  exact {
    known := by
      intro row hrow
      rcases events_put hrow with heq | hm
      · cases heq
      · exact hok.known row hm
    based := by
      intro row hrow hd
      rcases events_put hrow with heq | hm
      · cases heq
      · exact Or.inl (based_of_busy hok hbusy hm hd)
    directory := by
      intro row hrow
      rcases scopes_put hrow with heq | hm
      · cases heq
      · exact absurd hm fun hr => scopes_of_busy hok hbusy hr }

/-- A rewritten event is as new as the row it was made from, and it stands on a
committed deliverable event if it is deliverable. -/
theorem writeEvent_inv (hbusy : Busy tx) {base row : OutboxRow} (s : Statement)
    (hbase : base ∈ events (rows w tx)) (hid : row.eventId = base.eventId)
    (hdeliverable : deliverable row = true → deliverable base = true)
    (hfree : free w i (.event row.eventId)) : Inv (write w i tx (.event row) s) := by
  have hok := h.sessions i tx htx
  have hknown : row.eventId < w.nextEventId := by
    rw [hid]
    rcases events_rows.mp hbase with hm | ⟨hm,_⟩
    · exact hok.known base hm
    · exact h.known base hm
  have hbased : deliverable row = true → Based w row := by
    intro hd
    rcases events_rows.mp hbase with hm | ⟨hm,_⟩
    · obtain ⟨b,hb,hbid,hbd⟩ := based_of_busy hok hbusy hm (hdeliverable hd)
      exact ⟨b,hb,hbid.trans hid.symm,hbd⟩
    · exact ⟨base,hm,hid.symm,hdeliverable hd⟩
  have hkey : Free Row.key w.db i (Row.event row).key := hfree
  apply inv_resume h (write_resumes w i tx _ s) (ReadCommitted.isolated_put h.isolated htx hkey _)
  rintro a ⟨⟩
  exact {
    known := by
      intro x hx
      rcases events_put hx with heq | hm
      · cases heq
        exact hknown
      · exact hok.known x hm
    based := by
      intro x hx hd
      rcases events_put hx with heq | hm
      · cases heq
        exact Or.inl (hbased hd)
      · exact Or.inl (based_of_busy hok hbusy hm hd)
    directory := by
      intro x hx
      rcases scopes_put hx with heq | hm
      · cases heq
      · exact absurd hm fun hr => scopes_of_busy hok hbusy hr }

theorem insertEvent_inv (hbusy : Busy tx) (jobId : JobId) (eventType : EventType) :
    Inv (insertEvent w i tx jobId eventType) := by
  have hok := h.sessions i tx htx
  have hfree : free w i (.event w.nextEventId) := by
    intro j _ a ha
    by_contra hheld
    rw [Bool.not_eq_false] at hheld
    obtain ⟨r,hr,hkey⟩ := (ReadCommitted.holds_iff Row.key).mp hheld
    cases r with
    | job job => cases hkey
    | event row =>
      have hlt := (h.sessions j a ha).known row (mem_events.mpr hr)
      rw [Row.key, Key.event.injEq] at hkey
      omega
    | scope row => cases hkey
  apply inv_resume h (insertEvent_resumes w i tx jobId eventType)
  · exact ReadCommitted.isolated_put h.isolated htx
      (r := .event (newEvent w.nextEventId tx.program.now w.scope jobId eventType)) hfree _
  · rintro a ⟨⟩
    exact {
      known := by
        intro x hx
        rcases events_put hx with heq | hm
        · cases heq
          exact Nat.lt_succ_self _
        · exact (hok.known x hm).trans (Nat.lt_succ_self _)
      based := fun _ _ _ => Or.inr (Or.inl rfl)
      directory := by
        intro x hx
        rcases scopes_put hx with heq | hm
        · cases heq
        · exact absurd hm fun hr => scopes_of_busy hok hbusy hr }

/-- A write of the directory row before the end: nothing else is left to do. -/
theorem writeScope_inv {row : WorkScopeRow} (hscope : row.scope = w.scope)
    (hfree : free w i (.scope w.scope)) (hregistering : Busy tx ∨ row.dispatchPending = true) :
    Inv (write w i tx (.scope row) .finish) := by
  have hok := h.sessions i tx htx
  have hkey : free w i (Row.scope row).key := by
    rw [Row.key, hscope]
    exact hfree
  apply inv_resume h (write_resumes w i tx _ _) (ReadCommitted.isolated_put h.isolated htx hkey _)
  rintro a ⟨⟩
  exact {
    known := by
      intro x hx
      rcases events_put hx with heq | hm
      · cases heq
      · exact hok.known x hm
    based := by
      intro x hx hd
      rcases events_put hx with heq | hm
      · cases heq
      · rcases hregistering with hbusy | hpending
        · exact Or.inl (based_of_busy hok hbusy hm hd)
        · refine Or.inr (Or.inr ⟨row,mem_scopes.mpr ?_,hpending⟩)
          exact (mem_put Row.key).mpr (Or.inl rfl)
    directory := by
      intro x hx
      rcases scopes_put hx with heq | hm
      · cases heq
        exact ⟨hscope,rfl⟩
      · exact ⟨(hok.directory x hm).1,rfl⟩ }

theorem finish_inv : Inv (finish w i tx) where
  isolated := ReadCommitted.isolated_commit h.isolated htx
  known := by
    intro row hrow
    rcases finish_mem (mem_events.mp hrow) with hm | ⟨hm,_⟩
    · exact (h.sessions i tx htx).known row (mem_events.mpr hm)
    · exact h.known row (mem_events.mpr hm)
  directory := by
    intro row hrow
    rcases finish_mem (mem_scopes.mp hrow) with hm | ⟨hm,_⟩
    · exact ((h.sessions i tx htx).directory row (mem_scopes.mpr hm)).1
    · exact h.directory row (mem_scopes.mpr hm)
  sessions := by
    intro j a ha
    obtain ⟨hne,hold⟩ := ReadCommitted.session_commit ha
    have hok := h.sessions j a hold
    refine ⟨hok.known,?_,hok.directory⟩
    intro row hrow hd
    rcases hok.based row hrow hd with ⟨base,hbase,hid,hbd⟩ | hr
    · left
      refine ⟨base,mem_events.mpr ?_,hid,hbd⟩
      have hkey : (Row.event base).key = (Row.event row).key := by rw [Row.key, Row.key, hid]
      exact ReadCommitted.committed_held h.isolated htx hne hold (mem_events.mp hrow) hkey
        (mem_events.mp hbase)
    · exact Or.inr hr

end Steps

theorem effect_inv {w w' : World n} {i : Fin n} {tx : Tx Row Program} (h : Inv w)
    (htx : w.db.sessions i = some tx) (he : Effect w i tx w') : Inv w' := by
  cases he with
  | wait => exact h
  | rollback =>
    apply inv_resume h (rollback_resumes w i) (ReadCommitted.isolated_end h.isolated)
    rintro a ⟨⟩
  | goto s hbusy => exact goto_inv h htx hbusy s
  | writeJob job s hbusy hfree => exact writeJob_inv h htx hbusy job s hfree
  | writeEvent base row s hbusy hbase hid hdeliverable hfree =>
    exact writeEvent_inv h htx hbusy s hbase hid hdeliverable hfree
  | insertEvent jobId eventType hbusy => exact insertEvent_inv h htx hbusy jobId eventType
  | register row hstatement hscope hpending hfree =>
    exact writeScope_inv h htx hscope hfree (Or.inr hpending)
  | setPending pending row hstatement hscope hpending hfree =>
    exact writeScope_inv h htx hscope hfree (Or.inl (busy_of_eq hstatement (by simp) (by simp)))
  | finish hstatement => exact finish_inv h htx

theorem step_inv (w : World n) (a : Action n) (h : Inv w) : Inv (step w a) := by
  cases a with
  | start i now request =>
    simp only [step]
    split
    · rename_i s _ _
      have hstart : Resumes w i (some ⟨[],⟨now,s⟩⟩)
          { w with db := setTx w.db i (some ⟨[],⟨now,s⟩⟩) } := ⟨rfl,rfl,le_refl _⟩
      apply inv_resume h hstart (ReadCommitted.isolated_begin h.isolated _)
      rintro a ⟨⟩
      constructor <;> intro row hrow <;> cases hrow
    · exact h
  | exec i =>
    simp only [step]
    split
    · exact h
    · rename_i tx htx
      exact effect_inv h htx (exec_effect w i tx)
  | rollback i =>
    apply inv_resume h (rollback_resumes w i) (ReadCommitted.isolated_end h.isolated)
    rintro a ⟨⟩

section Sight
variable {w : World n} {i : Fin n} {tx : Tx Row Program} (h : Inv w) (hs : InSight w)
  (htx : w.db.sessions i = some tx)
include h hs htx

theorem busy_inSight (hbusy : Busy tx) {w' : World n} {ws : List Row} {p : Program}
    (hw : Resumes w i (some ⟨ws,p⟩) w')
    (hws : ∀ s ∈ scopes ws, s ∈ scopes tx.writes) : InSight w' := by
  apply inSight_resume hs hw
  rintro a ⟨⟩ s hmem
  exact absurd (hws s hmem) fun hr => scopes_of_busy (h.sessions i tx htx) hbusy hr

omit h htx in
theorem writeScope_inSight {row : WorkScopeRow} (hnone : ∀ s, s ∉ scopes tx.writes)
    (hclear : row.dispatchPending = false → ∀ e ∈ events (rows w tx), deliverable e = false) :
    InSight (write w i tx (.scope row) .finish) := by
  apply inSight_resume hs (write_resumes w i tx _ _)
  rintro a ⟨⟩ s hmem hpending e he
  rcases scopes_put hmem with heq | hm
  · cases heq
    apply hclear hpending e
    apply events_rows.mpr
    rcases events_rows.mp he with hput | ⟨hcommitted,hnew⟩
    · rcases events_put hput with heq | hown
      · cases heq
      · exact Or.inl hown
    · refine Or.inr ⟨hcommitted,fun o ho hkey => ?_⟩
      have hput : o ∈ put Row.key (.scope row) tx.writes := by
        refine (mem_put Row.key).mpr (Or.inr ⟨ho,?_⟩)
        rw [hkey]
        exact Key.noConfusion
      exact hnew o hput hkey
  · exact absurd hm (hnone s)

omit hs in
/-- At a commit, an event which the transaction leaves deliverable was so
before or comes with the flag. -/
theorem finish_based (hstatement : tx.program.statement = .finish) {row : OutboxRow}
    (hrow : row ∈ events tx.writes) (hd : deliverable row = true) :
    Based w row ∨ ∃ s ∈ scopes tx.writes, s.dispatchPending = true := by
  rcases (h.sessions i tx htx).based row hrow hd with hbased | hregister | hflag
  · exact Or.inl hbased
  · rw [hstatement] at hregister
    cases hregister
  · exact Or.inr hflag

theorem finish_flagged (hstatement : tx.program.statement = .finish) :
    ∀ row ∈ events (finish w i tx).db.committed, deliverable row = true →
      ∃ s ∈ scopes (finish w i tx).db.committed, s.dispatchPending = true := by
  intro row hrow hd
  have hwritten : ∀ s ∈ scopes tx.writes, s ∈ scopes (finish w i tx).db.committed := fun s hm =>
    mem_scopes.mpr ((mem_merge Row.key).mpr (Or.inl (mem_scopes.mp hm)))
  have hsource : (∃ s ∈ scopes tx.writes, s.dispatchPending = true) ∨
      ∃ e ∈ events (rows w tx), deliverable e = true ∧
        ∃ b ∈ events w.db.committed, deliverable b = true := by
    rcases finish_mem (mem_events.mp hrow) with hm | ⟨hm,hleft⟩
    · rcases finish_based h htx hstatement (mem_events.mpr hm) hd with ⟨b,hb,_,hbd⟩ | hflag
      · exact Or.inr ⟨row,events_rows.mpr (Or.inl (mem_events.mpr hm)),hd,b,hb,hbd⟩
      · exact Or.inl hflag
    · exact Or.inr ⟨row,events_rows.mpr (Or.inr ⟨mem_events.mpr hm,hleft⟩),hd,row,
        mem_events.mpr hm,hd⟩
  rcases hsource with ⟨s,hm,hpending⟩ | ⟨e,he,hed,b,hb,hbd⟩
  · exact ⟨s,hwritten s hm,hpending⟩
  · obtain ⟨s,hm,hpending⟩ := hs.flagged b hb hbd
    by_cases hown : ∃ o ∈ tx.writes, o.key = (Row.scope s).key
    · obtain ⟨o,ho,hkey⟩ := hown
      cases o with
      | job _ => cases hkey
      | event _ => cases hkey
      | scope own =>
        refine ⟨own,hwritten own (mem_scopes.mpr ho),?_⟩
        by_contra hfalse
        have hseen := hs.cleared i tx htx own (mem_scopes.mpr ho) (Bool.eq_false_iff.mpr hfalse) e he
        rw [hed] at hseen
        cases hseen
    · refine ⟨s,mem_scopes.mpr ((mem_merge Row.key).mpr (Or.inr ⟨mem_scopes.mp hm,?_⟩)),hpending⟩
      exact fun o ho hkey => hown ⟨o,ho,hkey⟩

theorem finish_cleared (hstatement : tx.program.statement = .finish) :
    ∀ j a, (finish w i tx).db.sessions j = some a → ∀ s ∈ scopes a.writes,
      s.dispatchPending = false →
      ∀ row ∈ events (rows (finish w i tx) a), deliverable row = false := by
  intro j a ha s hmem hpending row hrow
  obtain ⟨hne,hold⟩ := ReadCommitted.session_commit ha
  have hclear := hs.cleared j a hold s hmem hpending
  rcases events_rows.mp hrow with hown | ⟨hcommitted,hleft⟩
  · exact hclear row (events_rows.mpr (Or.inl hown))
  · rcases finish_mem (mem_events.mp hcommitted) with hm | ⟨hm,_⟩
    · by_contra hd
      rw [Bool.not_eq_false] at hd
      rcases finish_based h htx hstatement (mem_events.mpr hm) hd with ⟨b,hb,hid,hbd⟩ | hflag
      · have hseen := hclear b (events_rows.mpr (Or.inr ⟨hb,by rw [hid]; exact hleft⟩))
        rw [hbd] at hseen
        cases hseen
      · -- Both sessions would hold the directory row.
        obtain ⟨own,hown,_⟩ := hflag
        have hscope := ((h.sessions i tx htx).directory own hown).1
        have hother := ((h.sessions j a hold).directory s hmem).1
        have hnone := h.isolated.exclusive i j hne.symm tx a htx hold _ (mem_scopes.mp hown)
        have hkey : (Row.scope s).key = (Row.scope own).key := by
          rw [Row.key, Row.key, hscope, hother]
        rw [← hkey, ReadCommitted.holds_of_mem Row.key (mem_scopes.mp hmem)] at hnone
        cases hnone
    · exact hclear row (events_rows.mpr (Or.inr ⟨mem_events.mpr hm,hleft⟩))

theorem effect_inSight {w' : World n} (he : Effect w i tx w')
    (hclear : tx.program.statement = .setPending false → free w i (.scope w.scope) →
      ∀ row ∈ events (rows w tx), deliverable row = false) : InSight w' := by
  have hput : ∀ {r : Row}, (∀ row, r ≠ .scope row) →
      ∀ s ∈ scopes (put Row.key r tx.writes), s ∈ scopes tx.writes := by
    intro r hr s hm
    rcases scopes_put hm with heq | hold
    · exact absurd heq (hr s)
    · exact hold
  cases he with
  | wait => exact hs
  | rollback =>
    apply inSight_resume hs (rollback_resumes w i)
    rintro a ⟨⟩
  | goto s hbusy => exact busy_inSight h hs htx hbusy (goto_resumes w i tx s) fun _ hm => hm
  | writeJob job s hbusy _ =>
    exact busy_inSight h hs htx hbusy (write_resumes w i tx _ s) (hput fun _ => Row.noConfusion)
  | writeEvent base row s hbusy _ _ _ _ =>
    exact busy_inSight h hs htx hbusy (write_resumes w i tx _ s) (hput fun _ => Row.noConfusion)
  | insertEvent jobId eventType hbusy =>
    exact busy_inSight h hs htx hbusy (insertEvent_resumes w i tx jobId eventType)
      (hput fun _ => Row.noConfusion)
  | register row hstatement _ hpending _ =>
    apply writeScope_inSight hs
    · intro s hm
      have hfinish := ((h.sessions i tx htx).directory s hm).2
      rw [hstatement] at hfinish
      cases hfinish
    · intro hfalse
      rw [hpending] at hfalse
      cases hfalse
  | setPending pending row hstatement _ hpending hfree =>
    apply writeScope_inSight hs
    · intro s hm
      have hfinish := ((h.sessions i tx htx).directory s hm).2
      rw [hstatement] at hfinish
      cases hfinish
    · intro hfalse
      rw [hpending] at hfalse
      rw [hfalse] at hstatement
      exact hclear hstatement hfree
  | finish hstatement =>
    exact ⟨finish_flagged h hs htx hstatement,finish_cleared h hs htx hstatement⟩

end Sight

theorem step_inSight (w : World n) (a : Action n) (h : Inv w) (hs : InSight w)
    (hclear : ClearsInSight w a) : InSight (step w a) := by
  cases a with
  | start i now request =>
    simp only [step]
    split
    · rename_i s _ _
      have hstart : Resumes w i (some ⟨[],⟨now,s⟩⟩)
          { w with db := setTx w.db i (some ⟨[],⟨now,s⟩⟩) } := ⟨rfl,rfl,le_refl _⟩
      apply inSight_resume hs hstart
      rintro a ⟨⟩ s hm
      cases hm
    · exact hs
  | exec i =>
    simp only [step]
    split
    · exact hs
    · rename_i tx htx
      exact effect_inSight h hs htx (exec_effect w i tx) (hclear tx htx)
  | rollback i =>
    apply inSight_resume hs (rollback_resumes w i)
    rintro a ⟨⟩

theorem initial_inv (scope : Scope) (uploads : List UploadRow) : Inv (initial n scope uploads) where
  isolated := {
    committed := List.nodup_nil
    own := fun _ _ h => by cases h
    exclusive := fun _ _ _ _ _ h => by cases h }
  known := fun _ h => absurd h List.not_mem_nil
  directory := fun _ h => absurd h List.not_mem_nil
  sessions := fun _ _ h => by cases h

theorem initial_inSight (scope : Scope) (uploads : List UploadRow) :
    InSight (initial n scope uploads) where
  flagged := fun _ h => absurd h List.not_mem_nil
  cleared := fun _ _ h => by cases h

/-- No wake-up is lost in a run whose clearing statements see no deliverable
event when they execute. -/
theorem noLostWakeup_of_clearsInSight (scope : Scope) (uploads : List UploadRow)
    (as : List (Action n)) (h : Along step ClearsInSight (initial n scope uploads) as) :
    Always step NoLostWakeup (initial n scope uploads) as := by
  have hboth : Always step (fun w => Inv w ∧ InSight w) (initial n scope uploads) as := by
    apply always_of_along (I := fun _ => True) (C := ClearsInSight)
    · exact fun _ _ _ => trivial
    · exact fun w a _ hw hc => ⟨step_inv w a hw.1,step_inSight w a hw.1 hw.2 hc⟩
    · trivial
    · exact ⟨initial_inv scope uploads,initial_inSight scope uploads⟩
    · exact h
  apply always_mono _ hboth
  rintro w ⟨hinv,hsight⟩ _ row hrow hd
  obtain ⟨s,hm,hpending⟩ := hsight.flagged row hrow hd
  exact ⟨s,hm,hinv.directory s hm,hpending⟩

theorem secondKey_valid : validIdempotencyKey "key-b" = true := by decide

def secondJob : CreateJob :=
  { jobRequest with jobId := ⟨"job_b",by decide⟩, idempotencyKey := ⟨"key-b",secondKey_valid⟩ }

/-- The upload of the sample jobs, accepted. -/
def acceptedUploads : List UploadRow := (acceptedJob.foldl (execute · 3) empty).uploads

def creates (i : Fin n) (request : CreateJob) : List (Action n) :=
  [.start i 3 (.create request), .exec i, .exec i, .exec i, .exec i]

def claims (i : Fin n) (owner : String) : List (Action n) :=
  [.start i 4 (.claim ⟨owner,1⟩), .exec i, .exec i, .exec i, .exec i, .exec i, .exec i]

/-- One job is created, claimed and published, one transaction after the other. -/
def serialRun : List (Action 1) :=
  creates 0 jobRequest++claims 0 "relay-01"++
    [.start 0 5 (.publish 1 "relay-01"), .exec 0, .exec 0, .exec 0, .exec 0]

theorem serialRun_wakeups :
    Always step NoLostWakeup (initial 1 default acceptedUploads) serialRun :=
  noLostWakeup_of_clearsInSight default acceptedUploads serialRun (by decide +kernel)

/-- Between the answer of a publication and its write, a second job commits. -/
def racingRun : List (Action 2) :=
  creates 0 jobRequest++claims 0 "relay-01"++
    [.start 0 5 (.publish 1 "relay-01"), .exec 0, .exec 0]++creates 1 secondJob++
    [.exec 0, .exec 0]

theorem publish_loses_wakeup :
    ¬Always step NoLostWakeup (initial 2 default acceptedUploads) racingRun := by
  intro h
  have hlast : NoLostWakeup (run step (initial 2 default acceptedUploads) racingRun) := always_run h
  revert hlast
  decide +kernel

end DocumentIntelligence.OutboxConcurrency
