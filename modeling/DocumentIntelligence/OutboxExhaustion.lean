import DocumentIntelligence.Commands
import DocumentIntelligence.Transition

/-!
# Exhausted events and the dispatch flag

An exhausted event waits for the claim which dead-letters it, and the claim
waits for the dispatch flag of the scope. Publications and empty claims
recompute the flag from the deliverable events alone, which exhausted events
are not. So the flag keeps an exhausted event in sight exactly along the runs
where every recomputation that leaves one behind also leaves a deliverable one.
-/

set_option autoImplicit false

namespace DocumentIntelligence.OutboxExhaustion
open Identifiers hiding Error
open WorkScopes Schema Jobs Outbox Commands Transition

inductive Action where
  | command (now : ℤ) (c : Command)
  | claim (now : ℤ) (scope : Scope) (claim : ClaimJobOutbox)
  | claimWebhook (now : ℤ) (scope : Scope) (claim : ClaimJobOutbox)
  | publish (now : ℤ) (scope : Scope) (eventId : ℕ) (owner : String)

def step (s : Store) : Action → Store
  | .command now c => execute s now c
  | .claim now scope claim => commit s (claimJobOutbox s now scope claim)
  | .claimWebhook now scope claim => commit s (claimWebhookOutbox s now scope claim)
  | .publish now scope eventId owner => commit s (publishJobOutbox s now scope eventId owner)

/-- A job event which has used its attempts and is neither published nor
dead-lettered. -/
def spent (row : OutboxRow) : Bool :=
  channel row.eventType == .job && outstanding row && row.deliveryAttempts == maximumDeliveryAttempts

def NoForgottenEvent (s : Store) : Prop :=
  ∀ row ∈ s.outbox, spent row = true → Pending s.workScopes row.scope .dispatch

instance (s : Store) : Decidable (NoForgottenEvent s) :=
  inferInstanceAs (Decidable (∀ row ∈ s.outbox, _))

def validClaim (claim : ClaimJobOutbox) : Bool :=
  isValidLeaseOwner claim.leaseOwner && decide (1 ≤ claim.limit ∧ claim.limit ≤ 100)

/-- The scope whose flag an action recomputes: a claim which finds nothing
claimable, or a publication which matches its event. -/
def recomputes (s : Store) : Action → Option Scope
  | .command _ _ | .claimWebhook _ _ _ => none
  | .claim now scope claim =>
    if validClaim claim && !s.outbox.any fun row =>
      row.scope == scope && claimable now claim.leaseOwner .job row
    then some scope else none
  | .publish now scope eventId owner =>
    if isValidLeaseOwner owner && eventId != 0 && s.outbox.any fun row =>
      row.scope == scope && publishable now owner eventId row
    then some scope else none

/-- The event is not settled by the action itself. -/
def survives : Action → OutboxRow → Bool
  | .claim now _ _, row => !exhausted now row
  | .publish now _ eventId owner, row => !publishable now owner eventId row
  | _, _ => true

/-- A recomputation which leaves an exhausted event leaves a deliverable one. -/
def RecomputesInSight (s : Store) (a : Action) : Prop :=
  ∀ scope, recomputes s a = some scope →
    (∃ row ∈ s.outbox, row.scope = scope ∧ spent row = true ∧ survives a row = true) →
    ∃ row ∈ s.outbox, row.scope = scope ∧ deliverable row = true ∧ survives a row = true

/-- Every deliverable event is in sight. Transactions one at a time keep this. -/
def DeliverableInSight (s : Store) : Prop :=
  ∀ row ∈ s.outbox, deliverable row = true → Pending s.workScopes row.scope .dispatch

theorem deliverable_deadLetter (now : ℤ) (row : OutboxRow) :
    deliverable (deadLetter now row) = false := by
  simp [deliverable, outstanding, deadLetter]

theorem deliverable_publish (now : ℤ) (row : OutboxRow) : deliverable (publish now row) = false := by
  simp [deliverable, outstanding, publish]

theorem spent_deadLetter (now : ℤ) (row : OutboxRow) : spent (deadLetter now row) = false := by
  simp [spent, outstanding, deadLetter]

theorem spent_publish (now : ℤ) (row : OutboxRow) : spent (publish now row) = false := by
  simp [spent, outstanding, publish]

theorem deliverable_lease {now : ℤ} {owner : String} {row : OutboxRow}
    (h : deliverable (lease now owner row) = true) : deliverable row = true := by
  have hle : row.deliveryAttempts ≤ (lease now owner row).deliveryAttempts := by
    simp only [lease]
    split <;> omega
  simp only [deliverable, Bool.and_eq_true, decide_eq_true_eq] at h ⊢
  exact ⟨h.1,hle.trans_lt h.2⟩

/-- Only a deliverable event is leased by the job relay, so the event which a
lease exhausts was in sight. -/
theorem deliverable_of_claimable {now : ℤ} {owner : String} {row : OutboxRow}
    (h : claimable now owner .job row = true) : deliverable row = true := by
  simp only [claimable, Bool.and_eq_true] at h
  simp only [deliverable, Bool.and_eq_true]
  exact h.1

theorem spent_webhook {now : ℤ} {owner o : String} {row : OutboxRow}
    (h : claimable now owner .webhook row = true) : spent (lease now o row) = false := by
  simp only [claimable, Bool.and_eq_true, beq_iff_eq] at h
  simp [spent, lease, h.1.1.1]

theorem dispatchPending_iff (s : Store) (scope : Scope) :
    dispatchPending s scope = true ↔ ∃ row ∈ s.outbox, row.scope = scope ∧ deliverable row = true := by
  simp [dispatchPending]

/-- The flag of a recomputed scope says whether a deliverable event is left. -/
theorem pending_recompute_iff {s : Store} (now : ℤ) (scope : Scope)
    (hs : dispatchPending s scope = true → Pending s.workScopes scope .dispatch) :
    Pending (recomputeDispatch s now scope).workScopes scope .dispatch ↔
      dispatchPending s scope = true := by
  unfold recomputeDispatch
  cases h : dispatchPending s scope with
  | false => simpa using pending_set_false now scope .dispatch s.workScopes
  | true =>
    obtain ⟨row,hrow,hscope,_⟩ := hs h
    simpa using pending_set_true now ⟨row,hrow,hscope⟩

theorem pending_recompute_other {s : Store} (now : ℤ) {scope other : Scope} (hne : scope ≠ other) :
    Pending (recomputeDispatch s now scope).workScopes other .dispatch ↔
      Pending s.workScopes other .dispatch :=
  pending_set_other now _ fun h => hne h.1

theorem recompute_inSight {s : Store} (hs : DeliverableInSight s) (now : ℤ) (scope : Scope) :
    DeliverableInSight (recomputeDispatch s now scope) := by
  intro row hrow hd
  by_cases hscope : scope = row.scope
  · rw [← hscope]
    apply (pending_recompute_iff now scope ?_).mpr
    · exact (dispatchPending_iff s scope).mpr ⟨row,hrow,hscope.symm,hd⟩
    · intro _
      rw [hscope]
      exact hs row hrow hd
  · exact (pending_recompute_other now hscope).mpr (hs row hrow hd)

/-- After a recomputation no exhausted event is forgotten exactly when the
recomputed scope has no exhausted event or some deliverable one. -/
theorem recompute_noForgotten_iff {s : Store} (hd : DeliverableInSight s) (hs : NoForgottenEvent s)
    (now : ℤ) (scope : Scope) :
    NoForgottenEvent (recomputeDispatch s now scope) ↔
      ((∃ row ∈ s.outbox, row.scope = scope ∧ spent row = true) →
        ∃ row ∈ s.outbox, row.scope = scope ∧ deliverable row = true) := by
  have hpending : dispatchPending s scope = true → Pending s.workScopes scope .dispatch := by
    intro h
    obtain ⟨row,hrow,hscope,hdel⟩ := (dispatchPending_iff s scope).mp h
    rw [← hscope]
    exact hd row hrow hdel
  have hiff := pending_recompute_iff now scope hpending
  rw [dispatchPending_iff] at hiff
  constructor
  · rintro h ⟨row,hrow,hscope,hspent⟩
    have hflag := h row hrow hspent
    rw [hscope] at hflag
    exact hiff.mp hflag
  · intro h row hrow hspent
    by_cases hscope : scope = row.scope
    · rw [← hscope]
      exact hiff.mpr (h ⟨row,hrow,hscope.symm,hspent⟩)
    · exact (pending_recompute_other now hscope).mpr (hs row hrow hspent)

/-- The invariant of the runs. -/
structure Inv (s : Store) : Prop where
  sourced : Sourced s
  keys : (s.outbox.map (·.eventId)).Nodup
  known : ∀ row ∈ s.outbox, row.eventId < s.nextEventId
  inSight : DeliverableInSight s

theorem inv_empty : Inv empty where
  sourced := sourced_empty
  keys := List.nodup_nil
  known := fun _ h => absurd h List.not_mem_nil
  inSight := fun _ h => absurd h List.not_mem_nil

/-- A transaction which rewrites outbox rows keeps the events sourced. -/
theorem sourced_outbox {s s' : Store} (hs : Sourced s) (huploads : s'.uploads = s.uploads)
    (hjobs : s'.jobs = s.jobs)
    (houtbox : ∀ row' ∈ s'.outbox, ∃ row ∈ s.outbox, row'.scope = row.scope ∧ row'.jobId = row.jobId) :
    Sourced s' where
  keys := huploads ▸ hs.keys
  accepted := huploads ▸ hs.accepted
  jobs := huploads ▸ hjobs ▸ hs.jobs
  events := by
    intro row' hrow'
    obtain ⟨row,hrow,hscope,hjob⟩ := houtbox row' hrow'
    rw [hjobs, hscope, hjob]
    exact hs.events row hrow

theorem command_inv {s : Store} (h : Inv s) (now : ℤ) (c : Command) : Inv (execute s now c) := by
  have hsourced := execute_sourced h.sourced now c
  rcases execute_outbox s now c with ⟨houtbox,hnext,hpending⟩ | ⟨scope,jobId,t,houtbox,hnext,hnew,hpending⟩
  · exact {
      sourced := hsourced
      keys := houtbox ▸ h.keys
      known := houtbox ▸ hnext ▸ h.known
      inSight := by
        unfold DeliverableInSight
        rw [houtbox]
        exact fun row hrow hd => hpending _ (h.inSight row hrow hd) }
  · exact {
      sourced := hsourced
      keys := by
        rw [houtbox]
        exact Table.nodup_append_key h.keys fun row hrow => (h.known row hrow).ne
      known := by
        rw [houtbox, hnext]
        intro row hrow
        rcases List.mem_append.mp hrow with hm | hm
        · exact (h.known row hm).trans (Nat.lt_succ_self _)
        · rw [List.mem_singleton.mp hm]
          exact Nat.lt_succ_self _
      inSight := by
        unfold DeliverableInSight
        rw [houtbox]
        intro row hrow hd
        rcases List.mem_append.mp hrow with hm | hm
        · exact hpending _ (h.inSight row hm hd)
        · rw [List.mem_singleton.mp hm] at hd ⊢
          apply hnew
          simp only [deliverable, Bool.and_eq_true, beq_iff_eq] at hd
          exact hd.1.1 }

theorem command_noForgotten {s : Store} (hs : NoForgottenEvent s) (now : ℤ) (c : Command) :
    NoForgottenEvent (execute s now c) := by
  unfold NoForgottenEvent
  rcases execute_outbox s now c with ⟨houtbox,_,hpending⟩ | ⟨scope,jobId,t,houtbox,_,_,hpending⟩
  · rw [houtbox]
    exact fun row hrow hspent => hpending _ (hs row hrow hspent)
  · rw [houtbox]
    intro row hrow hspent
    rcases List.mem_append.mp hrow with hm | hm
    · exact hpending _ (hs row hm hspent)
    · rw [List.mem_singleton.mp hm] at hspent
      simp [spent, newEvent, maximumDeliveryAttempts] at hspent

section Claim
variable {s : Store} (h : Inv s) (now : ℤ) (scope : Scope) (c : Channel) (claim : ClaimJobOutbox)
include h

theorem claimRows_inv : Inv (claimRows s now scope c claim) where
  sourced := by
    have houtbox : ∀ row' ∈ (claimRows s now scope c claim).outbox,
        ∃ row ∈ s.outbox, row'.scope = row.scope ∧ row'.jobId = row.jobId := by
      intro row' hrow'
      obtain ⟨row,hrow,hcase⟩ := claimRows_cases h.keys hrow'
      refine ⟨row,hrow,?_⟩
      rcases hcase with ⟨rfl,_⟩ | ⟨_,rfl | ⟨rfl,_⟩⟩ <;> exact ⟨rfl,rfl⟩
    exact sourced_outbox h.sourced rfl rfl houtbox
  keys := by
    rw [claimRows_ids]
    exact h.keys
  known := by
    intro row' hrow'
    obtain ⟨row,hrow,hcase⟩ := claimRows_cases h.keys hrow'
    have hlt := h.known row hrow
    rcases hcase with ⟨rfl,_⟩ | ⟨_,rfl | ⟨rfl,_⟩⟩ <;> exact hlt
  inSight := by
    intro row' hrow' hd
    obtain ⟨row,hrow,hcase⟩ := claimRows_cases h.keys hrow'
    rcases hcase with ⟨rfl,_⟩ | ⟨_,rfl | ⟨rfl,_⟩⟩
    · exact h.inSight row hrow (deliverable_lease hd)
    · exact h.inSight row' hrow hd
    · rw [deliverable_deadLetter] at hd
      cases hd

theorem claimRows_noForgotten (hs : NoForgottenEvent s) :
    NoForgottenEvent (claimRows s now scope c claim) := by
  intro row' hrow' hspent
  obtain ⟨row,hrow,hcase⟩ := claimRows_cases h.keys hrow'
  rcases hcase with ⟨rfl,hcand⟩ | ⟨_,rfl | ⟨rfl,_⟩⟩
  · have hclaimable := (candidates_mem hcand).2.2
    cases c with
    | job => exact h.inSight row hrow (deliverable_of_claimable hclaimable)
    | webhook =>
      rw [spent_webhook hclaimable] at hspent
      cases hspent
  · exact hs row' hrow hspent
  · rw [spent_deadLetter] at hspent
    cases hspent

end Claim

theorem recompute_inv {s : Store} (h : Inv s) (now : ℤ) (scope : Scope) :
    Inv (recomputeDispatch s now scope) where
  sourced := sourced_frame h.sourced rfl rfl rfl
  keys := h.keys
  known := h.known
  inSight := recompute_inSight h.inSight now scope

/-- An empty claim leases nothing: its updates are the dead letters. -/
theorem claimRows_of_empty {s : Store} {now : ℤ} {scope : Scope} {c : Channel}
    {claim : ClaimJobOutbox}
    (h : (candidates (deadLetterExhausted s now scope) now scope c claim).isEmpty = true) :
    claimRows s now scope c claim = deadLetterExhausted s now scope := by
  rw [List.isEmpty_iff] at h
  have hdef : claimRows s now scope c claim =
      leaseCandidates (deadLetterExhausted s now scope) now claim.leaseOwner
        (candidates (deadLetterExhausted s now scope) now scope c claim) := rfl
  rw [hdef, h, leaseCandidates, Table.update_of_none]
  exact fun _ _ => rfl

/-- The claim finds nothing exactly when the store had nothing claimable. -/
theorem candidates_isEmpty {s : Store} {now : ℤ} {scope : Scope} {c : Channel}
    {claim : ClaimJobOutbox} (hlimit : 1 ≤ claim.limit) :
    (candidates (deadLetterExhausted s now scope) now scope c claim).isEmpty =
      !s.outbox.any fun row => row.scope == scope && claimable now claim.leaseOwner c row := by
  rw [Bool.eq_iff_iff, List.isEmpty_iff, Bool.not_eq_true', List.any_eq_false]
  unfold candidates
  rw [List.take_eq_nil_iff, List.filter_eq_nil_iff]
  constructor
  · rintro (hzero | hnone) row hrow
    · omega
    · intro hclaimable
      have hp : (row.scope == scope && exhausted now row) = false := by
        simp only [Bool.and_eq_true] at hclaimable
        rw [claimable_not_exhausted hclaimable.2, Bool.and_false]
      exact hnone row (Table.mem_update_kept hrow hp) hclaimable
  · intro hnone
    right
    intro row hrow hclaimable
    rcases Table.mem_update_cases hrow with ⟨hm,_⟩ | ⟨x,_,_,rfl⟩
    · exact hnone row hm hclaimable
    · simp [claimable, outstanding, deadLetter] at hclaimable

/-- The events of a kind which are left in the scope once some are settled. -/
theorem left_iff {rows : List OutboxRow} {scope : Scope} {settles kind : OutboxRow → Bool}
    {settle : OutboxRow → OutboxRow} (hsettle : ∀ row, kind (settle row) = false) :
    (∃ row ∈ Table.update (fun row => row.scope == scope && settles row) settle rows,
      row.scope = scope ∧ kind row = true) ↔
    ∃ row ∈ rows, row.scope = scope ∧ kind row = true ∧ (!settles row) = true := by
  rw [Table.exists_update_iff]
  · constructor
    · rintro ⟨row,hrow,⟨hscope,hkind⟩,hspared⟩
      exact ⟨row,hrow,hscope,hkind,by simpa [hscope] using hspared⟩
    · rintro ⟨row,hrow,hscope,hkind,hspared⟩
      exact ⟨row,hrow,⟨hscope,hkind⟩,by simpa [hscope] using hspared⟩
  · rintro row ⟨_,hkind⟩
    rw [hsettle] at hkind
    cases hkind

theorem inSight_of_none {s : Store} {a : Action} (h : recomputes s a = none) :
    RecomputesInSight s a := by
  intro scope hsome
  rw [h] at hsome
  cases hsome

theorem inSight_of_some {s : Store} {a : Action} {scope : Scope} (h : recomputes s a = some scope) :
    RecomputesInSight s a ↔
      ((∃ row ∈ s.outbox, row.scope = scope ∧ spent row = true ∧ survives a row = true) →
        ∃ row ∈ s.outbox, row.scope = scope ∧ deliverable row = true ∧ survives a row = true) := by
  constructor
  · exact fun hsight => hsight scope h
  · intro hsight other hsome
    rw [h] at hsome
    cases hsome
    exact hsight

theorem claim_cases {s : Store} (hs : Sourced s) (now : ℤ) (scope : Scope) (claim : ClaimJobOutbox) :
    (recomputes s (.claim now scope claim) = none ∧ (step s (.claim now scope claim) = s ∨
      step s (.claim now scope claim) = claimRows s now scope .job claim)) ∨
    (recomputes s (.claim now scope claim) = some scope ∧
      claimRows s now scope .job claim = deadLetterExhausted s now scope ∧
      step s (.claim now scope claim) =
        recomputeDispatch (claimRows s now scope .job claim) now scope) := by
  simp only [step, claimJobOutbox_commit hs, recomputes]
  by_cases hvalid : validClaim claim = true
  · have hv := hvalid
    simp only [validClaim, Bool.and_eq_true, decide_eq_true_eq] at hv
    have hlimit : ¬(claim.limit < 1 ∨ 100 < claim.limit) := by omega
    have hguard : (!isValidLeaseOwner claim.leaseOwner ||
        decide (claim.limit < 1 ∨ 100 < claim.limit)) = false := by
      rw [hv.1, decide_eq_false hlimit]
      rfl
    rw [hguard, hvalid, Bool.true_and, ← candidates_isEmpty hv.2.1]
    by_cases hempty :
        (candidates (deadLetterExhausted s now scope) now scope .job claim).isEmpty = true
    · right
      rw [hempty]
      exact ⟨rfl,claimRows_of_empty hempty,rfl⟩
    · left
      rw [Bool.eq_false_iff.mpr hempty]
      exact ⟨rfl,Or.inr rfl⟩
  · left
    have hguard : (!isValidLeaseOwner claim.leaseOwner ||
        decide (claim.limit < 1 ∨ 100 < claim.limit)) = true := by
      by_contra hcontra
      apply hvalid
      simp only [Bool.or_eq_true, Bool.not_eq_true', decide_eq_true_eq, not_or,
        Bool.not_eq_false] at hcontra
      simp only [validClaim, Bool.and_eq_true, decide_eq_true_eq]
      exact ⟨hcontra.1,by omega⟩
    rw [hguard, Bool.eq_false_iff.mpr hvalid]
    exact ⟨rfl,Or.inl rfl⟩

theorem claimWebhook_cases (s : Store) (now : ℤ) (scope : Scope) (claim : ClaimJobOutbox) :
    step s (.claimWebhook now scope claim) = s ∨
      step s (.claimWebhook now scope claim) = claimRows s now scope .webhook claim := by
  simp only [step, claimWebhookOutbox]
  split
  · exact Or.inl rfl
  · split
    · exact Or.inl rfl
    · exact Or.inr rfl

theorem publish_cases (s : Store) (now : ℤ) (scope : Scope) (eventId : ℕ) (owner : String) :
    (recomputes s (.publish now scope eventId owner) = none ∧
      step s (.publish now scope eventId owner) = s) ∨
    (recomputes s (.publish now scope eventId owner) = some scope ∧
      step s (.publish now scope eventId owner) = publishRow s now scope eventId owner) := by
  cases hv : isValidLeaseOwner owner with
  | false => exact Or.inl ⟨by simp [recomputes, hv],by simp [step, publishJobOutbox, hv]⟩
  | true =>
    by_cases hid : eventId = 0
    · exact Or.inl ⟨by simp [recomputes, hid],by simp [step, publishJobOutbox, hv, hid]⟩
    · cases hany : s.outbox.any fun row =>
          row.scope == scope && publishable now owner eventId row with
      | true =>
        right
        constructor
        · simp only [recomputes, hv, hany, bne_iff_ne.mpr hid, Bool.and_self, if_true]
        · simp only [step, publishJobOutbox, hv, hany, if_neg hid, if_true, Bool.not_true,
            Bool.false_eq_true, if_false, commit_ok]
      | false =>
        left
        constructor
        · simp only [recomputes, hany, Bool.and_false, Bool.false_eq_true, if_false]
        · simp only [step, publishJobOutbox, hv, hany, if_neg hid, Bool.not_true,
            Bool.false_eq_true, if_false]
          cases s.outbox.find? (isEvent scope eventId) <;> rfl

/-- The row update of a publication, before the flag is recomputed. -/
def publishedRows (s : Store) (now : ℤ) (scope : Scope) (eventId : ℕ) (owner : String) : Store :=
  { s with
    outbox := Table.update (fun row => row.scope == scope && publishable now owner eventId row)
      (publish now) s.outbox }

theorem publishedRows_cases {s : Store} {now : ℤ} {scope : Scope} {eventId : ℕ} {owner : String}
    {row' : OutboxRow} (h : row' ∈ (publishedRows s now scope eventId owner).outbox) :
    row' ∈ s.outbox ∨ ∃ row ∈ s.outbox, row' = publish now row := by
  rcases Table.mem_update_cases h with ⟨hm,_⟩ | ⟨x,hx,_,heq⟩
  · exact Or.inl hm
  · exact Or.inr ⟨x,hx,heq⟩

theorem publishedRows_inv {s : Store} (h : Inv s) (now : ℤ) (scope : Scope) (eventId : ℕ)
    (owner : String) : Inv (publishedRows s now scope eventId owner) where
  sourced := by
    have houtbox : ∀ row' ∈ (publishedRows s now scope eventId owner).outbox,
        ∃ row ∈ s.outbox, row'.scope = row.scope ∧ row'.jobId = row.jobId := by
      intro row' hrow'
      rcases publishedRows_cases hrow' with hm | ⟨x,hx,rfl⟩
      · exact ⟨row',hm,rfl,rfl⟩
      · exact ⟨x,hx,rfl,rfl⟩
    exact sourced_outbox h.sourced rfl rfl houtbox
  keys := by
    have hids : (publishedRows s now scope eventId owner).outbox.map (·.eventId) =
        s.outbox.map (·.eventId) := by
      apply Table.map_update OutboxRow.eventId
      exact fun _ => rfl
    rw [hids]
    exact h.keys
  known := by
    intro row' hrow'
    rcases publishedRows_cases hrow' with hm | ⟨x,hx,rfl⟩
    · exact h.known row' hm
    · exact h.known x hx
  inSight := by
    intro row' hrow' hd
    rcases publishedRows_cases hrow' with hm | ⟨x,hx,rfl⟩
    · exact h.inSight row' hm hd
    · rw [deliverable_publish] at hd
      cases hd

theorem publishedRows_noForgotten {s : Store} (hs : NoForgottenEvent s) (now : ℤ) (scope : Scope)
    (eventId : ℕ) (owner : String) :
    NoForgottenEvent (publishedRows s now scope eventId owner) := by
  intro row' hrow' hspent
  rcases publishedRows_cases hrow' with hm | ⟨x,hx,rfl⟩
  · exact hs row' hm hspent
  · rw [spent_publish] at hspent
    cases hspent

theorem step_inv (s : Store) (a : Action) (h : Inv s) : Inv (step s a) := by
  cases a with
  | command now c => exact command_inv h now c
  | claim now scope claim =>
    have hrows := claimRows_inv h now scope .job claim
    rcases claim_cases h.sourced now scope claim with ⟨_,heq | heq⟩ | ⟨_,_,heq⟩ <;> rw [heq]
    · exact h
    · exact hrows
    · exact recompute_inv hrows now scope
  | claimWebhook now scope claim =>
    rcases claimWebhook_cases s now scope claim with heq | heq <;> rw [heq]
    · exact h
    · exact claimRows_inv h now scope .webhook claim
  | publish now scope eventId owner =>
    rcases publish_cases s now scope eventId owner with ⟨_,heq⟩ | ⟨_,heq⟩ <;> rw [heq]
    · exact h
    · exact recompute_inv (publishedRows_inv h now scope eventId owner) now scope

theorem step_iff (s : Store) (a : Action) (h : Inv s) (hs : NoForgottenEvent s) :
    RecomputesInSight s a ↔ NoForgottenEvent (step s a) := by
  cases a with
  | command now c =>
    exact iff_of_true (inSight_of_none rfl) (command_noForgotten hs now c)
  | claim now scope claim =>
    have hrows := claimRows_noForgotten h now scope .job claim hs
    rcases claim_cases h.sourced now scope claim with ⟨hnone,heq | heq⟩ | ⟨hsome,hdead,heq⟩
    · rw [heq]
      exact iff_of_true (inSight_of_none hnone) hs
    · rw [heq]
      exact iff_of_true (inSight_of_none hnone) hrows
    · rw [heq, inSight_of_some hsome,
        recompute_noForgotten_iff (claimRows_inv h now scope .job claim).inSight hrows, hdead]
      exact (imp_congr (left_iff (spent_deadLetter now))
        (left_iff (deliverable_deadLetter now))).symm
  | claimWebhook now scope claim =>
    rcases claimWebhook_cases s now scope claim with heq | heq <;> rw [heq]
    · exact iff_of_true (inSight_of_none rfl) hs
    · exact iff_of_true (inSight_of_none rfl) (claimRows_noForgotten h now scope .webhook claim hs)
  | publish now scope eventId owner =>
    rcases publish_cases s now scope eventId owner with ⟨hnone,heq⟩ | ⟨hsome,heq⟩ <;> rw [heq]
    · exact iff_of_true (inSight_of_none hnone) hs
    · rw [inSight_of_some hsome]
      have hiff := recompute_noForgotten_iff
        (publishedRows_inv h now scope eventId owner).inSight
        (publishedRows_noForgotten hs now scope eventId owner) now scope
      exact (imp_congr (left_iff (spent_publish now)) (left_iff (deliverable_publish now))).symm.trans
        hiff.symm

/-- No exhausted event is forgotten in a run exactly when every recomputation
which leaves one in its scope leaves a deliverable event too. -/
theorem noForgotten_always_iff (as : List Action) :
    Always step NoForgottenEvent empty as ↔ Along step RecomputesInSight empty as := by
  apply always_iff_along step_inv step_iff inv_empty
  intro row hrow
  cases hrow

/-- The event of a job is claimed twenty times by one relay, each time after the
previous lease expired, and then another relay claims under the last lease. -/
def forgettingRun : List Action :=
  acceptedJob.map (.command 3)++((List.range 20).map fun n =>
    .claim (n*fiveMinutes) default ⟨"relay-01",1⟩)++
    [.claim (19*fiveMinutes+1) default ⟨"relay-02",1⟩]

/-- The last claim leases nothing and clears the flag. -/
theorem exhausted_event_forgotten : ¬Always step NoForgottenEvent empty forgettingRun := by
  intro h
  have hlast : NoForgottenEvent (run step empty forgettingRun) := always_run h
  revert hlast
  decide +kernel

end DocumentIntelligence.OutboxExhaustion
