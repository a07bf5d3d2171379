import DocumentIntelligence.DeliveryLedger
import DocumentIntelligence.Transition

/-!
# Relays over the outbox

A relay runs `relay_scope`: it claims a batch, dispatches each event of it and
publishes the event after its dispatch succeeded. Any number of relays work at
once. Between their transactions the clock advances, commands commit and relays
crash. The grants and the successful dispatches are recorded beside the store.
-/

set_option autoImplicit false

namespace DocumentIntelligence.Deliveries
open Identifiers hiding Error
open Schema Outbox Commands DeliveryLedger Transition

structure Relay where
  scope : Scope
  owner : String
  events : List ℕ
  dispatched : Option ℕ
  deriving DecidableEq, Repr

structure World where
  store : Store
  now : ℤ
  relays : ℕ → Option Relay
  grants : List Grant
  dispatches : List (ℕ × ℕ)

inductive Action where
  | tick (elapsed : ℕ)
  | command (c : Command)
  | claim (relay : ℕ) (c : Channel) (scope : Scope) (claim : ClaimJobOutbox)
  | dispatch (relay eventId : ℕ) (succeeded : Bool)
  | publish (relay : ℕ)
  | crash (relay : ℕ)

/-- Both claims, with the identities of the events which they return. -/
def claimOutbox (s : Store) (now : ℤ) (scope : Scope) (claim : ClaimJobOutbox) :
    Channel → Transaction (List ℕ)
  | .job => (claimJobOutbox s now scope claim).map fun (events,s') =>
      (events.map (·.eventId),s')
  | .webhook => (claimWebhookOutbox s now scope claim).map fun (events,s') =>
      (events.map (·.eventId),s')

def setRelay (w : World) (relay : ℕ) (r : Option Relay) : World :=
  { w with relays := Function.update w.relays relay r }

/-- `relay_scope` returns `Idle` from an empty batch, so no relay starts. -/
def claim (w : World) (relay : ℕ) (c : Channel) (scope : Scope) (request : ClaimJobOutbox) : World :=
  if (w.relays relay).isSome then w
  else match claimOutbox w.store w.now scope request c with
  | .error _ => w
  | .ok (events, s) =>
    let w := { w with
      store := s
      grants := w.grants++claimGrants w.store w.now scope c request }
    if events.isEmpty then w else setRelay w relay (some ⟨scope,request.leaseOwner,events,none⟩)

/-- The starter decides whether the dispatch succeeds. The batch is worked
through in any order, each event once. -/
def dispatch (w : World) (relay eventId : ℕ) (succeeded : Bool) : World :=
  match w.relays relay with
  | none => w
  | some r =>
    if r.dispatched.isSome || !r.events.contains eventId then w
    else if succeeded then
      setRelay { w with dispatches := w.dispatches++[(relay,eventId)] } relay
        (some { r with dispatched := some eventId })
    else setRelay w relay none

def publish (w : World) (relay : ℕ) : World :=
  match w.relays relay with
  | none => w
  | some r => match r.dispatched with
    | none => w
    | some eventId => match publishJobOutbox w.store w.now r.scope eventId r.owner with
      | .error _ => setRelay w relay none
      | .ok (outcome, s) =>
        if outcome = .published ∨ outcome = .existing then
          setRelay { w with store := s } relay
            (some { r with events := r.events.erase eventId, dispatched := none })
        else setRelay { w with store := s } relay none

def step (w : World) : Action → World
  | .tick elapsed => { w with now := w.now+elapsed }
  | .command c => { w with store := execute w.store w.now c }
  | .claim relay c scope request => claim w relay c scope request
  | .dispatch relay eventId succeeded => dispatch w relay eventId succeeded
  | .publish relay => publish w relay
  | .crash relay => setRelay w relay none

def initial (start : ℤ) : World := ⟨empty,start,fun _ => none,[],[]⟩

def WorldLedger (w : World) : Prop := Ledger w.now w.store.nextEventId w.store.outbox w.grants

/-- A relay which is about to publish has dispatched the event. -/
def Dispatched (w : World) : Prop :=
  ∀ relay r eventId, w.relays relay = some r → r.dispatched = some eventId →
    (relay,eventId) ∈ w.dispatches

theorem claimJobOutbox_outbox {s s' : Store} {now : ℤ} {scope : Scope} {request : ClaimJobOutbox}
    {events : List StoredJobOutboxEvent} (h : claimJobOutbox s now scope request = .ok (events,s')) :
    s'.outbox = (claimRows s now scope .job request).outbox ∧ s'.nextEventId = s.nextEventId := by
  unfold claimJobOutbox at h
  split at h
  · cases h
  · split at h
    · cases h
    · simp only [Except.map] at h
      split at h
      · cases h
      · cases h
        split <;> exact ⟨rfl,rfl⟩

theorem claimWebhookOutbox_outbox {s s' : Store} {now : ℤ} {scope : Scope}
    {request : ClaimJobOutbox} {events : List StoredWebhookOutboxEvent}
    (h : claimWebhookOutbox s now scope request = .ok (events,s')) :
    s' = claimRows s now scope .webhook request := by
  unfold claimWebhookOutbox at h
  split at h
  · cases h
  · split at h
    · cases h
    · cases h
      rfl

theorem claimOutbox_outbox {s s' : Store} {now : ℤ} {scope : Scope} {request : ClaimJobOutbox}
    {c : Channel} {events : List ℕ} (h : claimOutbox s now scope request c = .ok (events,s')) :
    s'.outbox = (claimRows s now scope c request).outbox ∧ s'.nextEventId = s.nextEventId := by
  cases c with
  | job =>
    simp only [claimOutbox] at h
    cases hclaim : claimJobOutbox s now scope request with
    | error e => simp [hclaim, Except.map] at h
    | ok p =>
      simp only [hclaim, Except.map, Except.ok.injEq, Prod.mk.injEq] at h
      rw [← h.2]
      exact claimJobOutbox_outbox hclaim
  | webhook =>
    simp only [claimOutbox] at h
    cases hclaim : claimWebhookOutbox s now scope request with
    | error e => simp [hclaim, Except.map] at h
    | ok p =>
      simp only [hclaim, Except.map, Except.ok.injEq, Prod.mk.injEq] at h
      rw [← h.2, claimWebhookOutbox_outbox hclaim]
      exact ⟨rfl,rfl⟩

/-- A publication writes the matching row or nothing. -/
theorem publishJobOutbox_cases {s s' : Store} {now : ℤ} {scope : Scope} {eventId : ℕ}
    {owner : String} {outcome : PublishJobOutboxOutcome}
    (h : publishJobOutbox s now scope eventId owner = .ok (outcome,s')) :
    s' = publishRow s now scope eventId owner ∨ s' = s := by
  unfold publishJobOutbox at h
  split at h
  · cases h
  · split at h
    · cases h
    · split at h
      · cases h
        exact Or.inl rfl
      · split at h
        · cases h
          exact Or.inr rfl
        · cases h
          exact Or.inr rfl

/-- What an action can do to the outbox, the grants and the clock. -/
inductive Effect (w : World) : Action → World → Prop
  | tick (elapsed : ℕ) {w' : World} (hstore : w'.store = w.store) (hgrants : w'.grants = w.grants)
      (hnow : w'.now = w.now+elapsed) : Effect w (.tick elapsed) w'
  | quiet (a : Action) {w' : World} (houtbox : w'.store.outbox = w.store.outbox)
      (hnext : w'.store.nextEventId = w.store.nextEventId) (hgrants : w'.grants = w.grants)
      (hnow : w'.now = w.now) : Effect w a w'
  | append (c : Command) {w' : World} (happend : AppendsEvent w.store w'.store w.now)
      (hgrants : w'.grants = w.grants) (hnow : w'.now = w.now) : Effect w (.command c) w'
  | claim (relay : ℕ) (c : Channel) (scope : Scope) (request : ClaimJobOutbox) {w' : World}
      (houtbox : w'.store.outbox = (claimRows w.store w.now scope c request).outbox)
      (hnext : w'.store.nextEventId = w.store.nextEventId)
      (hgrants : w'.grants = w.grants++claimGrants w.store w.now scope c request)
      (hnow : w'.now = w.now) : Effect w (.claim relay c scope request) w'
  | publish (relay eventId : ℕ) (r : Relay) {w' : World} (hrelay : w.relays relay = some r)
      (hdispatched : r.dispatched = some eventId)
      (hstore : w'.store = publishRow w.store w.now r.scope eventId r.owner)
      (hgrants : w'.grants = w.grants) (hnow : w'.now = w.now) : Effect w (.publish relay) w'

theorem claim_effect (w : World) (relay : ℕ) (c : Channel) (scope : Scope)
    (request : ClaimJobOutbox) :
    Effect w (.claim relay c scope request) (claim w relay c scope request) := by
  unfold claim
  split
  · exact Effect.quiet _ rfl rfl rfl rfl
  · split
    · exact Effect.quiet _ rfl rfl rfl rfl
    · rename_i hclaim
      have h := claimOutbox_outbox hclaim
      dsimp only
      split <;> exact Effect.claim relay c scope request h.1 h.2 rfl rfl

theorem publish_effect (w : World) (relay : ℕ) : Effect w (.publish relay) (publish w relay) := by
  unfold publish
  split
  · exact Effect.quiet _ rfl rfl rfl rfl
  · rename_i r hrelay
    split
    · exact Effect.quiet _ rfl rfl rfl rfl
    · rename_i eventId hdispatched
      split
      · exact Effect.quiet _ rfl rfl rfl rfl
      · rename_i s hpublish
        have hcases := publishJobOutbox_cases hpublish
        split <;>
        · rcases hcases with rfl | rfl
          · exact Effect.publish relay eventId r hrelay hdispatched rfl rfl rfl
          · exact Effect.quiet _ rfl rfl rfl rfl

theorem step_effect (w : World) (a : Action) : Effect w a (step w a) := by
  cases a with
  | tick elapsed => exact Effect.tick elapsed rfl rfl rfl
  | command c =>
    rcases execute_outbox w.store w.now c with h | h
    · exact Effect.quiet _ h.1 h.2.1 rfl rfl
    · exact Effect.append c h rfl rfl
  | claim relay c scope request => exact claim_effect w relay c scope request
  | dispatch relay eventId succeeded =>
    simp only [step, dispatch]
    split
    · exact Effect.quiet _ rfl rfl rfl rfl
    · split
      · exact Effect.quiet _ rfl rfl rfl rfl
      · split <;> exact Effect.quiet _ rfl rfl rfl rfl
  | publish relay => exact publish_effect w relay
  | crash relay => exact Effect.quiet _ rfl rfl rfl rfl

theorem effect_ledger {w w' : World} {a : Action} (he : Effect w a w') (h : WorldLedger w) :
    WorldLedger w' := by
  unfold WorldLedger at *
  cases he with
  | tick elapsed hstore hgrants hnow =>
    rw [hstore, hgrants, hnow]
    exact ledger_tick (by omega) h
  | quiet _ houtbox hnext hgrants hnow =>
    rw [houtbox, hnext, hgrants, hnow]
    exact h
  | append c happend hgrants hnow =>
    obtain ⟨scope,jobId,eventType,houtbox,hnext,_⟩ := happend
    rw [houtbox, hnext, hgrants, hnow]
    exact ledger_append h _ scope jobId eventType
  | claim relay c scope request houtbox hnext hgrants hnow =>
    rw [houtbox, hnext, hgrants, hnow]
    exact ledger_claim scope c request h
  | publish relay eventId r _ _ hstore hgrants hnow =>
    rw [hstore, hgrants, hnow]
    exact ledger_publish h r.scope eventId r.owner

theorem step_ledger (w : World) (a : Action) (h : WorldLedger w) : WorldLedger (step w a) :=
  effect_ledger (step_effect w a) h

theorem dispatched_mono {w w' : World} (h : Dispatched w) (hlog : w'.dispatches = w.dispatches)
    {relay : ℕ} {r : Option Relay} (hrelays : w'.relays = Function.update w.relays relay r)
    (hr : ∀ x, r = some x → x.dispatched = none) : Dispatched w' := by
  intro k x eventId hk hx
  rw [hrelays] at hk
  rw [hlog]
  by_cases hkr : k = relay
  · rw [hkr, Function.update_self] at hk
    rw [hr x hk] at hx
    cases hx
  · rw [Function.update_of_ne hkr] at hk
    exact h k x eventId hk hx

theorem step_dispatched (w : World) (a : Action) (h : Dispatched w) : Dispatched (step w a) := by
  cases a with
  | tick elapsed => exact h
  | command c => exact h
  | claim relay c scope request =>
    simp only [step, claim]
    split
    · exact h
    · split
      · exact h
      · split
        · exact h
        · exact dispatched_mono h rfl rfl (by rintro x ⟨⟩; rfl)
  | dispatch relay eventId succeeded =>
    simp only [step, dispatch]
    split
    · exact h
    · rename_i r hrelay
      split
      · exact h
      · split
        · intro k x e hk hx
          simp only [setRelay] at hk ⊢
          by_cases hkr : k = relay
          · rw [hkr, Function.update_self] at hk
            cases hk
            cases hx
            rw [hkr]
            exact List.mem_append_right _ (List.mem_singleton_self _)
          · rw [Function.update_of_ne hkr] at hk
            exact List.mem_append_left _ (h k x e hk hx)
        · exact dispatched_mono h rfl rfl (by rintro x ⟨⟩)
  | publish relay =>
    simp only [step, publish]
    split
    · exact h
    · split
      · exact h
      · split
        · exact dispatched_mono h rfl rfl (by rintro x ⟨⟩)
        · split
          · exact dispatched_mono h rfl rfl (by rintro x ⟨⟩; rfl)
          · exact dispatched_mono h rfl rfl (by rintro x ⟨⟩)
  | crash relay => exact dispatched_mono h rfl rfl (by rintro x ⟨⟩)

theorem initial_ledger (start : ℤ) : WorldLedger (initial start) := ledger_empty start 1

theorem run_ledger (start : ℤ) (as : List Action) : WorldLedger (run step (initial start) as) :=
  run_invariant step_ledger (initial_ledger start) as

theorem run_dispatched (start : ℤ) (as : List Action) : Dispatched (run step (initial start) as) :=
  run_invariant step_dispatched (by rintro _ _ _ ⟨⟩) as

/-- What holds of the leases in a reachable world. -/
structure LeaseSafe (w : World) : Prop where
  unique : (w.store.outbox.map (·.eventId)).Nodup
  exclusive : ∀ g ∈ w.grants, ∀ h ∈ w.grants, g.eventId = h.eventId → g.owner ≠ h.owner →
    ∀ instant, ¬(g.Covers instant ∧ h.Covers instant)
  held : ∀ row ∈ w.store.outbox, ∀ owner, row.deliveryLeaseOwner = some owner →
    leaseLive w.now row = true →
    ∃ g ∈ w.grants, g.eventId = row.eventId ∧ g.owner = owner ∧ g.Covers w.now
  once : ∀ row ∈ w.store.outbox, row.publishedAt.isSome → row.deadLetteredAt.isNone
  shape : ∀ row ∈ w.store.outbox, deliveryShape row = true

/-- What one action may do to the marks of an event. -/
structure MarksSafe (w : World) (a : Action) (row row' : OutboxRow) : Prop where
  published : row.publishedAt = none → row'.publishedAt.isSome → ∃ relay r,
    a = .publish relay ∧ w.relays relay = some r ∧ r.dispatched = some row.eventId ∧
    (relay,row.eventId) ∈ w.dispatches ∧ row.deliveryLeaseOwner = some r.owner ∧
    leaseLive w.now row = true
  kept : ∀ instant, row.publishedAt = some instant → row'.publishedAt = some instant
  deadLettered : row.deadLetteredAt = none → row'.deadLetteredAt.isSome →
    row.deliveryAttempts = maximumDeliveryAttempts ∧ leaseLive w.now row = false

theorem leaseSafe_of_ledger {w : World} (h : WorldLedger w) : LeaseSafe w where
  unique := h.keys
  exclusive := by
    rintro g hg k hk hid hne instant ⟨hcg,hck⟩
    rcases h.apart g hg k hk hid hne with hle | hle
    · exact absurd (hcg.2.trans_le (hle.trans hck.1)) (lt_irrefl _)
    · exact absurd (hck.2.trans_le (hle.trans hcg.1)) (lt_irrefl _)
  held := by
    intro row hrow owner howner hlive
    rw [leaseLive] at hlive
    cases he : row.deliveryLeaseExpiresAt with
    | none => simp [he] at hlive
    | some expires =>
      obtain ⟨g,hg,hid,hgo,hexpires⟩ := (h.rows row hrow).held owner expires howner he
      refine ⟨g,hg,hid,hgo,(h.granted g hg).2.1,?_⟩
      rw [he] at hlive
      rw [hexpires]
      exact of_decide_eq_true hlive
  once := by
    intro row hrow hp
    have hs := (h.rows row hrow).shape
    by_contra hd
    rw [Option.isNone_iff_eq_none, ← ne_eq, Option.ne_none_iff_isSome] at hd
    cases hpub : row.publishedAt <;> cases hdead : row.deadLetteredAt <;>
      simp_all [deliveryShape]
  shape := fun row hrow => (h.rows row hrow).shape

theorem marksSafe_same (w : World) (a : Action) {row row' : OutboxRow}
    (hp : row'.publishedAt = row.publishedAt) (hd : row'.deadLetteredAt = row.deadLetteredAt) :
    MarksSafe w a row row' where
  published := by
    intro hnone hsome
    rw [hp, hnone] at hsome
    cases hsome
  kept := fun _ h => hp.trans h
  deadLettered := by
    intro hnone hsome
    rw [hd, hnone] at hsome
    cases hsome

theorem exhausted_marks {now : ℤ} {row : OutboxRow} (h : exhausted now row = true) :
    row.deliveryAttempts = maximumDeliveryAttempts ∧ leaseLive now row = false := by
  simp only [exhausted, Bool.and_eq_true, beq_iff_eq] at h
  refine ⟨h.1.2,?_⟩
  have hexpired := h.2
  rw [leaseExpired] at hexpired
  rw [leaseLive]
  cases he : row.deliveryLeaseExpiresAt with
  | none => rfl
  | some expires =>
    rw [he] at hexpired
    exact decide_eq_false (not_lt.mpr (of_decide_eq_true hexpired))

theorem step_marksSafe {w : World} (h : WorldLedger w) (hd : Dispatched w) (a : Action)
    {row row' : OutboxRow} (hrow : row ∈ w.store.outbox) (hrow' : row' ∈ (step w a).store.outbox)
    (hid : row'.eventId = row.eventId) : MarksSafe w a row row' := by
  have hsame : ∀ {x : OutboxRow}, x ∈ w.store.outbox → x.eventId = row.eventId → x = row :=
    fun hx hxid => Table.eq_of_key h.keys hx hrow hxid
  have he := step_effect w a
  revert hrow' he
  generalize step w a = w'
  intro hrow' he
  cases he with
  | tick elapsed hstore _ _ =>
    rw [hstore] at hrow'
    rw [hsame hrow' hid]
    exact marksSafe_same w _ rfl rfl
  | quiet _ houtbox _ _ _ =>
    rw [houtbox] at hrow'
    rw [hsame hrow' hid]
    exact marksSafe_same w _ rfl rfl
  | append c happend _ _ =>
    obtain ⟨scope,jobId,eventType,houtbox,_⟩ := happend
    rw [houtbox] at hrow'
    rcases List.mem_append.mp hrow' with hm | hm
    · rw [hsame hm hid]
      exact marksSafe_same w _ rfl rfl
    · rw [List.mem_singleton.mp hm] at hid
      exact absurd hid.symm (h.known row hrow).ne
  | claim relay c scope request houtbox _ _ _ =>
    rw [houtbox] at hrow'
    obtain ⟨x,hx,hcase⟩ := claimRows_cases h.keys hrow'
    rcases hcase with ⟨rfl,_⟩ | ⟨_,rfl | ⟨rfl,_,hexhausted⟩⟩
    · rw [hsame hx hid]
      exact marksSafe_same w _ rfl rfl
    · rw [hsame hx hid]
      exact marksSafe_same w _ rfl rfl
    · rw [hsame hx hid] at hexhausted ⊢
      exact {
        published := fun hnone hsome => by
          change row.publishedAt.isSome at hsome
          rw [hnone] at hsome
          cases hsome
        kept := fun _ hp => hp
        deadLettered := fun _ _ => exhausted_marks hexhausted }
  | publish relay eventId r hrelay hdispatched hstore _ _ =>
    rw [hstore] at hrow'
    rcases Table.mem_update_cases hrow' with ⟨hm,_⟩ | ⟨x,hx,hp,rfl⟩
    · rw [hsame hm hid]
      exact marksSafe_same w _ rfl rfl
    · rw [hsame hx hid] at hp ⊢
      simp only [publishable, outstanding, Bool.and_eq_true, beq_iff_eq,
        Option.isNone_iff_eq_none] at hp
      obtain ⟨_,⟨⟨heid,hpub,_⟩,howner⟩,hlive⟩ := hp
      refine ⟨fun _ _ => ⟨relay,r,rfl,hrelay,?_,?_,howner,hlive⟩,?_,?_⟩
      · rw [heid]
        exact hdispatched
      · rw [heid]
        exact hd relay r eventId hrelay hdispatched
      · intro instant hsome
        rw [hpub] at hsome
        cases hsome
      · intro hnone hsome
        change row.deadLetteredAt.isSome at hsome
        rw [hnone] at hsome
        cases hsome

/-- In every reachable world the leases are safe, and so is every action's
effect on the marks of every event. -/
theorem run_lease_safe (start : ℤ) (as : List Action) :
    LeaseSafe (run step (initial start) as) ∧
      ∀ a, ∀ row ∈ (run step (initial start) as).store.outbox,
        ∀ row' ∈ (step (run step (initial start) as) a).store.outbox,
          row'.eventId = row.eventId → MarksSafe (run step (initial start) as) a row row' := by
  have h := run_ledger start as
  have hd := run_dispatched start as
  exact ⟨leaseSafe_of_ledger h,fun a row hrow row' hrow' hid =>
    step_marksSafe h hd a hrow hrow' hid⟩

theorem storedJobOutboxEvent_id {row : OutboxRow} {pageCount : Option ℤ}
    {event : StoredJobOutboxEvent} (h : storedJobOutboxEvent row pageCount = .ok event) :
    event.eventId = row.eventId := by
  unfold storedJobOutboxEvent at h
  split at h
  · cases h
  · cases h
  · split at h
    · cases h
      rfl
    · cases h

theorem joinWebhook_id {s : Store} {row : OutboxRow} {event : StoredWebhookOutboxEvent}
    (h : joinWebhook s row = some event) : event.eventId = row.eventId := by
  simp only [joinWebhook, Option.bind_eq_bind, Option.bind_eq_some_iff] at h
  obtain ⟨_,_,_,_,_,_,hevent⟩ := h
  cases hevent
  rfl

theorem claimJobOutbox_events {s s' : Store} {now : ℤ} {scope : Scope} {request : ClaimJobOutbox}
    {events : List StoredJobOutboxEvent} (h : claimJobOutbox s now scope request = .ok (events,s'))
    {event : StoredJobOutboxEvent} (he : event ∈ events) :
    ∃ row ∈ candidates (deadLetterExhausted s now scope) now scope .job request,
      event.eventId = row.eventId := by
  unfold claimJobOutbox at h
  split at h
  · cases h
  · split at h
    · cases h
    · simp only [Except.map] at h
      split at h
      · cases h
      · rename_i hm
        cases h
        obtain ⟨⟨row,pageCount⟩,hx,hf⟩ := Table.mem_of_mapM_ok hm he
        obtain ⟨y,hy,hjoin⟩ := List.mem_filterMap.mp hx
        obtain ⟨_,_,hpair⟩ := Option.map_eq_some_iff.mp hjoin
        cases hpair
        exact ⟨row,hy,storedJobOutboxEvent_id hf⟩

/-- A claim hands out nothing but events which it leased to the owner. -/
theorem claimOutbox_granted {s s' : Store} {now : ℤ} {scope : Scope} {request : ClaimJobOutbox}
    {c : Channel} {events : List ℕ} (h : claimOutbox s now scope request c = .ok (events,s'))
    {eventId : ℕ} (he : eventId ∈ events) :
    ∃ g ∈ claimGrants s now scope c request, g.eventId = eventId ∧ g.owner = request.leaseOwner := by
  have hgrant : ∀ row ∈ candidates (deadLetterExhausted s now scope) now scope c request,
      row.eventId = eventId → ∃ g ∈ claimGrants s now scope c request,
        g.eventId = eventId ∧ g.owner = request.leaseOwner := by
    intro row hrow hid
    exact ⟨grant now request.leaseOwner row,List.mem_map.mpr ⟨row,hrow,rfl⟩,hid,rfl⟩
  cases c with
  | job =>
    simp only [claimOutbox] at h
    cases hclaim : claimJobOutbox s now scope request with
    | error e => simp [hclaim, Except.map] at h
    | ok p =>
      simp only [hclaim, Except.map, Except.ok.injEq, Prod.mk.injEq] at h
      rw [← h.1] at he
      obtain ⟨event,hevent,rfl⟩ := List.mem_map.mp he
      obtain ⟨row,hrow,hid⟩ := claimJobOutbox_events hclaim hevent
      exact hgrant row hrow hid.symm
  | webhook =>
    simp only [claimOutbox, claimWebhookOutbox] at h
    split at h
    · cases h
    · split at h
      · cases h
      · cases h
        obtain ⟨event,hevent,rfl⟩ := List.mem_map.mp he
        obtain ⟨row,hrow,hjoin⟩ := List.mem_filterMap.mp hevent
        exact hgrant row hrow (joinWebhook_id hjoin).symm

/-- Every event in the hands of a relay was granted to its owner. -/
def HandsGranted (w : World) : Prop :=
  ∀ relay r, w.relays relay = some r → ∀ eventId ∈ r.events,
    ∃ g ∈ w.grants, g.eventId = eventId ∧ g.owner = r.owner

theorem handsGranted_set {w w' : World} (h : HandsGranted w) {relay : ℕ} {r : Option Relay}
    (hgrants : w'.grants = w.grants) (hrelays : w'.relays = Function.update w.relays relay r)
    (hr : ∀ x, r = some x → ∃ y, w.relays relay = some y ∧ x.owner = y.owner ∧
      ∀ eventId ∈ x.events, eventId ∈ y.events) : HandsGranted w' := by
  intro k x hk eventId he
  rw [hrelays] at hk
  rw [hgrants]
  by_cases hkr : k = relay
  · rw [hkr, Function.update_self] at hk
    obtain ⟨y,hy,howner,hevents⟩ := hr x hk
    rw [howner]
    exact h relay y hy eventId (hevents eventId he)
  · rw [Function.update_of_ne hkr] at hk
    exact h k x hk eventId he

theorem claim_handsGranted {w : World} (h : HandsGranted w) (relay : ℕ) (c : Channel)
    (scope : Scope) (request : ClaimJobOutbox) :
    HandsGranted (claim w relay c scope request) := by
  unfold claim
  split
  · exact h
  · split
    · exact h
    · rename_i events s hclaim
      have hold : ∀ k x, w.relays k = some x → ∀ eventId ∈ x.events,
          ∃ g ∈ w.grants++claimGrants w.store w.now scope c request,
            g.eventId = eventId ∧ g.owner = x.owner := by
        intro k x hk eventId he
        obtain ⟨g,hg,hrest⟩ := h k x hk eventId he
        exact ⟨g,List.mem_append_left _ hg,hrest⟩
      dsimp only
      split
      · exact hold
      · intro k x hk eventId he
        simp only [setRelay] at hk ⊢
        by_cases hkr : k = relay
        · rw [hkr, Function.update_self] at hk
          cases hk
          obtain ⟨g,hg,hrest⟩ := claimOutbox_granted hclaim he
          exact ⟨g,List.mem_append_right _ hg,hrest⟩
        · rw [Function.update_of_ne hkr] at hk
          exact hold k x hk eventId he

theorem step_handsGranted (w : World) (a : Action) (h : HandsGranted w) :
    HandsGranted (step w a) := by
  cases a with
  | tick elapsed => exact h
  | command c => exact h
  | claim relay c scope request => exact claim_handsGranted h relay c scope request
  | dispatch relay eventId succeeded =>
    simp only [step, dispatch]
    split
    · exact h
    · rename_i r hrelay
      split
      · exact h
      · split
        · exact handsGranted_set h rfl rfl (by rintro x ⟨⟩; exact ⟨r,hrelay,rfl,fun _ he => he⟩)
        · exact handsGranted_set h rfl rfl (by rintro x ⟨⟩)
  | publish relay =>
    simp only [step, publish]
    split
    · exact h
    · rename_i r hrelay
      split
      · exact h
      · split
        · exact handsGranted_set h rfl rfl (by rintro x ⟨⟩)
        · split
          · exact handsGranted_set h rfl rfl
              (by rintro x ⟨⟩; exact ⟨r,hrelay,rfl,fun _ he => List.mem_of_mem_erase he⟩)
          · exact handsGranted_set h rfl rfl (by rintro x ⟨⟩)
  | crash relay => exact handsGranted_set h rfl rfl (by rintro x ⟨⟩)

/-- Apart from renewals of the owner's own live lease, no event is handed out
more than twenty times. -/
theorem run_attempts_bounded (start : ℤ) (as : List Action) :
    HandsGranted (run step (initial start) as) ∧
    (∀ row ∈ (run step (initial start) as).store.outbox,
      attempts (run step (initial start) as).grants row.eventId ≤ 20) ∧
    ∀ g ∈ (run step (initial start) as).grants, g.renewal = true →
      ∃ h ∈ (run step (initial start) as).grants,
        h.eventId = g.eventId ∧ h.owner = g.owner ∧ h.Covers g.since := by
  have h := run_ledger start as
  refine ⟨run_invariant step_handsGranted (by rintro _ _ ⟨⟩) as,?_,h.renewed⟩
  intro row hrow
  have hr := h.rows row hrow
  rw [hr.counted]
  have hs := hr.shape
  simp only [deliveryShape, Bool.and_eq_true, decide_eq_true_eq] at hs
  exact hs.1

def handOuts (gs : List Grant) (eventId : ℕ) : ℕ := (gs.filter (·.eventId == eventId)).length

/-- One owner claims the event of a new job again and again under its live lease. -/
def renewingRun : List Action :=
  acceptedJob.map .command++(List.range 21).map fun relay =>
    .claim relay .job default ⟨"relay-01",1⟩

/-- Renewals are not bounded: the event is handed out 21 times. -/
theorem renewal_not_bounded :
    ¬∀ row ∈ (run step (initial 0) renewingRun).store.outbox,
      handOuts (run step (initial 0) renewingRun).grants row.eventId ≤ 20 := by
  decide +kernel

end DocumentIntelligence.Deliveries
