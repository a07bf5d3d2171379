import DocumentIntelligence.Commands

/-!
# The ledger of grants

Every lease which a claim writes is a grant. The ledger relates the grants so
far to the five delivery columns of each event: an outstanding event carries
its last lease, no grant outlives it, and the attempts of an event count the
grants which were not renewals. Each way of writing the outbox keeps the ledger.
-/

set_option autoImplicit false

namespace DocumentIntelligence.DeliveryLedger
open Identifiers hiding Error
open WorkScopes Schema Jobs Outbox

structure Grant where
  eventId : ℕ
  owner : String
  since : ℤ
  expires : ℤ
  renewal : Bool
  deriving DecidableEq, Repr

/-- The grant is an unexpired lease at the instant. -/
def Grant.Covers (g : Grant) (instant : ℤ) : Prop := g.since ≤ instant ∧ instant < g.expires

def grant (now : ℤ) (owner : String) (row : OutboxRow) : Grant :=
  ⟨row.eventId,owner,now,now+fiveMinutes,renews now owner row⟩

/-- The grants which use up a delivery attempt of the event. -/
def attempts (gs : List Grant) (eventId : ℕ) : ℕ :=
  (gs.filter fun g => g.eventId == eventId && !g.renewal).length

/-- `ocr_outbox_delivery_shape`, with the bound on the attempts. -/
def deliveryShape (row : OutboxRow) : Bool :=
  decide (row.deliveryAttempts ≤ maximumDeliveryAttempts) &&
  (row.publishedAt.isSome && decide (0 < row.deliveryAttempts) && row.deliveryLeaseOwner.isNone &&
      row.deliveryLeaseExpiresAt.isNone && row.deadLetteredAt.isNone ||
    row.publishedAt.isNone && row.deadLetteredAt.isSome &&
      row.deliveryAttempts == maximumDeliveryAttempts && row.deliveryLeaseOwner.isNone &&
      row.deliveryLeaseExpiresAt.isNone ||
    row.publishedAt.isNone && row.deadLetteredAt.isNone &&
      (row.deliveryAttempts == 0 && row.deliveryLeaseOwner.isNone &&
          row.deliveryLeaseExpiresAt.isNone ||
        decide (0 < row.deliveryAttempts) && row.deliveryLeaseOwner.isSome &&
          row.deliveryLeaseExpiresAt.isSome))

/-- What the grants say about one event. -/
structure Accounted (now : ℤ) (gs : List Grant) (row : OutboxRow) : Prop where
  shape : deliveryShape row = true
  counted : attempts gs row.eventId = row.deliveryAttempts
  held : ∀ owner expires, row.deliveryLeaseOwner = some owner →
    row.deliveryLeaseExpiresAt = some expires →
    ∃ g ∈ gs, g.eventId = row.eventId ∧ g.owner = owner ∧ g.expires = expires
  outlasts : outstanding row = true → ∀ g ∈ gs, g.eventId = row.eventId →
    ∃ expires, row.deliveryLeaseExpiresAt = some expires ∧ g.expires ≤ expires
  superseded : outstanding row = true → ∀ g ∈ gs, g.eventId = row.eventId →
    row.deliveryLeaseOwner ≠ some g.owner → g.expires ≤ now

structure Ledger (now : ℤ) (nextEventId : ℕ) (outbox : List OutboxRow) (gs : List Grant) :
    Prop where
  keys : (outbox.map (·.eventId)).Nodup
  known : ∀ row ∈ outbox, row.eventId < nextEventId
  rows : ∀ row ∈ outbox, Accounted now gs row
  granted : ∀ g ∈ gs, g.eventId < nextEventId ∧ g.since ≤ now ∧ g.expires = g.since+fiveMinutes
  apart : ∀ g ∈ gs, ∀ h ∈ gs, g.eventId = h.eventId → g.owner ≠ h.owner →
    g.expires ≤ h.since ∨ h.expires ≤ g.since
  renewed : ∀ g ∈ gs, g.renewal = true → ∃ h ∈ gs, h.eventId = g.eventId ∧ h.owner = g.owner ∧
    h.Covers g.since

theorem ledger_empty (now : ℤ) (nextEventId : ℕ) : Ledger now nextEventId [] [] where
  keys := List.nodup_nil
  known := fun _ h => absurd h List.not_mem_nil
  rows := fun _ h => absurd h List.not_mem_nil
  granted := fun _ h => absurd h List.not_mem_nil
  apart := fun _ h => absurd h List.not_mem_nil
  renewed := fun _ h => absurd h List.not_mem_nil

theorem accounted_tick {now later : ℤ} (hle : now ≤ later) {gs : List Grant} {row : OutboxRow}
    (h : Accounted now gs row) : Accounted later gs row :=
  { h with superseded := fun ho g hg hid hne => (h.superseded ho g hg hid hne).trans hle }

theorem ledger_tick {now later : ℤ} (hle : now ≤ later) {next : ℕ} {outbox : List OutboxRow}
    {gs : List Grant} (h : Ledger now next outbox gs) : Ledger later next outbox gs :=
  { h with
    rows := fun row hrow => accounted_tick hle (h.rows row hrow)
    granted := fun g hg =>
      ⟨(h.granted g hg).1,(h.granted g hg).2.1.trans hle,(h.granted g hg).2.2⟩ }

theorem attempts_append (gs hs : List Grant) (eventId : ℕ) :
    attempts (gs++hs) eventId = attempts gs eventId+attempts hs eventId := by
  simp [attempts]

theorem attempts_absent {gs : List Grant} {eventId : ℕ} (h : ∀ g ∈ gs, g.eventId ≠ eventId) :
    attempts gs eventId = 0 := by
  simp only [attempts, List.length_eq_zero_iff, List.filter_eq_nil_iff, Bool.and_eq_true,
    beq_iff_eq]
  exact fun g hg hk => h g hg hk.1

/-- A fresh event has no grants, so it is accounted for. -/
theorem accounted_newEvent {now : ℤ} {gs : List Grant} {eventId : ℕ}
    (h : ∀ g ∈ gs, g.eventId ≠ eventId) (created : ℤ) (scope : Scope) (jobId : JobId)
    (eventType : EventType) :
    Accounted now gs (newEvent eventId created scope jobId eventType) where
  shape := rfl
  counted := attempts_absent h
  held := by
    intro owner expires howner
    cases howner
  outlasts := fun _ g hg hid => absurd hid (h g hg)
  superseded := fun _ g hg hid => absurd hid (h g hg)

theorem ledger_append {now : ℤ} {next : ℕ} {outbox : List OutboxRow} {gs : List Grant}
    (h : Ledger now next outbox gs) (created : ℤ) (scope : Scope) (jobId : JobId)
    (eventType : EventType) :
    Ledger now (next+1) (outbox++[newEvent next created scope jobId eventType]) gs where
  keys := by
    apply Table.nodup_append_key h.keys
    intro row hrow hid
    have hlt := h.known row hrow
    rw [hid] at hlt
    exact absurd hlt (lt_irrefl next)
  known := by
    intro row hrow
    rcases List.mem_append.mp hrow with hm | hm
    · exact (h.known row hm).trans next.lt_succ_self
    · rw [List.mem_singleton.mp hm]
      exact next.lt_succ_self
  rows := by
    intro row hrow
    rcases List.mem_append.mp hrow with hm | hm
    · exact h.rows row hm
    · rw [List.mem_singleton.mp hm]
      exact accounted_newEvent (fun g hg => (h.granted g hg).1.ne) created scope jobId eventType
  granted := fun g hg =>
    ⟨(h.granted g hg).1.trans next.lt_succ_self,(h.granted g hg).2⟩
  apart := h.apart
  renewed := h.renewed

/-- Settling an event: the lease is dropped and one of the two marks is set. -/
theorem accounted_settled {now : ℤ} {gs : List Grant} {row row' : OutboxRow}
    (h : Accounted now gs row) (hid : row'.eventId = row.eventId)
    (hattempts : row'.deliveryAttempts = row.deliveryAttempts)
    (howner : row'.deliveryLeaseOwner = none) (hopen : outstanding row' = false)
    (hshape : deliveryShape row' = true) : Accounted now gs row' where
  shape := hshape
  counted := by rw [hid, hattempts, h.counted]
  held := by
    intro owner expires ho
    rw [howner] at ho
    cases ho
  outlasts := by
    intro ho
    rw [hopen] at ho
    cases ho
  superseded := by
    intro ho
    rw [hopen] at ho
    cases ho

theorem shape_deadLetter {now : ℤ} {row : OutboxRow} (h : exhausted now row = true) :
    deliveryShape (deadLetter now row) = true := by
  simp only [exhausted, outstanding, Bool.and_eq_true, Option.isNone_iff_eq_none,
    beq_iff_eq] at h
  obtain ⟨⟨⟨hp,_⟩,ha⟩,_⟩ := h
  simp [deliveryShape, deadLetter, hp, ha]

theorem shape_publish {now : ℤ} {owner : String} {eventId : ℕ} {row : OutboxRow}
    (hs : deliveryShape row = true) (h : publishable now owner eventId row = true) :
    deliveryShape (publish now row) = true := by
  simp only [publishable, outstanding, Bool.and_eq_true, Option.isNone_iff_eq_none,
    beq_iff_eq] at h
  obtain ⟨⟨⟨_,hp,hd⟩,ho⟩,_⟩ := h
  simp [deliveryShape, hp, hd, ho] at hs
  simp [deliveryShape, publish, hd, hs]

/-- A renewed lease belongs to an event with an attempt, so the count of every
leased event is positive. -/
theorem shape_lease {now : ℤ} {owner : String} {c : Channel} {row : OutboxRow}
    (hs : deliveryShape row = true) (h : claimable now owner c row = true) :
    deliveryShape (lease now owner row) = true := by
  simp only [claimable, outstanding, Bool.and_eq_true, Option.isNone_iff_eq_none,
    decide_eq_true_eq] at h
  obtain ⟨⟨⟨_,hp,hd⟩,ha⟩,_⟩ := h
  by_cases hr : renews now owner row = true
  · have howner : row.deliveryLeaseOwner = some owner := by
      simp only [renews, Bool.and_eq_true, beq_iff_eq] at hr
      exact hr.1
    simp [deliveryShape, hp, hd, howner] at hs
    simp [deliveryShape, lease, hr, hp, hd, hs]
  · simp only [deliveryShape, lease, hr, hp, hd]
    simp
    omega

theorem attempts_grants {rows : List OutboxRow} (hkeys : (rows.map (·.eventId)).Nodup) (now : ℤ)
    (owner : String) {row : OutboxRow} (hrow : row ∈ rows) :
    attempts (rows.map (grant now owner)) row.eventId = if renews now owner row then 0 else 1 := by
  induction rows with
  | nil => cases hrow
  | cons x rows ih =>
    rw [List.map_cons, List.nodup_cons] at hkeys
    have hsplit : attempts ((x::rows).map (grant now owner)) row.eventId =
        attempts [grant now owner x] row.eventId +
          attempts (rows.map (grant now owner)) row.eventId := by
      rw [← attempts_append]
      rfl
    rw [hsplit]
    rcases List.mem_cons.mp hrow with rfl | hm
    · have hrest : attempts (rows.map (grant now owner)) row.eventId = 0 := by
        apply attempts_absent
        intro g hg hid
        obtain ⟨y,hy,rfl⟩ := List.mem_map.mp hg
        exact hkeys.1 (List.mem_map.mpr ⟨y,hy,hid⟩)
      rw [hrest]
      cases hr : renews now owner row <;> simp [attempts, grant, hr]
    · have hhead : attempts [grant now owner x] row.eventId = 0 := by
        apply attempts_absent
        intro g hg hid
        rw [List.mem_singleton.mp hg] at hid
        exact hkeys.1 (List.mem_map.mpr ⟨row,hm,hid.symm⟩)
      rw [hhead, ih hkeys.2 hm, Nat.zero_add]

/-- A claimable event is not under the live lease of another owner. -/
theorem claim_supersedes {now : ℤ} {gs : List Grant} {row : OutboxRow} (h : Accounted now gs row)
    {owner : String} {c : Channel} (hc : claimable now owner c row = true) {g : Grant}
    (hg : g ∈ gs) (hid : g.eventId = row.eventId) (hne : g.owner ≠ owner) : g.expires ≤ now := by
  simp only [claimable, Bool.and_eq_true, Bool.or_eq_true, beq_iff_eq] at hc
  obtain ⟨⟨⟨_,ho⟩,_⟩,hlease⟩ := hc
  obtain ⟨expires,hexpires,hle⟩ := h.outlasts ho g hg hid
  rcases hlease with (howner | hnone) | hexpired
  · apply h.superseded ho g hg hid
    rw [howner]
    exact fun heq => hne (Option.some.inj heq).symm
  · rw [hexpires] at hnone
    cases hnone
  · rw [leaseExpired, hexpires] at hexpired
    exact hle.trans (of_decide_eq_true hexpired)

theorem accounted_leased {now : ℤ} {gs new : List Grant} {row : OutboxRow}
    (h : Accounted now gs row) {owner : String} {c : Channel}
    (hc : claimable now owner c row = true)
    (hcount : attempts new row.eventId = if renews now owner row then 0 else 1)
    (hgrant : grant now owner row ∈ new)
    (hnew : ∀ g ∈ new, g.owner = owner ∧ g.expires = now+fiveMinutes)
    (hold : ∀ g ∈ gs, g.expires ≤ now+fiveMinutes) :
    Accounted now (gs++new) (lease now owner row) where
  shape := shape_lease h.shape hc
  counted := by
    have hattempts : (lease now owner row).deliveryAttempts =
        if renews now owner row then row.deliveryAttempts else row.deliveryAttempts+1 := rfl
    rw [hattempts, attempts_append]
    change attempts gs row.eventId+attempts new row.eventId = _
    rw [h.counted, hcount]
    split <;> rfl
  held := by
    intro o expires ho he
    cases ho
    cases he
    exact ⟨grant now owner row,List.mem_append_right _ hgrant,rfl,rfl,rfl⟩
  outlasts := by
    intro _ g hg _
    refine ⟨now+fiveMinutes,rfl,?_⟩
    rcases List.mem_append.mp hg with hm | hm
    · exact hold g hm
    · exact (hnew g hm).2.le
  superseded := by
    intro _ g hg hid hne
    rcases List.mem_append.mp hg with hm | hm
    · exact claim_supersedes h hc hm hid fun heq => hne (by rw [heq]; rfl)
    · exact absurd (by rw [(hnew g hm).1]; rfl) hne

theorem accounted_kept {now : ℤ} {gs new : List Grant} {row : OutboxRow}
    (h : Accounted now gs row) (hnew : ∀ g ∈ new, g.eventId ≠ row.eventId) :
    Accounted now (gs++new) row where
  shape := h.shape
  counted := by rw [attempts_append, h.counted, attempts_absent hnew, Nat.add_zero]
  held := by
    intro owner expires ho he
    obtain ⟨g,hg,hrest⟩ := h.held owner expires ho he
    exact ⟨g,List.mem_append_left _ hg,hrest⟩
  outlasts := by
    intro ho g hg hid
    rcases List.mem_append.mp hg with hm | hm
    · exact h.outlasts ho g hm hid
    · exact absurd hid (hnew g hm)
  superseded := by
    intro ho g hg hid hne
    rcases List.mem_append.mp hg with hm | hm
    · exact h.superseded ho g hm hid hne
    · exact absurd hid (hnew g hm)

/-- The grants which a claim writes. -/
def claimGrants (s : Store) (now : ℤ) (scope : Scope) (c : Channel) (claim : ClaimJobOutbox) :
    List Grant :=
  (candidates (deadLetterExhausted s now scope) now scope c claim).map (grant now claim.leaseOwner)

section Claim
variable {s : Store} {now : ℤ} {gs : List Grant} (scope : Scope) (c : Channel)
  (claim : ClaimJobOutbox)

theorem claimGrants_mem {g : Grant} (hg : g ∈ claimGrants s now scope c claim) :
    ∃ row ∈ s.outbox, claimable now claim.leaseOwner c row = true ∧
      g = grant now claim.leaseOwner row := by
  obtain ⟨row,hrow,rfl⟩ := List.mem_map.mp hg
  obtain ⟨hm,_,hc⟩ := candidates_mem hrow
  exact ⟨row,hm,hc,rfl⟩

theorem grants_bounded {next : ℕ} {outbox : List OutboxRow} (h : Ledger now next outbox gs) :
    ∀ g ∈ gs, g.expires ≤ now+fiveMinutes := by
  intro g hg
  rw [(h.granted g hg).2.2]
  exact add_le_add_left (h.granted g hg).2.1 fiveMinutes

theorem claim_rows_accounted (h : Ledger now s.nextEventId s.outbox gs) :
    ∀ row ∈ (claimRows s now scope c claim).outbox,
      Accounted now (gs++claimGrants s now scope c claim) row := by
  intro row' hrow'
  obtain ⟨row,hrow,hcase⟩ := claimRows_cases h.keys hrow'
  have hbase := h.rows row hrow
  rcases hcase with ⟨rfl,hcand⟩ | ⟨hid,hcase⟩
  · apply accounted_leased hbase (candidates_mem hcand).2.2
    · exact attempts_grants (candidates_ids_nodup h.keys now scope c claim) now _ hcand
    · exact List.mem_map.mpr ⟨row,hcand,rfl⟩
    · intro g hg
      obtain ⟨_,_,_,rfl⟩ := claimGrants_mem scope c claim hg
      exact ⟨rfl,rfl⟩
    · exact grants_bounded h
  · have hnew : ∀ g ∈ claimGrants s now scope c claim, g.eventId ≠ row.eventId := by
      intro g hg hgid
      obtain ⟨x,hx,rfl⟩ := List.mem_map.mp hg
      exact hid (List.mem_map.mpr ⟨x,hx,hgid⟩)
    have hkept := accounted_kept hbase hnew
    rcases hcase with rfl | ⟨rfl,_,hexhausted⟩
    · exact hkept
    · exact accounted_settled hkept rfl rfl rfl (by simp [outstanding, deadLetter])
        (shape_deadLetter hexhausted)

/-- A new grant starts when every earlier grant of another owner has expired. -/
theorem claim_apart (h : Ledger now s.nextEventId s.outbox gs) {g new : Grant} (hg : g ∈ gs)
    (hnew : new ∈ claimGrants s now scope c claim) (hid : g.eventId = new.eventId)
    (hne : g.owner ≠ new.owner) : g.expires ≤ new.since := by
  obtain ⟨row,hrow,hc,rfl⟩ := claimGrants_mem scope c claim hnew
  exact claim_supersedes (h.rows row hrow) hc hg hid hne

theorem claim_renewed (h : Ledger now s.nextEventId s.outbox gs) {g : Grant}
    (hg : g ∈ claimGrants s now scope c claim) (hr : g.renewal = true) :
    ∃ k ∈ gs, k.eventId = g.eventId ∧ k.owner = g.owner ∧ k.Covers g.since := by
  obtain ⟨row,hrow,_,rfl⟩ := claimGrants_mem scope c claim hg
  change renews now claim.leaseOwner row = true at hr
  simp only [renews, leaseLive, Bool.and_eq_true, beq_iff_eq] at hr
  cases he : row.deliveryLeaseExpiresAt with
  | none => simp [he] at hr
  | some expires =>
    rw [he] at hr
    obtain ⟨k,hk,hid,howner,hexpires⟩ := (h.rows row hrow).held _ expires hr.1 he
    refine ⟨k,hk,hid,howner,(h.granted k hk).2.1,?_⟩
    rw [hexpires]
    exact of_decide_eq_true hr.2

theorem ledger_claim (h : Ledger now s.nextEventId s.outbox gs) :
    Ledger now s.nextEventId (claimRows s now scope c claim).outbox
      (gs++claimGrants s now scope c claim) where
  keys := by
    rw [claimRows_ids]
    exact h.keys
  known := by
    intro row' hrow'
    obtain ⟨row,hrow,hcase⟩ := claimRows_cases h.keys hrow'
    have hlt := h.known row hrow
    rcases hcase with ⟨rfl,_⟩ | ⟨_,rfl | ⟨rfl,_⟩⟩ <;> exact hlt
  rows := claim_rows_accounted scope c claim h
  granted := by
    intro g hg
    rcases List.mem_append.mp hg with hm | hm
    · exact h.granted g hm
    · obtain ⟨row,hrow,_,rfl⟩ := claimGrants_mem scope c claim hm
      exact ⟨h.known row hrow,le_refl now,rfl⟩
  apart := by
    intro g hg k hk hid hne
    rcases List.mem_append.mp hg with hg | hg <;> rcases List.mem_append.mp hk with hk | hk
    · exact h.apart g hg k hk hid hne
    · exact Or.inl (claim_apart scope c claim h hg hk hid hne)
    · exact Or.inr (claim_apart scope c claim h hk hg hid.symm hne.symm)
    · obtain ⟨_,_,_,rfl⟩ := claimGrants_mem scope c claim hg
      obtain ⟨_,_,_,rfl⟩ := claimGrants_mem scope c claim hk
      exact absurd rfl hne
  renewed := by
    intro g hg hr
    rcases List.mem_append.mp hg with hm | hm
    · obtain ⟨k,hk,hrest⟩ := h.renewed g hm hr
      exact ⟨k,List.mem_append_left _ hk,hrest⟩
    · obtain ⟨k,hk,hrest⟩ := claim_renewed scope c claim h hm hr
      exact ⟨k,List.mem_append_left _ hk,hrest⟩

end Claim

theorem ledger_publish {s : Store} {now : ℤ} {gs : List Grant}
    (h : Ledger now s.nextEventId s.outbox gs) (scope : Scope) (eventId : ℕ) (owner : String) :
    Ledger now s.nextEventId (publishRow s now scope eventId owner).outbox gs where
  keys := by
    have hids : (publishRow s now scope eventId owner).outbox.map (·.eventId) =
        s.outbox.map (·.eventId) := by
      apply Table.map_update OutboxRow.eventId
      exact fun _ => rfl
    rw [hids]
    exact h.keys
  known := by
    intro row hrow
    rcases Table.mem_update_cases hrow with ⟨hm,_⟩ | ⟨x,hx,_,rfl⟩
    · exact h.known row hm
    · exact h.known x hx
  rows := by
    intro row hrow
    rcases Table.mem_update_cases hrow with ⟨hm,_⟩ | ⟨x,hx,hp,rfl⟩
    · exact h.rows row hm
    · simp only [Bool.and_eq_true] at hp
      exact accounted_settled (h.rows x hx) rfl rfl rfl (by simp [outstanding, publish])
        (shape_publish (h.rows x hx).shape hp.2)
  granted := h.granted
  apart := h.apart
  renewed := h.renewed

end DocumentIntelligence.DeliveryLedger
