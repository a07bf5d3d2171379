import DocumentIntelligence.Identifiers
import DocumentIntelligence.Table

/-!
# The work-scope directory

The directory holds one content-free row for each product and tenant scope.
Two flags say whether uploads or job events of the scope still need the
dispatcher, which claims pending scopes under a five-minute lease. Instants
are microseconds; `now` is the start of the calling transaction.
-/

set_option autoImplicit false

namespace DocumentIntelligence.WorkScopes
open Identifiers

/-- `interval '5 minutes'`. -/
def fiveMinutes : ℤ := 300000000

inductive WorkKind where
  | upload
  | dispatch
  deriving DecidableEq, Repr

structure WorkScopeRow where
  scope : Scope
  uploadPending : Bool
  dispatchPending : Bool
  leaseOwner : Option String
  leaseExpiresAt : Option ℤ
  updatedAt : ℤ
  deriving DecidableEq, Repr

namespace WorkScopeRow

def pending (row : WorkScopeRow) : WorkKind → Bool
  | .upload => row.uploadPending
  | .dispatch => row.dispatchPending

/-- The `do update` branch of the registration. -/
def register (now : ℤ) (kind : WorkKind) (row : WorkScopeRow) : WorkScopeRow :=
  { row with
    uploadPending := row.uploadPending || kind == .upload
    dispatchPending := row.dispatchPending || kind == .dispatch
    updatedAt := now }

def setPending (now : ℤ) (kind : WorkKind) (isPending : Bool) (row : WorkScopeRow) :
    WorkScopeRow :=
  { row with
    uploadPending := if kind = .upload then isPending else row.uploadPending
    dispatchPending := if kind = .dispatch then isPending else row.dispatchPending
    updatedAt := now }

/-- The `where` clause of the directory claim. -/
def claimable (now : ℤ) (owner : String) (row : WorkScopeRow) : Bool :=
  (row.leaseOwner == some owner || row.leaseExpiresAt.elim true (decide <| · ≤ now)) &&
    (row.uploadPending || row.dispatchPending)

/-- `order by updated_at, product_id, tenant_id`. -/
def before (a b : WorkScopeRow) : Bool :=
  a.updatedAt < b.updatedAt || a.updatedAt == b.updatedAt &&
    (decide (a.scope.productId.asStr < b.scope.productId.asStr) ||
      a.scope.productId.asStr == b.scope.productId.asStr &&
        decide (a.scope.tenantId.asStr ≤ b.scope.tenantId.asStr))

def take (now : ℤ) (owner : String) (row : WorkScopeRow) : WorkScopeRow :=
  { row with
    leaseOwner := some owner
    leaseExpiresAt := some (now+fiveMinutes)
    updatedAt := now }

def releasable (now : ℤ) (owner : String) (row : WorkScopeRow) : Bool :=
  row.leaseOwner == some owner && row.leaseExpiresAt.elim false (decide <| now < ·)

def release (now : ℤ) (row : WorkScopeRow) : WorkScopeRow :=
  { row with leaseOwner := none, leaseExpiresAt := none, updatedAt := now }

end WorkScopeRow

/-- The pattern which the claim function demands of its owner. -/
def validClaimOwner (owner : String) : Bool :=
  match owner.toList with
  | [] => false
  | first::rest => first.isAlphanum && decide (rest.length ≤ 127) &&
      rest.all fun c => c.isAlphanum || c == '.' || c == '_' || c == ':' || c == '-'

def newWorkScope (now : ℤ) (scope : Scope) (kind : WorkKind) : WorkScopeRow where
  scope := scope
  uploadPending := kind == .upload
  dispatchPending := kind == .dispatch
  leaseOwner := none
  leaseExpiresAt := none
  updatedAt := now

/-- `ocr_register_work_scope`: insert the row, or join the flag to it. -/
def registerWorkScope (now : ℤ) (scope : Scope) (kind : WorkKind)
    (rows : List WorkScopeRow) : List WorkScopeRow :=
  if rows.any (·.scope == scope) then
    Table.update (·.scope == scope) (·.register now kind) rows
  else rows++[newWorkScope now scope kind]

/-- `ocr_set_work_scope_pending`: overwrite the flag of an existing row. -/
def setWorkScopePending (now : ℤ) (scope : Scope) (kind : WorkKind) (isPending : Bool)
    (rows : List WorkScopeRow) : List WorkScopeRow :=
  Table.update (·.scope == scope) (·.setPending now kind isPending) rows

/-- `ocr_claim_work_scopes`. An invalid call raises and changes nothing. -/
def claimWorkScopes (now : ℤ) (owner : String) (limit : ℕ) (rows : List WorkScopeRow) :
    Option (List Scope × List WorkScopeRow) :=
  if validClaimOwner owner && decide (1 ≤ limit ∧ limit ≤ 100) then
    let candidates := ((rows.filter (·.claimable now owner)).mergeSort WorkScopeRow.before).take limit
    let scopes := candidates.map (·.scope)
    some (scopes, Table.update (scopes.contains ·.scope) (·.take now owner) rows)
  else none

/-- `ocr_release_work_scope` with the released flag it returns. -/
def releaseWorkScope (now : ℤ) (scope : Scope) (owner : String) (rows : List WorkScopeRow) :
    Bool × List WorkScopeRow :=
  let releases := fun row : WorkScopeRow => row.scope == scope && row.releasable now owner
  (rows.any releases, Table.update releases (·.release now) rows)

/-- The directory row of the scope has the flag of this kind set. -/
def Pending (rows : List WorkScopeRow) (scope : Scope) (kind : WorkKind) : Prop :=
  ∃ row ∈ rows, row.scope = scope ∧ row.pending kind = true

instance (rows : List WorkScopeRow) (scope : Scope) (kind : WorkKind) :
    Decidable (Pending rows scope kind) :=
  inferInstanceAs (Decidable (∃ row ∈ rows, _))

@[simp] theorem register_scope (now : ℤ) (kind : WorkKind) (row : WorkScopeRow) :
    (row.register now kind).scope = row.scope := rfl

@[simp] theorem setPending_scope (now : ℤ) (kind : WorkKind) (b : Bool) (row : WorkScopeRow) :
    (row.setPending now kind b).scope = row.scope := rfl

theorem register_pending (now : ℤ) (kind other : WorkKind) (row : WorkScopeRow) :
    (row.register now kind).pending other = (row.pending other || kind == other) := by
  cases kind <;> cases other <;> rfl

theorem setPending_pending (now : ℤ) (kind other : WorkKind) (b : Bool) (row : WorkScopeRow) :
    (row.setPending now kind b).pending other = if kind = other then b else row.pending other := by
  cases kind <;> cases other <;> rfl

theorem newWorkScope_pending (now : ℤ) (scope : Scope) (kind other : WorkKind) :
    (newWorkScope now scope kind).pending other = (kind == other) := by
  cases kind <;> cases other <;> rfl

/-- After a registration the flag is set, whatever the directory held. -/
theorem pending_register_self (now : ℤ) (scope : Scope) (kind : WorkKind)
    (rows : List WorkScopeRow) : Pending (registerWorkScope now scope kind rows) scope kind := by
  unfold registerWorkScope
  split
  · rename_i h
    obtain ⟨row,hr,hs⟩ := List.any_eq_true.mp h
    refine ⟨row.register now kind,Table.mem_update_changed hr hs,by simpa using hs,?_⟩
    simp [register_pending]
  · exact ⟨_,List.mem_append_right _ (List.mem_singleton_self _),rfl,
      by simp [newWorkScope_pending]⟩

/-- A registration clears no flag. -/
theorem pending_register_mono (now : ℤ) (scope other : Scope) (kind k : WorkKind)
    {rows : List WorkScopeRow} (h : Pending rows other k) :
    Pending (registerWorkScope now scope kind rows) other k := by
  obtain ⟨row,hr,hs,hp⟩ := h
  unfold registerWorkScope
  split
  · refine ⟨_,Table.mem_update_of_mem hr,?_,?_⟩
    · split <;> exact hs
    · split
      · simp [register_pending,hp]
      · exact hp
  · exact ⟨row,List.mem_append_left _ hr,hs,hp⟩

theorem pending_set_other (now : ℤ) {scope other : Scope} {kind k : WorkKind} (b : Bool)
    {rows : List WorkScopeRow} (hne : ¬(scope = other ∧ kind = k)) :
    Pending (setWorkScopePending now scope kind b rows) other k ↔ Pending rows other k := by
  have hflag : ∀ row : WorkScopeRow, row.scope = other →
      ∀ c : Bool, c = (row.scope == scope) →
        (if c then row.setPending now kind b else row).pending k = row.pending k := by
    rintro row rfl c rfl
    by_cases hs : row.scope = scope
    · have hk : kind ≠ k := fun hk => hne ⟨hs.symm,hk⟩
      simp [hs,setPending_pending,hk]
    · simp [hs]
  have hscope : ∀ row : WorkScopeRow,
      (if row.scope == scope then row.setPending now kind b else row).scope = row.scope := by
    intro row
    split <;> rfl
  constructor
  · rintro ⟨row,hr,hs,hp⟩
    obtain ⟨x,hx,rfl⟩ := Table.mem_update.mp hr
    rw [hscope] at hs
    exact ⟨x,hx,hs,by rwa [hflag x hs _ rfl] at hp⟩
  · rintro ⟨row,hr,hs,hp⟩
    exact ⟨_,Table.mem_update_of_mem hr,by rw [hscope]; exact hs,by rwa [hflag row hs _ rfl]⟩

theorem pending_set_false (now : ℤ) (scope : Scope) (kind : WorkKind)
    (rows : List WorkScopeRow) :
    ¬Pending (setWorkScopePending now scope kind false rows) scope kind := by
  rintro ⟨row,hr,hs,hp⟩
  obtain ⟨x,_,rfl⟩ := Table.mem_update.mp hr
  by_cases hx : x.scope = scope
  · simp [hx,setPending_pending] at hp
  · simp [hx] at hs

theorem pending_set_true (now : ℤ) {scope : Scope} {kind : WorkKind}
    {rows : List WorkScopeRow} (h : ∃ row ∈ rows, row.scope = scope) :
    Pending (setWorkScopePending now scope kind true rows) scope kind := by
  obtain ⟨row,hr,hs⟩ := h
  refine ⟨row.setPending now kind true,Table.mem_update_changed hr (by simpa using hs),hs,?_⟩
  simp [setPending_pending]

/-- A scope with a flag set is found by the directory claim as soon as its
own lease is free, expired or the caller's. -/
theorem pending_claimable {rows : List WorkScopeRow} {scope : Scope} {kind : WorkKind}
    (h : Pending rows scope kind) (now : ℤ) (owner : String) :
    ∃ row ∈ rows, row.scope = scope ∧
      (row.claimable now owner = true ∨
        ∃ expires, row.leaseOwner ≠ some owner ∧ row.leaseExpiresAt = some expires ∧
          now < expires) := by
  obtain ⟨row,hr,hs,hp⟩ := h
  refine ⟨row,hr,hs,?_⟩
  have hflags : (row.uploadPending || row.dispatchPending) = true := by
    cases kind <;> simp_all [WorkScopeRow.pending]
  by_cases ho : row.leaseOwner = some owner
  · exact Or.inl (by simp [WorkScopeRow.claimable,ho,hflags])
  · cases he : row.leaseExpiresAt with
    | none => exact Or.inl (by simp [WorkScopeRow.claimable,he,hflags])
    | some expires =>
      by_cases hle : expires ≤ now
      · exact Or.inl (by simp [WorkScopeRow.claimable,he,hle,hflags])
      · exact Or.inr ⟨expires,ho,rfl,by omega⟩

end DocumentIntelligence.WorkScopes
