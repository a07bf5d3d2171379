import DocumentIntelligence.Transition
import DocumentIntelligence.WorkScopes

/-!
# Turns of the work scopes

Dispatchers claim the pending scopes which have waited longest, and every write to a scope
puts it behind the others. A scope which is left alone is claimed before the scopes behind
it; a scope which is registered again and again may wait for ever.
-/

set_option autoImplicit false

namespace DocumentIntelligence.ScopeTurns
open Identifiers WorkScopes

/-- The rows which a claim chooses next to the transactions which hold the rows of the locked
scopes; `for update skip locked` passes over these. -/
def candidates (locked : List Scope) (now : ℤ) (owner : String) (limit : ℕ)
    (rows : List WorkScopeRow) : List WorkScopeRow :=
  ((rows.filter fun row => row.claimable now owner && !locked.contains row.scope).mergeSort
    WorkScopeRow.before).take limit

def claimSkipping (locked : List Scope) (now : ℤ) (owner : String) (limit : ℕ)
    (rows : List WorkScopeRow) : Option (List Scope × List WorkScopeRow) :=
  if validClaimOwner owner && decide (1 ≤ limit ∧ limit ≤ 100) then
    let scopes := (candidates locked now owner limit rows).map (·.scope)
    some (scopes,Table.update (scopes.contains ·.scope) (·.take now owner) rows)
  else none

theorem claimSkipping_nil (now : ℤ) (owner : String) (limit : ℕ) (rows : List WorkScopeRow) :
    claimSkipping [] now owner limit rows = claimWorkScopes now owner limit rows := by
  simp [claimSkipping,claimWorkScopes,candidates]

/-- The calls to the directory, at the starts of their transactions. -/
inductive Action where
  | register (now : ℤ) (scope : Scope) (kind : WorkKind)
  | setPending (now : ℤ) (scope : Scope) (kind : WorkKind) (isPending : Bool)
  | claim (now : ℤ) (owner : String) (limit : ℕ) (locked : List Scope)
  | release (now : ℤ) (scope : Scope) (owner : String)
  deriving DecidableEq, Repr

def Action.now : Action → ℤ
  | .register now _ _ | .setPending now _ _ _ | .claim now _ _ _ | .release now _ _ => now

/-- The scopes which a call writes to, or finds locked. -/
def Action.scopes : Action → List Scope
  | .register _ scope _ | .setPending _ scope _ _ | .release _ scope _ => [scope]
  | .claim _ _ _ locked => locked

def step (rows : List WorkScopeRow) : Action → List WorkScopeRow
  | .register now scope kind => registerWorkScope now scope kind rows
  | .setPending now scope kind isPending => setWorkScopePending now scope kind isPending rows
  | .claim now owner limit locked =>
    ((claimSkipping locked now owner limit rows).map (·.2)).getD rows
  | .release now scope owner => (releaseWorkScope now scope owner rows).2

/-- The scopes which a call hands to its caller. -/
def handed (rows : List WorkScopeRow) : Action → List Scope
  | .claim now owner limit locked =>
    ((claimSkipping locked now owner limit rows).map (·.1)).getD []
  | _ => []

/-- How many scopes a call asks for. -/
def asked : Action → ℕ
  | .claim _ owner limit _ =>
    if validClaimOwner owner && decide (1 ≤ limit ∧ limit ≤ 100) then limit else 0
  | _ => 0

/-- The scopes which are handed out in a run. -/
def handedOut : List WorkScopeRow → List Action → List Scope
  | _,[] => []
  | rows,a::as => handed rows a++handedOut (step rows a) as

/-- The pending scopes which a claim prefers to the scope of this row. -/
def ahead (row other : WorkScopeRow) : Bool :=
  (other.uploadPending || other.dispatchPending) && other.before row && other.scope != row.scope

theorem handed_claim {locked : List Scope} {now : ℤ} {owner : String} {limit : ℕ}
    (hvalid : (validClaimOwner owner && decide (1 ≤ limit ∧ limit ≤ 100)) = true)
    (rows : List WorkScopeRow) : handed rows (.claim now owner limit locked) =
      (candidates locked now owner limit rows).map (·.scope) := by
  rw [handed,claimSkipping,if_pos hvalid]
  rfl

theorem step_claim {locked : List Scope} {now : ℤ} {owner : String} {limit : ℕ}
    (hvalid : (validClaimOwner owner && decide (1 ≤ limit ∧ limit ≤ 100)) = true)
    (rows : List WorkScopeRow) : step rows (.claim now owner limit locked) =
      Table.update (((candidates locked now owner limit rows).map (·.scope)).contains ·.scope)
        (·.take now owner) rows := by
  rw [step,claimSkipping,if_pos hvalid]
  rfl

theorem candidates_subperm (locked : List Scope) (now : ℤ) (owner : String) (limit : ℕ)
    (rows : List WorkScopeRow) : List.Subperm (candidates locked now owner limit rows) rows :=
  ((List.take_sublist _ _).subperm.trans (List.mergeSort_perm _ _).subperm).trans
    List.filter_sublist.subperm

theorem mem_candidates {locked : List Scope} {now : ℤ} {owner : String} {limit : ℕ}
    {rows : List WorkScopeRow} {row : WorkScopeRow}
    (h : row ∈ candidates locked now owner limit rows) :
    row ∈ rows ∧ row.claimable now owner = true := by
  have hfound := List.mem_filter.mp ((List.mergeSort_perm _ _).mem_iff.mp (List.mem_of_mem_take h))
  exact ⟨hfound.1,(Bool.and_eq_true_iff.mp hfound.2).1⟩

/-! ### The order of a claim -/

section First
variable {R : Type} {le : R → R → Bool} (htrans : ∀ a b c, le a b → le b c → le a c)
  (htotal : ∀ a b, le a b || le b a)
include htrans htotal

/-- Where an element is not among the first ones, these are as many as were asked for, and
before it. -/
theorem first_before {xs : List R} {x : R} {k : ℕ} (hx : x ∈ xs)
    (hmissed : x ∉ (xs.mergeSort le).take k) :
    ((xs.mergeSort le).take k).length = k ∧ ∀ y ∈ (xs.mergeSort le).take k, le y x = true := by
  have hmem : x ∈ (xs.mergeSort le).take k++(xs.mergeSort le).drop k := by
    rw [List.take_append_drop]
    exact (List.mergeSort_perm xs le).mem_iff.mpr hx
  have hlater := (List.mem_append.mp hmem).resolve_left hmissed
  constructor
  · rw [List.length_take,Nat.min_eq_left]
    by_contra hshort
    rw [List.drop_eq_nil_of_le (by omega)] at hlater
    cases hlater
  · intro y hy
    have hsorted := List.pairwise_mergeSort htrans htotal xs
    rw [← List.take_append_drop k (xs.mergeSort le),List.pairwise_append] at hsorted
    exact hsorted.2.2 y hy x hlater

/-- An element which as many others precede as are asked for is not among the first ones. -/
theorem not_first {xs : List R} {x : R} {k : ℕ}
    (hmany : k ≤ xs.countP fun y => !le x y) : x ∉ (xs.mergeSort le).take k := by
  intro hx
  have hsorted := List.pairwise_mergeSort htrans htotal xs
  rw [← List.take_append_drop k (xs.mergeSort le),List.pairwise_append] at hsorted
  have hdrop : ((xs.mergeSort le).drop k).countP (fun y => !le x y) = 0 :=
    List.countP_eq_zero.mpr fun y hy => by simp [hsorted.2.2 x hx y hy]
  have htake : ((xs.mergeSort le).take k).countP (fun y => !le x y) <
      ((xs.mergeSort le).take k).length := by
    refine lt_of_le_of_ne List.countP_le_length fun hall => ?_
    have hself := List.countP_eq_length.mp hall x hx
    have hrefl := htotal x x
    simp_all
  have hcount := (List.mergeSort_perm xs le).countP_eq fun y => !le x y
  rw [← List.take_append_drop k (xs.mergeSort le),List.countP_append,hdrop] at hcount
  have hshort : ((xs.mergeSort le).take k).length ≤ k := List.length_take_le _ _
  omega

end First

/-- The columns of `order by`. -/
def orderKey (row : WorkScopeRow) : ℤ ×ₗ String ×ₗ String :=
  toLex (row.updatedAt,toLex (row.scope.productId.asStr,row.scope.tenantId.asStr))

theorem before_iff (a b : WorkScopeRow) : a.before b = true ↔ orderKey a ≤ orderKey b := by
  simp [WorkScopeRow.before,orderKey,Prod.Lex.toLex_le_toLex]

theorem before_trans (a b c : WorkScopeRow) (hab : a.before b) (hbc : b.before c) :
    a.before c := by
  rw [before_iff] at hab hbc ⊢
  exact hab.trans hbc

theorem before_total (a b : WorkScopeRow) : a.before b || b.before a := by
  rw [Bool.or_eq_true,before_iff,before_iff]
  exact le_total _ _

theorem before_updatedAt {a b : WorkScopeRow} (h : a.before b = true) :
    a.updatedAt ≤ b.updatedAt := by
  simp only [WorkScopeRow.before,Bool.or_eq_true,Bool.and_eq_true,decide_eq_true_eq,
    beq_iff_eq] at h
  omega

theorem ahead_of_later {row other : WorkScopeRow} (h : row.updatedAt < other.updatedAt) :
    ahead row other = false := by
  have hlate : other.before row = false := by
    by_contra hb
    have := before_updatedAt (Bool.eq_true_of_not_eq_false hb)
    omega
  simp [ahead,hlate]

/-! ### One call -/

/-- The rows which a write brings to a later instant are no longer ahead. -/
theorem countP_update {R : Type} {p q : R → Bool} {f : R → R} (hf : ∀ r, q (f r) = false)
    (t : List R) :
    (Table.update p f t).countP q+t.countP (fun r => p r && q r) = t.countP q := by
  induction t with
  | nil => rfl
  | cons r t ih =>
    have htail : Table.update p f (r::t) = (if p r then f r else r)::Table.update p f t := rfl
    rw [htail]
    cases hp : p r with
    | false => cases hq : q r <;> simp [hp,hq] <;> omega
    | true => cases hq : q r <;> simp [hp,hq,hf] <;> omega

section Step
variable {rows : List WorkScopeRow} {row : WorkScopeRow}

/-- A write to other scopes keeps the row, and its rows are no longer ahead. -/
theorem update_spares {p : WorkScopeRow → Bool} {f : WorkScopeRow → WorkScopeRow}
    (hrow : row ∈ rows) (hspared : p row = false)
    (hf : ∀ other, row.updatedAt < (f other).updatedAt) :
    row ∈ Table.update p f rows ∧ (Table.update p f rows).countP (ahead row)+
      rows.countP (fun other => p other && ahead row other) = rows.countP (ahead row) :=
  ⟨Table.mem_update_kept hrow hspared,countP_update (fun other => ahead_of_later (hf other)) rows⟩

/-- A claim which passes over a free scope hands out as many scopes as it asks for, each of
them ahead of that scope. -/
theorem claim_spares {now : ℤ} {owner : String} {limit : ℕ} {locked : List Scope}
    (hrow : row ∈ rows) (hpending : (row.uploadPending || row.dispatchPending) = true)
    (hfree : row.leaseExpiresAt.elim true (decide <| · ≤ now) = true)
    (hlater : row.updatedAt < now) (hlocked : row.scope ∉ locked)
    (hmissed : row.scope ∉ handed rows (.claim now owner limit locked)) :
    row ∈ step rows (.claim now owner limit locked) ∧
      (step rows (.claim now owner limit locked)).countP (ahead row)+
        asked (.claim now owner limit locked) ≤ rows.countP (ahead row) := by
  by_cases hvalid : (validClaimOwner owner && decide (1 ≤ limit ∧ limit ≤ 100)) = true
  · rw [handed_claim hvalid] at hmissed
    rw [step_claim hvalid,asked,if_pos hvalid]
    have hcandidate : row ∈ rows.filter fun other => other.claimable now owner &&
        !locked.contains other.scope := by
      simp [List.mem_filter,hrow,WorkScopeRow.claimable,hfree,hpending,hlocked]
    have hout : row ∉ candidates locked now owner limit rows :=
      fun h => hmissed (List.mem_map_of_mem h)
    obtain ⟨hlength,hbefore⟩ := first_before before_trans before_total hcandidate hout
    obtain ⟨hkept,hcount⟩ := update_spares (p := fun other =>
      ((candidates locked now owner limit rows).map (·.scope)).contains other.scope) (f := (·.take now owner)) hrow
      (by simpa using hmissed) fun _ => hlater
    refine ⟨hkept,?_⟩
    -- the rows handed out are rows of the table, and all of them were ahead
    have hahead : ∀ other ∈ candidates locked now owner limit rows,
        (((candidates locked now owner limit rows).map (·.scope)).contains other.scope &&
          ahead row other) = true := by
      intro other hother
      have hin := List.mem_map_of_mem (f := (·.scope)) hother
      have hne : other.scope ≠ row.scope := fun h => hmissed (h ▸ hin)
      have hclaimable := (mem_candidates hother).2
      simp only [WorkScopeRow.claimable,Bool.and_eq_true] at hclaimable
      simp only [ahead,hclaimable.2,hbefore other hother,List.contains_iff_mem,hin,
        Bool.and_eq_true,bne_iff_ne,ne_eq,hne,not_false_eq_true,and_self]
    have hall := List.countP_eq_length.mpr hahead
    have hle := (candidates_subperm locked now owner limit rows).countP_le fun other =>
      ((candidates locked now owner limit rows).map (·.scope)).contains other.scope &&
        ahead row other
    have hlength : (candidates locked now owner limit rows).length = limit := hlength
    omega
  · have hstep : step rows (.claim now owner limit locked) = rows := by
      rw [step,claimSkipping,if_neg hvalid]
      rfl
    rw [hstep,asked,if_neg hvalid]
    exact ⟨hrow,le_rfl⟩

/-- A call which passes over a free scope leaves it as it is, and leaves fewer scopes ahead
of it by the scopes which were asked for. -/
theorem step_spares {a : Action} (hrow : row ∈ rows)
    (hpending : (row.uploadPending || row.dispatchPending) = true)
    (hfree : row.leaseExpiresAt.elim true (decide <| · ≤ a.now) = true)
    (hlater : row.updatedAt < a.now) (halone : row.scope ∉ a.scopes)
    (hmissed : row.scope ∉ handed rows a) :
    row ∈ step rows a ∧
      (step rows a).countP (ahead row)+asked a ≤ rows.countP (ahead row) := by
  cases a with
  | register now scope kind =>
    have hne : ¬row.scope = scope := by simpa [Action.scopes] using halone
    simp only [step,registerWorkScope,asked]
    split
    · obtain ⟨hkept,hcount⟩ := update_spares (p := (·.scope == scope))
        (f := (·.register now kind)) hrow (by simpa using hne) fun _ => hlater
      exact ⟨hkept,by omega⟩
    · refine ⟨List.mem_append_left _ hrow,?_⟩
      rw [List.countP_append,List.countP_singleton,ahead_of_later (show
        row.updatedAt < (newWorkScope now scope kind).updatedAt from hlater)]
      simp
  | setPending now scope kind isPending =>
    have hne : ¬row.scope = scope := by simpa [Action.scopes] using halone
    obtain ⟨hkept,hcount⟩ := update_spares (p := (·.scope == scope))
      (f := (·.setPending now kind isPending)) hrow (by simpa using hne) fun _ => hlater
    exact ⟨hkept,by simp only [step,setWorkScopePending,asked]; omega⟩
  | claim now owner limit locked =>
    exact claim_spares hrow hpending hfree hlater halone hmissed
  | release now scope owner =>
    have hne : ¬row.scope = scope := by simpa [Action.scopes] using halone
    obtain ⟨hkept,hcount⟩ := update_spares
      (p := fun row => row.scope == scope && row.releasable now owner)
      (f := (·.release now)) hrow (by simp [hne]) fun _ => hlater
    exact ⟨hkept,by simp only [step,releaseWorkScope,asked]; omega⟩

end Step

/-- Let a scope be pending and free of a lease, and let the calls which follow be of any
dispatchers and any other scopes. Once they ask for more scopes than are ahead of it, it has
been handed out. -/
theorem turn_comes {rows : List WorkScopeRow} {row : WorkScopeRow} (hrow : row ∈ rows)
    (hpending : (row.uploadPending || row.dispatchPending) = true) {as : List Action}
    (hfree : ∀ a ∈ as, row.leaseExpiresAt.elim true (decide <| · ≤ a.now) = true)
    (hlater : ∀ a ∈ as, row.updatedAt < a.now) (halone : ∀ a ∈ as, row.scope ∉ a.scopes)
    (hasked : rows.countP (ahead row) < (as.map asked).sum) :
    row.scope ∈ handedOut rows as := by
  induction as generalizing rows with
  | nil => simp at hasked
  | cons a as ih =>
    rw [handedOut,List.mem_append]
    by_cases hmissed : row.scope ∈ handed rows a
    · exact .inl hmissed
    · obtain ⟨hkept,hfewer⟩ := step_spares hrow hpending (hfree a List.mem_cons_self)
        (hlater a List.mem_cons_self) (halone a List.mem_cons_self) hmissed
      rw [List.map_cons,List.sum_cons] at hasked
      exact .inr (ih hkept (fun b hb => hfree b (List.mem_cons_of_mem _ hb))
        (fun b hb => hlater b (List.mem_cons_of_mem _ hb))
        (fun b hb => halone b (List.mem_cons_of_mem _ hb)) (by omega))

/-! ### A scope which is registered again before every claim -/

theorem along_append {S A : Type*} {step : S → A → S} {C : S → A → Prop} {s : S}
    {as bs : List A} (has : Transition.Along step C s as)
    (hbs : Transition.Along step C (Transition.run step s as) bs) :
    Transition.Along step C s (as++bs) := by
  induction as generalizing s with
  | nil => exact hbs
  | cons a as ih => exact ⟨has.1,ih has.2 hbs⟩

/-- Other scopes which a claim may hand out. -/
def waiting (scope : Scope) (row : WorkScopeRow) : Bool :=
  row.scope != scope && (row.uploadPending || row.dispatchPending) && row.leaseExpiresAt.isNone

/-- The calls of one `dispatch_once`: a claim, and a release of each scope handed out. -/
def dispatchCalls (now : ℤ) (owner : String) (limit : ℕ) (rows : List WorkScopeRow) :
    List Action :=
  .claim now owner limit []::
    (handed rows (.claim now owner limit [])).map fun scope => .release (now+1) scope owner

/-- A registration of the scope, then one `dispatch_once`. -/
def busyRound (scope : Scope) (kind : WorkKind) (owner : String) (limit : ℕ) (start : ℤ)
    (rows : List WorkScopeRow) : List Action :=
  .register start scope kind::
    dispatchCalls (start+1) owner limit (registerWorkScope start scope kind rows)

def busyRounds (scope : Scope) (kind : WorkKind) (owner : String) (limit : ℕ) :
    ℕ → ℤ → List WorkScopeRow → List Action
  | 0,_,_ => []
  | n+1,start,rows =>
    let round := busyRound scope kind owner limit start rows
    round++busyRounds scope kind owner limit n (start+3) (Transition.run step rows round)

def Action.isClaim : Action → Bool
  | .claim .. => true
  | _ => false

section Busy
variable {scope : Scope} {kind : WorkKind} {owner : String} {limit : ℕ}
  {rows : List WorkScopeRow}

theorem handedOut_append (rows : List WorkScopeRow) (as bs : List Action) :
    handedOut rows (as++bs) = handedOut rows as++handedOut (Transition.run step rows as) bs := by
  induction as generalizing rows with
  | nil => rfl
  | cons a as ih => simp [handedOut,ih]

theorem handedOut_releases (now : ℤ) (owner : String) (scopes : List Scope)
    (rows : List WorkScopeRow) :
    handedOut rows (scopes.map fun scope => .release now scope owner) = [] := by
  induction scopes generalizing rows with
  | nil => rfl
  | cons scope scopes ih => simp [handedOut,handed,ih]

/-- The releases of a pass write to the rows which are still leased. -/
theorem run_releases (now : ℤ) (owner : String) (scopes : List Scope)
    (rows : List WorkScopeRow) :
    Transition.run step rows (scopes.map fun scope => .release now scope owner) =
      Table.update (fun row => scopes.contains row.scope && row.releasable now owner)
        (·.release now) rows := by
  induction scopes generalizing rows with
  | nil => simp [Table.update]
  | cons scope scopes ih =>
    rw [List.map_cons,Transition.run_cons,ih]
    simp only [step,releaseWorkScope,Table.update,List.map_map]
    apply List.map_congr_left
    intro row _
    cases hreleasable : row.releasable now owner with
    | false => simp [hreleasable]
    | true =>
      have honce : (row.release now).releasable now owner = false := rfl
      by_cases hscope : row.scope = scope
      · simp [hscope,hreleasable,honce]
      · simp [hscope,hreleasable]

/-- Every write is past, and as many other scopes wait as a claim asks for. -/
structure Busy (scope : Scope) (limit : ℕ) (now : ℤ) (rows : List WorkScopeRow) : Prop where
  past : ∀ row ∈ rows, row.updatedAt < now
  others : limit ≤ rows.countP (waiting scope)

/-- What a pass leaves of a row. -/
def passed (handed : List Scope) (now : ℤ) (owner : String) (row : WorkScopeRow) : WorkScopeRow :=
  let row := if handed.contains row.scope then row.take now owner else row
  if handed.contains row.scope && row.releasable (now+1) owner then row.release (now+1) else row

theorem run_dispatchCalls {now : ℤ}
    (hvalid : (validClaimOwner owner && decide (1 ≤ limit ∧ limit ≤ 100)) = true) :
    Transition.run step rows (dispatchCalls now owner limit rows) =
      rows.map (passed (handed rows (.claim now owner limit [])) now owner) := by
  rw [dispatchCalls,Transition.run_cons,run_releases,step_claim hvalid,handed_claim hvalid]
  simp only [Table.update,List.map_map]
  rfl

theorem passed_eq (handed : List Scope) (now : ℤ) (owner : String) (row : WorkScopeRow) :
    passed handed now owner row =
      if handed.contains row.scope then (row.take now owner).release (now+1) else row := by
  cases hin : handed.contains row.scope with
  | false =>
    simp only [passed,hin,Bool.false_eq_true,if_false,Bool.false_and]
  | true =>
    have hleased : (row.take now owner).releasable (now+1) owner = true := by
      simp [WorkScopeRow.releasable,WorkScopeRow.take,fiveMinutes]
    have hkept : handed.contains (row.take now owner).scope = true := hin
    simp only [passed,hin,if_true,hkept,hleased,Bool.and_self]

theorem passed_waiting {handed : List Scope} {now : ℤ} {row : WorkScopeRow}
    (h : waiting scope row = true) : waiting scope (passed handed now owner row) = true := by
  rw [passed_eq]
  split
  · simp only [waiting,Bool.and_eq_true,bne_iff_ne,ne_eq] at h
    simp [waiting,WorkScopeRow.release,WorkScopeRow.take,h]
  · exact h

theorem passed_updatedAt {handed : List Scope} {now : ℤ} {row : WorkScopeRow}
    (h : row.updatedAt ≤ now) : (passed handed now owner row).updatedAt ≤ now+1 := by
  rw [passed_eq]
  split
  · exact le_refl (now+1)
  · omega

/-- After its registration the scope is behind every other one. -/
theorem registered_behind {start : ℤ} (h : Busy scope limit start rows) :
    ∀ row ∈ registerWorkScope start scope kind rows,
      row.updatedAt ≤ start ∧ (row.scope = scope → row.updatedAt = start) ∧
        (row.scope ≠ scope → row.updatedAt < start) := by
  intro row hrow
  unfold registerWorkScope at hrow
  split at hrow
  · obtain ⟨hold,hother⟩ | ⟨old,_,hself,rfl⟩ := Table.mem_update_cases hrow
    · have := h.past row hold
      exact ⟨by omega,fun heq => by simp [heq] at hother,fun _ => this⟩
    · exact ⟨le_refl start,fun _ => rfl,fun hne => absurd (by simpa using hself) hne⟩
  · rename_i hnew
    obtain hold | rfl := List.mem_append.mp hrow |>.imp_right List.mem_singleton.mp
    · have := h.past row hold
      exact ⟨by omega,fun heq => absurd (List.any_eq_true.mpr ⟨row,hold,by simpa using heq⟩) hnew,
        fun _ => this⟩
    · exact ⟨le_refl start,fun _ => rfl,fun hne => absurd rfl hne⟩

theorem registered_waiting {start : ℤ} :
    (registerWorkScope start scope kind rows).countP (waiting scope) =
      rows.countP (waiting scope) := by
  unfold registerWorkScope
  split
  · rw [Table.update,List.countP_map]
    apply List.countP_congr
    intro row _
    by_cases hself : row.scope = scope <;> simp [waiting,hself]
  · simp [newWorkScope,waiting]

/-- The round hands out other scopes only, and as many wait after it as before. -/
theorem busyRound_step {start : ℤ}
    (hvalid : (validClaimOwner owner && decide (1 ≤ limit ∧ limit ≤ 100)) = true)
    (h : Busy scope limit start rows) :
    scope ∉ handedOut rows (busyRound scope kind owner limit start rows) ∧
      Busy scope limit (start+3)
        (Transition.run step rows (busyRound scope kind owner limit start rows)) := by
  have hbehind := @registered_behind scope kind limit rows start h
  have hwaiting := @registered_waiting scope kind rows start
  generalize hR : registerWorkScope start scope kind rows = R at hbehind hwaiting
  have hround : busyRound scope kind owner limit start rows =
      .register start scope kind::dispatchCalls (start+1) owner limit R := by
    rw [busyRound,hR]
  rw [hround,Transition.run_cons,handedOut,step,hR,run_dispatchCalls hvalid]
  refine ⟨?_,?_,?_⟩
  · simp only [handed,dispatchCalls,handedOut,List.nil_append,handedOut_releases,
      List.append_nil]
    rw [← handed,handed_claim hvalid]
    intro hin
    obtain ⟨row,hrow,hself⟩ := List.mem_map.mp hin
    refine not_first before_trans before_total ?_ hrow
    have hlast := (hbehind row (mem_candidates hrow).1).2.1 hself
    rw [List.countP_filter]
    refine (h.others.trans hwaiting.ge).trans (List.countP_mono_left fun other hother hw => ?_)
    simp only [waiting,Bool.and_eq_true,bne_iff_ne,ne_eq,Option.isNone_iff_eq_none] at hw
    have hearlier := (hbehind other hother).2.2 hw.1.1
    have hbefore : row.before other = false := by
      by_contra hb
      have := before_updatedAt (Bool.eq_true_of_not_eq_false hb)
      omega
    simp [hbefore,WorkScopeRow.claimable,hw.1.2,hw.2]
  · intro row hrow
    obtain ⟨old,hold,rfl⟩ := List.mem_map.mp hrow
    have hpast := @passed_updatedAt owner (handed R (.claim (start+1) owner limit [])) (start+1)
      old (by have := (hbehind old hold).1; omega)
    omega
  · rw [List.countP_map]
    refine le_trans (h.others.trans hwaiting.ge) (List.countP_mono_left fun row _ hw => ?_)
    exact passed_waiting hw

/-- The scope is pending whenever a claim is made. -/
def PendingAtClaims (scope : Scope) (kind : WorkKind) (rows : List WorkScopeRow) (a : Action) :
    Prop :=
  a.isClaim = true → Pending rows scope kind

theorem along_releases (now : ℤ) (owner : String) (scopes : List Scope)
    (rows : List WorkScopeRow) :
    Transition.Along step (PendingAtClaims scope kind) rows
      (scopes.map fun scope => .release now scope owner) := by
  induction scopes generalizing rows with
  | nil => trivial
  | cons released scopes ih => exact ⟨fun h => (Bool.false_ne_true h).elim,ih _⟩

theorem busyRound_pending (start : ℤ) (rows : List WorkScopeRow) :
    Transition.Along step (PendingAtClaims scope kind) rows
      (busyRound scope kind owner limit start rows) :=
  ⟨fun h => (Bool.false_ne_true h).elim,fun _ => pending_register_self start scope kind rows,
    along_releases _ _ _ _⟩

theorem busyRound_claims (start : ℤ) (rows : List WorkScopeRow) :
    (busyRound scope kind owner limit start rows).countP Action.isClaim = 1 := by
  rw [busyRound,dispatchCalls,List.countP_cons_of_neg (by simp [Action.isClaim]),
    List.countP_cons_of_pos rfl,List.countP_map]
  simp [Function.comp_def,Action.isClaim]

end Busy

/-- Whatever the limit of a claim, where that many other scopes wait, a scope which is
registered before every claim can be passed over by any number of claims, pending at each. -/
theorem busy_scope_waits {scope : Scope} (kind : WorkKind) {owner : String} {limit : ℕ}
    (howner : validClaimOwner owner = true) (hlimit : 1 ≤ limit ∧ limit ≤ 100) {start : ℤ}
    {rows : List WorkScopeRow} (hbusy : Busy scope limit start rows) (n : ℕ) :
    let as := busyRounds scope kind owner limit n start rows
    as.countP Action.isClaim = n ∧ scope ∉ handedOut rows as ∧
      Transition.Along step (PendingAtClaims scope kind) rows as := by
  have hvalid : (validClaimOwner owner && decide (1 ≤ limit ∧ limit ≤ 100)) = true := by
    simp [howner,hlimit]
  dsimp only
  induction n generalizing start rows with
  | zero => exact ⟨rfl,List.not_mem_nil,trivial⟩
  | succ n ih =>
    obtain ⟨hround,hnext⟩ := @busyRound_step scope kind owner limit rows start hvalid hbusy
    obtain ⟨hclaims,hmissed,hpending⟩ := ih hnext
    rw [busyRounds]
    refine ⟨?_,?_,?_⟩
    · rw [List.countP_append,busyRound_claims,hclaims,Nat.add_comm]
    · rw [handedOut_append,List.mem_append,not_or]
      exact ⟨hround,hmissed⟩
    · exact along_append (busyRound_pending start rows) hpending

/-- The row of one tenant behind the row of another. -/
def later : WorkScopeRow := newWorkScope 2 default .upload

theorem otherTenant_valid : validatedId "ten_b" "ten_" = true := by decide

def earlier : WorkScopeRow := newWorkScope 1 ⟨default,⟨"ten_b",otherTenant_valid⟩⟩ .dispatch

theorem later_turn :
    later.scope ∈ handedOut [later,earlier]
      [.claim 5 "worker-1" 1 [],.register 6 earlier.scope .upload,
        .claim 7 "worker-2" 1 [earlier.scope]] :=
  @turn_comes [later,earlier] later (by decide) (by decide)
    [.claim 5 "worker-1" 1 [],.register 6 earlier.scope .upload,
      .claim 7 "worker-2" 1 [earlier.scope]]
    (by decide) (by decide) (by decide) (by decide)

theorem later_busy :
    (busyRounds later.scope .dispatch "worker-1" 1 3 4 [later,earlier]).countP
        Action.isClaim = 3 ∧
      later.scope ∉ handedOut [later,earlier]
        (busyRounds later.scope .dispatch "worker-1" 1 3 4 [later,earlier]) ∧
      Transition.Along step (PendingAtClaims later.scope .dispatch) [later,earlier]
        (busyRounds later.scope .dispatch "worker-1" 1 3 4 [later,earlier]) :=
  busy_scope_waits .dispatch (by decide) (by decide) ⟨by decide,by decide⟩ 3

end DocumentIntelligence.ScopeTurns
