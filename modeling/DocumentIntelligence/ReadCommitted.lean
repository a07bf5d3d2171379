import Mathlib

/-!
# Read committed transactions

A database is a table of keyed rows. An open transaction keeps the rows it has
written beside the committed table and reads its own rows before the committed
ones. A written key stays locked until the transaction ends. A commit installs
the written rows and a rollback forgets them. `T` indexes the sessions and `P`
is what a transaction still has to do.
-/

set_option autoImplicit false

namespace DocumentIntelligence.ReadCommitted

variable {R K P T : Type*} [DecidableEq K] (key : R → K)

/-- The rows as they are seen over a base: own rows hide those they replace. -/
def merge (base own : List R) : List R :=
  base.filter (fun r => !own.any (key · == key r))++own

/-- Write one row, by insert or by update. -/
def put (r : R) (own : List R) : List R := own.filter (fun o => key o != key r)++[r]

structure Tx (R P : Type*) where
  writes : List R
  program : P
  deriving DecidableEq

structure World (R P T : Type*) where
  committed : List R
  sessions : T → Option (Tx R P)

def view (w : World R P T) (tx : Tx R P) : List R := merge key w.committed tx.writes

/-- The transaction has written the row of this key. -/
def holds (tx : Tx R P) (k : K) : Bool := tx.writes.any (key · == k)

variable [DecidableEq T]

/-- No other session holds the key. -/
def Free (w : World R P T) (i : T) (k : K) : Prop :=
  ∀ j, j ≠ i → ∀ tx, w.sessions j = some tx → holds key tx k = false

instance [Fintype T] (w : World R P T) (i : T) (k : K) : Decidable (Free key w i k) :=
  decidable_of_iff (∀ j, j = i ∨ ((w.sessions j).all fun tx => !holds key tx k) = true) <| by
    simp only [Free, Option.all_eq_true, Bool.not_eq_true']
    exact forall_congr' fun j => or_iff_not_imp_left

def setTx (w : World R P T) (i : T) (tx : Option (Tx R P)) : World R P T :=
  { w with sessions := Function.update w.sessions i tx }

def commitTx (w : World R P T) (i : T) (tx : Tx R P) : World R P T :=
  { committed := view key w tx, sessions := Function.update w.sessions i none }

/-- Keys are unique and no two sessions hold one key. -/
structure Isolated (w : World R P T) : Prop where
  committed : (w.committed.map key).Nodup
  own : ∀ i tx, w.sessions i = some tx → (tx.writes.map key).Nodup
  exclusive : ∀ i j, i ≠ j → ∀ a b, w.sessions i = some a → w.sessions j = some b →
    ∀ r ∈ a.writes, holds key b (key r) = false

theorem mem_merge {base own : List R} {r : R} :
    r ∈ merge key base own ↔ r ∈ own ∨ r ∈ base ∧ ∀ o ∈ own, key o ≠ key r := by
  simp only [merge, List.mem_append, List.mem_filter, Bool.not_eq_true', List.any_eq_false,
    beq_iff_eq]
  exact or_comm

/-- Rows with new keys come after the committed ones. -/
theorem merge_new {base own : List R} (h : ∀ r ∈ base, ∀ o ∈ own, key o ≠ key r) :
    merge key base own = base++own := by
  rw [merge, List.filter_eq_self.mpr]
  intro r hr
  simpa using h r hr

theorem mem_put {own : List R} {r x : R} :
    x ∈ put key r own ↔ x = r ∨ x ∈ own ∧ key x ≠ key r := by
  simp only [put, List.mem_append, List.mem_filter, bne_iff_ne, List.mem_singleton]
  exact or_comm

theorem holds_iff {tx : Tx R P} {k : K} : holds key tx k = true ↔ ∃ r ∈ tx.writes, key r = k := by
  simp [holds]

theorem holds_of_mem {tx : Tx R P} {r : R} (h : r ∈ tx.writes) : holds key tx (key r) = true :=
  (holds_iff key).mpr ⟨r,h,rfl⟩

theorem nodup_put {own : List R} (h : (own.map key).Nodup) (r : R) :
    ((put key r own).map key).Nodup := by
  rw [put, List.map_append, List.nodup_append]
  refine ⟨(List.filter_sublist.map key).nodup h,by simp,?_⟩
  intro a ha b hb
  obtain ⟨x,hx,rfl⟩ := List.mem_map.mp ha
  rw [List.map_singleton, List.mem_singleton] at hb
  rw [hb]
  exact bne_iff_ne.mp (List.mem_filter.mp hx).2

theorem nodup_merge {base own : List R} (hb : (base.map key).Nodup) (ho : (own.map key).Nodup) :
    ((merge key base own).map key).Nodup := by
  rw [merge, List.map_append, List.nodup_append]
  refine ⟨(List.filter_sublist.map key).nodup hb,ho,?_⟩
  intro a ha b hb heq
  obtain ⟨x,hx,rfl⟩ := List.mem_map.mp ha
  obtain ⟨y,hy,rfl⟩ := List.mem_map.mp hb
  have hnone := (List.mem_filter.mp hx).2
  rw [Bool.not_eq_true', List.any_eq_false] at hnone
  exact hnone y hy (beq_iff_eq.mpr heq.symm)

section Sessions
variable {key} {w : World R P T} {i : T}

theorem session_self (tx : Option (Tx R P)) : (setTx w i tx).sessions i = tx := by
  simp [setTx]

theorem session_other {j : T} (hne : j ≠ i) (tx : Option (Tx R P)) :
    (setTx w i tx).sessions j = w.sessions j := by
  simp [setTx, hne]

/-- A session which appears after a write is the writer or an old one. -/
theorem session_cases {tx : Option (Tx R P)} {j : T} {a : Tx R P}
    (h : (setTx w i tx).sessions j = some a) :
    (j = i ∧ tx = some a) ∨ (j ≠ i ∧ w.sessions j = some a) := by
  by_cases hji : j = i
  · left
    rw [hji, session_self] at h
    exact ⟨hji,h⟩
  · right
    rw [session_other hji] at h
    exact ⟨hji,h⟩

theorem session_commit {tx a : Tx R P} {j : T} (h : (commitTx key w i tx).sessions j = some a) :
    j ≠ i ∧ w.sessions j = some a := by
  have hset : (setTx w i none).sessions j = some a := h
  rcases session_cases hset with ⟨_,hnone⟩ | hold
  · cases hnone
  · exact hold

theorem isolated_setTx (h : Isolated key w) {tx : Option (Tx R P)}
    (hown : ∀ a, tx = some a → (a.writes.map key).Nodup)
    (hfree : ∀ a, tx = some a → ∀ r ∈ a.writes, Free key w i (key r)) :
    Isolated key (setTx w i tx) where
  committed := h.committed
  own := by
    intro j a ha
    rcases session_cases ha with ⟨_,heq⟩ | ⟨_,hold⟩
    · exact hown a heq
    · exact h.own j a hold
  exclusive := by
    intro j k hne a b ha hb r hr
    rcases session_cases ha with ⟨hj,hja⟩ | ⟨hj,hja⟩ <;>
      rcases session_cases hb with ⟨hk,hkb⟩ | ⟨hk,hkb⟩
    · exact absurd (hj.trans hk.symm) hne
    · exact hfree a hja r hr k hk b hkb
    · cases hheld : holds key b (key r) with
      | false => rfl
      | true =>
        obtain ⟨x,hx,hkey⟩ := (holds_iff key).mp hheld
        have hnone := hfree b hkb x hx j hj a hja
        rw [hkey, holds_of_mem key hr] at hnone
        cases hnone
    · exact h.exclusive j k hne a b hja hkb r hr

omit [DecidableEq T] in
/-- What a transaction holds is free of the other sessions. -/
theorem free_of_mem (h : Isolated key w) {tx : Tx R P} (htx : w.sessions i = some tx) {r : R}
    (hr : r ∈ tx.writes) : Free key w i (key r) :=
  fun j hne b hb => h.exclusive i j hne.symm tx b htx hb r hr

theorem isolated_begin (h : Isolated key w) (p : P) :
    Isolated key (setTx w i (some ⟨[],p⟩)) := by
  apply isolated_setTx h
  · rintro a ⟨⟩
    exact List.nodup_nil
  · rintro a ⟨⟩ r hr
    cases hr

theorem isolated_end (h : Isolated key w) : Isolated key (setTx w i none) := by
  apply isolated_setTx h <;> rintro a ⟨⟩

theorem isolated_continue (h : Isolated key w) {tx : Tx R P} (htx : w.sessions i = some tx) (p : P) :
    Isolated key (setTx w i (some ⟨tx.writes,p⟩)) := by
  apply isolated_setTx h
  · rintro a ⟨⟩
    exact h.own i tx htx
  · rintro a ⟨⟩ r hr
    exact free_of_mem h htx hr

theorem isolated_put (h : Isolated key w) {tx : Tx R P} (htx : w.sessions i = some tx) {r : R}
    (hfree : Free key w i (key r)) (p : P) :
    Isolated key (setTx w i (some ⟨put key r tx.writes,p⟩)) := by
  apply isolated_setTx h
  · rintro a ⟨⟩
    exact nodup_put key (h.own i tx htx) r
  · rintro a ⟨⟩ x hx
    rcases (mem_put key).mp hx with rfl | ⟨hm,_⟩
    · exact hfree
    · exact free_of_mem h htx hm

theorem isolated_commit (h : Isolated key w) {tx : Tx R P} (htx : w.sessions i = some tx) :
    Isolated key (commitTx key w i tx) where
  committed := nodup_merge key h.committed (h.own i tx htx)
  own := fun j a ha => h.own j a (session_commit ha).2
  exclusive := fun j k hne a b ha hb =>
    h.exclusive j k hne a b (session_commit ha).2 (session_commit hb).2

/-- A commit leaves the committed row of a key which another session holds. -/
theorem committed_held (h : Isolated key w) {tx a : Tx R P} {j : T} (htx : w.sessions i = some tx)
    (hne : j ≠ i) (ha : w.sessions j = some a) {r x : R} (hr : r ∈ a.writes)
    (hkey : key x = key r) (hx : x ∈ w.committed) : x ∈ (commitTx key w i tx).committed := by
  refine (mem_merge key).mpr (Or.inr ⟨hx,?_⟩)
  intro o ho heq
  have hnone := h.exclusive i j hne.symm tx a htx ha o ho
  rw [heq, hkey, holds_of_mem key hr] at hnone
  cases hnone

end Sessions
end DocumentIntelligence.ReadCommitted
