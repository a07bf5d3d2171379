import Mathlib

/-!
# Tables as lists of rows

A table is the list of its rows in insertion order. `update` is the statement
`update … set … where …` and `List.any` answers `exists (select …)`. Rows are
never deleted; the membership lemmas say what one statement does to a row.
-/

set_option autoImplicit false

namespace DocumentIntelligence.Table

variable {R K : Type*}

def update (p : R → Bool) (f : R → R) (t : List R) : List R :=
  t.map fun r => if p r then f r else r

theorem mem_update {p : R → Bool} {f : R → R} {t : List R} {r : R} :
    r ∈ update p f t ↔ ∃ x ∈ t, (if p x then f x else x) = r :=
  List.mem_map

theorem mem_update_of_mem {p : R → Bool} {f : R → R} {t : List R} {r : R} (h : r ∈ t) :
    (if p r then f r else r) ∈ update p f t :=
  mem_update.mpr ⟨r,h,rfl⟩

/-- A row of the updated table is an untouched row or the image of a row
which met the condition. -/
theorem mem_update_cases {p : R → Bool} {f : R → R} {t : List R} {r : R}
    (h : r ∈ update p f t) : (r ∈ t ∧ p r = false) ∨ ∃ x ∈ t, p x = true ∧ r = f x := by
  obtain ⟨x,hx,rfl⟩ := mem_update.mp h
  cases hp : p x with
  | false => exact Or.inl ⟨by simpa using hx,by simpa using hp⟩
  | true => exact Or.inr ⟨x,hx,hp,by simp⟩

theorem mem_update_kept {p : R → Bool} {f : R → R} {t : List R} {r : R}
    (h : r ∈ t) (hp : p r = false) : r ∈ update p f t := by
  have hm := mem_update_of_mem (p := p) (f := f) h
  rwa [hp] at hm

theorem mem_update_changed {p : R → Bool} {f : R → R} {t : List R} {r : R}
    (h : r ∈ t) (hp : p r = true) : f r ∈ update p f t := by
  have hm := mem_update_of_mem (p := p) (f := f) h
  rwa [hp] at hm

@[simp] theorem length_update (p : R → Bool) (f : R → R) (t : List R) :
    (update p f t).length = t.length :=
  List.length_map _

/-- A key which no update writes is the same column before and after. -/
theorem map_update (key : R → K) {p : R → Bool} {f : R → R} (hk : ∀ r, key (f r) = key r)
    (t : List R) : (update p f t).map key = t.map key := by
  simp only [update, List.map_map]
  apply List.map_congr_left
  intro r _
  by_cases hp : p r = true <;> simp [hp, hk]

theorem update_of_none {p : R → Bool} {f : R → R} {t : List R}
    (h : ∀ r ∈ t, p r = false) : update p f t = t := by
  conv_rhs => rw [← List.map_id t]
  apply List.map_congr_left
  intro r hr
  simp [h r hr]

/-- Under a unique key a row is determined by its key. -/
theorem eq_of_key {key : R → K} {t : List R} (hk : (t.map key).Nodup) {a b : R}
    (ha : a ∈ t) (hb : b ∈ t) (h : key a = key b) : a = b :=
  List.inj_on_of_nodup_map hk ha hb h

theorem nodup_append_key {key : R → K} {t : List R} {r : R} (hk : (t.map key).Nodup)
    (hr : ∀ x ∈ t, key x ≠ key r) : ((t++[r]).map key).Nodup := by
  rw [List.map_append, List.nodup_append]
  refine ⟨hk,by simp,?_⟩
  simp only [List.mem_map, List.map_cons, List.map_nil, List.mem_singleton]
  rintro _ ⟨x,hx,rfl⟩ _ rfl
  exact hr x hx

theorem mem_of_find? {p : R → Bool} {t : List R} {r : R} (h : t.find? p = some r) :
    r ∈ t ∧ p r = true :=
  ⟨List.mem_of_find?_eq_some h,List.find?_some h⟩

/-- A row which meets a condition no other row meets is the row found. -/
theorem find?_eq_of_unique {p : R → Bool} {t : List R} {r : R} (hr : r ∈ t) (hp : p r = true)
    (hu : ∀ x ∈ t, p x = true → x = r) : t.find? p = some r := by
  cases h : t.find? p with
  | none => exact absurd hp (List.find?_eq_none.mp h r hr)
  | some x => rw [hu x (mem_of_find? h).1 (mem_of_find? h).2]

/-- A condition which the write does not change finds the same row, written. -/
theorem find?_update {p : R → Bool} {f : R → R} (hf : ∀ r, p (f r) = p r) (t : List R) :
    (update p f t).find? p = (t.find? p).map f := by
  induction t with
  | nil => rfl
  | cons r t ih =>
    unfold update at ih ⊢
    by_cases hp : p r = true
    · simp [hp, hf]
    · simp [hp, ih]

/-- A condition which the write does not change finds the same row, written if
the statement selects it. -/
theorem find?_update_key {p q : R → Bool} {f : R → R} (hq : ∀ r, q (f r) = q r) (t : List R) :
    (update p f t).find? q = (t.find? q).map fun r => if p r then f r else r := by
  induction t with
  | nil => rfl
  | cons r t ih =>
    unfold update at ih ⊢
    have hr : q (if p r then f r else r) = q r := by
      split
      · exact hq r
      · rfl
    by_cases h : q r = true
    · simp [hr, h]
    · simp [hr, h, ih]

/-- Where the written rows no longer meet `P`, the rows meeting it are those
which the statement spares. -/
theorem exists_update_iff {P : R → Prop} {p : R → Bool} {f : R → R} {t : List R}
    (hf : ∀ r, ¬P (f r)) : (∃ r ∈ update p f t, P r) ↔ ∃ r ∈ t, P r ∧ p r = false := by
  constructor
  · rintro ⟨r,hr,hP⟩
    rcases mem_update_cases hr with ⟨hm,hp⟩ | ⟨x,_,_,rfl⟩
    · exact ⟨r,hm,hP,hp⟩
    · exact absurd hP (hf x)
  · rintro ⟨r,hr,hP,hp⟩
    exact ⟨r,mem_update_kept hr hp,hP⟩

/-- A condition which the rows of one key meet selects that row. -/
theorem filter_one {α β : Type} {f : α → β} {p : α → Bool} {l : List α} (hf : (l.map f).Nodup)
    {a : α} (ha : a ∈ l) (hp : p a = true) (hall : ∀ b ∈ l, p b = true → f b = f a) :
    l.filter p = [a] := by
  induction l with
  | nil => cases ha
  | cons b l ih =>
    rw [List.map_cons, List.nodup_cons] at hf
    rcases List.mem_cons.mp ha with rfl | hmem
    · rw [List.filter_cons_of_pos hp, List.filter_eq_nil_iff.mpr]
      intro c hc hpc
      exact hf.1 (hall c (List.mem_cons_of_mem _ hc) hpc ▸ List.mem_map_of_mem hc)
    · have hpb : ¬p b = true := by
        intro hpb
        exact hf.1 (hall b List.mem_cons_self hpb ▸ List.mem_map_of_mem hmem)
      rw [List.filter_cons_of_neg hpb]
      exact ih hf.2 hmem fun c hc => hall c (List.mem_cons_of_mem b hc)

theorem ok_bind {ε α β : Type} (a : α) (f : α → Except ε β) :
    ((Except.ok a : Except ε α) >>= f) = f a := rfl

theorem error_bind {ε α β : Type} (e : ε) (f : α → Except ε β) :
    ((Except.error e : Except ε α) >>= f) = .error e := rfl

/-- What a computation in two parts returns. -/
theorem bind_ok {ε α β : Type} {x : Except ε α} {f : α → Except ε β} {b : β} :
    x >>= f = .ok b ↔ ∃ a, x = .ok a ∧ f a = .ok b := by
  cases x with
  | error e => exact ⟨nofun,fun ⟨_,h,_⟩ => nomatch h⟩
  | ok a => exact ⟨fun h => ⟨a,rfl,h⟩,fun ⟨_,ha,h⟩ => Except.ok.inj ha ▸ h⟩

/-- What a check before a value returns. -/
theorem ite_ok_iff {ε α : Type} {p : Prop} [Decidable p] {a b : α} {e : ε} :
    (if p then (.ok a : Except ε α) else .error e) = .ok b ↔ p ∧ b = a := by
  by_cases h : p
  · rw [if_pos h, Except.ok.injEq]
    exact ⟨fun heq => ⟨h,heq.symm⟩,fun heq => heq.2.symm⟩
  · rw [if_neg h]
    exact iff_of_false nofun fun heq => h heq.1

/-- Decoding every row of a result succeeds if each row decodes. -/
theorem mapM_ok_of_forall {D ε : Type} {S : Type*} {f : S → Except ε D} {rows : List S}
    (h : ∀ r ∈ rows, ∃ d, f r = .ok d) : ∃ ds, rows.mapM f = .ok ds := by
  induction rows with
  | nil => exact ⟨[],rfl⟩
  | cons r rows ih =>
    obtain ⟨d,hd⟩ := h r List.mem_cons_self
    obtain ⟨ds,hds⟩ := ih fun x hx => h x (List.mem_cons_of_mem r hx)
    exact ⟨d::ds,by rw [List.mapM_cons, hd, hds]; rfl⟩

/-- A traversal succeeds with the values of its elements, in their order. -/
theorem mapM_ok_iff {D S ε : Type} {f : S → Except ε D} {rows : List S} {ds : List D} :
    rows.mapM f = .ok ds ↔ List.Forall₂ (fun r d => f r = .ok d) rows ds := by
  induction rows generalizing ds with
  | nil =>
    rw [List.mapM_nil, List.forall₂_nil_left_iff]
    exact ⟨fun h => (Except.ok.inj h).symm,fun h => by rw [h]; rfl⟩
  | cons r rows ih =>
    rw [List.mapM_cons]
    constructor
    · intro h
      cases hr : f r with
      | error e => simp [hr, bind, Except.bind] at h
      | ok d =>
        cases hrest : rows.mapM f with
        | error e => simp [hr, hrest, bind, Except.bind] at h
        | ok rest =>
          rw [hr, hrest] at h
          rw [← Except.ok.inj h]
          exact List.Forall₂.cons hr (ih.mp hrest)
    · intro h
      cases h with
      | cons hr hrest =>
        rw [hr, ih.mpr hrest]
        rfl

theorem mapM_some_iff {D S : Type} {f : S → Option D} {rows : List S} {ds : List D} :
    rows.mapM f = some ds ↔ List.Forall₂ (fun r d => f r = some d) rows ds := by
  induction rows generalizing ds with
  | nil =>
    rw [List.mapM_nil, List.forall₂_nil_left_iff]
    exact ⟨fun h => (Option.some.inj h).symm,fun h => congrArg some h.symm⟩
  | cons r rows ih =>
    rw [List.mapM_cons, List.forall₂_cons_left_iff]
    constructor
    · intro h
      obtain ⟨d,hd,h⟩ := Option.bind_eq_some_iff.mp h
      obtain ⟨ds',hds,h⟩ := Option.bind_eq_some_iff.mp h
      exact ⟨d,ds',hd,ih.mp hds,(Option.some.inj h).symm⟩
    · rintro ⟨d,ds',hd,hds,rfl⟩
      rw [hd, ih.mpr hds]
      rfl

/-- A traversal whose steps fail in one way. -/
theorem mapM_elim {S D ε : Type} {f : S → Option D} {g : S → Except ε D} {e : ε} {xs : List S}
    (h : ∀ x ∈ xs, g x = (f x).elim (.error e) .ok) :
    xs.mapM g = (xs.mapM f).elim (.error e) .ok := by
  induction xs with
  | nil => rfl
  | cons x xs ih =>
    have hrest := ih fun y hy => h y (List.mem_cons_of_mem x hy)
    rw [List.mapM_cons, List.mapM_cons, h x List.mem_cons_self, hrest]
    cases f x with
    | none => rfl
    | some y =>
      cases xs.mapM f with
      | none => rfl
      | some ys => rfl

/-- A traversal which succeeds has the values of another one. -/
theorem mapM_some_of_ok {S D ε : Type} {f : S → Option D} {g : S → Except ε D} {xs : List S}
    {ys : List D} (h : ∀ x ∈ xs, ∀ y, g x = .ok y → f x = some y) (hys : xs.mapM g = .ok ys) :
    xs.mapM f = some ys := by
  have hall := mapM_ok_iff.mp hys
  refine mapM_some_iff.mpr ?_
  clear hys
  induction hall with
  | nil => exact List.Forall₂.nil
  | cons hx _ ih =>
    exact List.Forall₂.cons (h _ List.mem_cons_self _ hx)
      (ih fun x hmem => h x (List.mem_cons_of_mem _ hmem))

theorem mem_of_mapM_ok {D ε : Type} {S : Type*} {f : S → Except ε D} {rows : List S}
    {ds : List D} (h : rows.mapM f = .ok ds) {d : D} (hd : d ∈ ds) : ∃ r ∈ rows, f r = .ok d := by
  induction rows generalizing ds with
  | nil =>
    cases h
    cases hd
  | cons r rows ih =>
    rw [List.mapM_cons] at h
    cases hr : f r with
    | error e =>
      rw [hr] at h
      cases h
    | ok x =>
      cases hrest : rows.mapM f with
      | error e =>
        rw [hr, hrest] at h
        cases h
      | ok xs =>
        rw [hr, hrest] at h
        cases h
        rcases List.mem_cons.mp hd with rfl | hm
        · exact ⟨r,List.mem_cons_self,hr⟩
        · obtain ⟨y,hy,hfy⟩ := ih hrest hm
          exact ⟨y,List.mem_cons_of_mem _ hy,hfy⟩

theorem forall₂_map_eq {α β γ : Type} {f : α → γ} {g : β → γ} {xs : List α} {ys : List β}
    (h : List.Forall₂ (fun x y => g y = f x) xs ys) : ys.map g = xs.map f := by
  induction h with
  | nil => rfl
  | cons heq _ ih => rw [List.map_cons, List.map_cons, heq, ih]

theorem forall₂_getElem {α β : Type} {R : α → β → Prop} {xs : List α} {ys : List β}
    (h : List.Forall₂ R xs ys) {k : ℕ} {x : α} (hx : xs[k]? = some x) :
    ∃ y, ys[k]? = some y ∧ R x y := by
  induction h generalizing k with
  | nil => cases hx
  | cons hxy _ ih =>
    cases k with
    | zero =>
      rw [List.getElem?_cons_zero, Option.some.injEq] at hx
      exact ⟨_,rfl,hx ▸ hxy⟩
    | succ k => exact ih hx

theorem forall₂_exists {α β : Type} {R : α → β → Prop} {xs : List α} {ys : List β}
    (h : List.Forall₂ R xs ys) : ∀ x ∈ xs, ∃ y, R x y := by
  induction h with
  | nil => exact fun x hx => absurd hx List.not_mem_nil
  | cons hxy _ ih =>
    intro x hx
    rcases List.mem_cons.mp hx with rfl | hx
    · exact ⟨_,hxy⟩
    · exact ih x hx

end DocumentIntelligence.Table
