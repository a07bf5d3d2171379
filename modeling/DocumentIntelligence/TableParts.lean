import DocumentIntelligence.Table

/-!
# Parts of a table

The rows of a table have owners, and the rows of one owner are its part of the table. A
statement whose condition names an owner reads and writes the part of that owner only.
-/

set_option autoImplicit false

namespace DocumentIntelligence.TableParts
open Table

variable {R K : Type*} [DecidableEq K] (owner : R → K) (k : K)

def part (t : List R) : List R := t.filter fun r => decide (owner r = k)

variable {owner k} {p : R → Bool} {f : R → R}

theorem mem_part {t : List R} {r : R} : r ∈ part owner k t ↔ r ∈ t ∧ owner r = k := by
  rw [part, List.mem_filter, decide_eq_true_eq]

theorem part_cons_own {r : R} (h : owner r = k) (t : List R) :
    part owner k (r::t) = r::part owner k t := by
  rw [part, List.filter_cons, if_pos (decide_eq_true h), part]

theorem part_cons_other {r : R} (h : owner r ≠ k) (t : List R) :
    part owner k (r::t) = part owner k t := by
  rw [part, List.filter_cons, if_neg (by rwa [decide_eq_true_eq]), part]

/-! ### Reading -/

section Reading
variable {t : List R} (hp : ∀ r ∈ t, p r = true → owner r = k)
include hp

/-- What is asked about rows of one owner is answered by the part of that owner. -/
theorem filter_part : (part owner k t).filter p = t.filter p := by
  rw [part, List.filter_filter]
  apply List.filter_congr
  intro r hr
  cases h : p r with
  | false => rfl
  | true => rw [decide_eq_true (hp r hr h), Bool.and_self]

theorem find?_part : (part owner k t).find? p = t.find? p := by
  rw [← List.head?_filter, ← List.head?_filter, filter_part hp]

theorem any_part : (part owner k t).any p = t.any p := by
  rw [← List.isSome_find?, ← List.isSome_find?, find?_part hp]

end Reading

/-! ### Writing -/

@[simp] theorem part_part (t : List R) : part owner k (part owner k t) = part owner k t := by
  rw [part, part, List.filter_filter]
  simp only [Bool.and_self]

theorem part_append (t t' : List R) : part owner k (t++t') = part owner k t++part owner k t' :=
  List.filter_append t t'

theorem part_update (hf : ∀ r, owner (f r) = owner r) (t : List R) :
    part owner k (update p f t) = update p f (part owner k t) := by
  rw [part, part, update, update, List.filter_map]
  congr 1
  apply List.filter_congr
  intro r _
  by_cases hpr : p r = true
  · simp only [Function.comp_apply, if_pos hpr, hf]
  · simp only [Function.comp_apply, if_neg hpr]

theorem part_update_other {t : List R} (hp : ∀ r ∈ t, p r = true → owner r = k)
    (hf : ∀ r, owner (f r) = owner r) {k' : K} (hk : k' ≠ k) :
    part owner k' (update p f t) = part owner k' t := by
  rw [part_update hf]
  apply update_of_none
  intro r hr
  obtain ⟨hmem,howner⟩ := mem_part.mp hr
  by_contra hcontra
  rw [Bool.not_eq_false] at hcontra
  exact hk (howner.symm.trans (hp r hmem hcontra))

theorem part_filter (t : List R) : part owner k (t.filter p) = (part owner k t).filter p := by
  rw [part, part, List.filter_filter, List.filter_filter]
  simp only [Bool.and_comm]

/-! ### Two tables -/

/-- The second table has the part of the owner as the first one has it, up to `g`; the
other parts of the first are what they were before. -/
structure Mirrors (owner : R → K) (g : R → R) (k : K) (before whole mine : List R) : Prop where
  own : part owner k mine = (part owner k whole).map g
  kept : ∀ k', k' ≠ k → part owner k' whole = part owner k' before

section Mirrors
variable {g : R → R} {before whole mine : List R}

theorem mirrors_refl (hg : ∀ r ∈ before, g r = r) :
    Mirrors owner g k before before (part owner k before) := by
  constructor
  · rw [part_part]
    conv_lhs => rw [← List.map_id (part owner k before)]
    apply List.map_congr_left
    intro r hr
    exact (hg r (mem_part.mp hr).1).symm
  · exact fun _ _ => rfl

theorem Mirrors.update (h : Mirrors owner g k before whole mine)
    (hp : ∀ r ∈ whole, p r = true → owner r = k) (hf : ∀ r, owner (f r) = owner r)
    (hgp : ∀ r ∈ whole, p (g r) = p r) (hgf : ∀ r, g (f r) = f (g r)) :
    Mirrors owner g k before (update p f whole) (update p f mine) := by
  constructor
  · rw [part_update hf, part_update hf, h.own, Table.update, Table.update, List.map_map,
      List.map_map]
    apply List.map_congr_left
    intro r hr
    simp only [Function.comp_apply, hgp r (mem_part.mp hr).1]
    by_cases hpr : p r = true
    · rw [if_pos hpr, if_pos hpr, hgf]
    · rw [if_neg hpr, if_neg hpr]
  · intro k' hk
    rw [part_update_other hp hf hk, h.kept k' hk]

theorem Mirrors.append (h : Mirrors owner g k before whole mine) {r r' : R} (hr : owner r = k)
    (hr' : owner r' = k) (hg : g r = r') :
    Mirrors owner g k before (whole++[r]) (mine++[r']) := by
  constructor
  · rw [part_append, part_append, h.own, List.map_append]
    rw [part_cons_own hr, part_cons_own hr', List.map_cons, hg]
    rfl
  · intro k' hk
    have hother : owner r ≠ k' := hr.trans_ne hk.symm
    rw [part_append, h.kept k' hk, part_cons_other hother]
    exact List.append_nil _

theorem Mirrors.append_all (h : Mirrors owner g k before whole mine) (rs : List R)
    (hrs : ∀ r ∈ rs, owner r = k) (hg : ∀ r ∈ rs, owner (g r) = k) :
    Mirrors owner g k before (whole++rs) (mine++rs.map g) := by
  induction rs generalizing whole mine with
  | nil => rwa [List.map_nil, List.append_nil, List.append_nil]
  | cons r rs ih =>
    have hfirst := h.append (hrs r List.mem_cons_self) (hg r List.mem_cons_self) rfl
    have hrest := ih hfirst (fun x hx => hrs x (List.mem_cons_of_mem r hx))
      (fun x hx => hg x (List.mem_cons_of_mem r hx))
    rwa [List.append_assoc, List.append_assoc] at hrest

/-- A deletion which spares the rows of the others. -/
theorem Mirrors.filter {q : R → Bool} (h : Mirrors owner g k before whole mine)
    (hp : ∀ r ∈ whole, p r = false → owner r = k)
    (hgp : ∀ r ∈ whole, owner r = k → q (g r) = p r) :
    Mirrors owner g k before (whole.filter p) (mine.filter q) := by
  constructor
  · rw [part_filter, part_filter, h.own, List.filter_map]
    congr 1
    apply List.filter_congr
    intro r hr
    exact hgp r (mem_part.mp hr).1 (mem_part.mp hr).2
  · intro k' hk
    rw [part_filter, ← h.kept k' hk, List.filter_eq_self]
    intro r hr
    obtain ⟨hmem,howner⟩ := mem_part.mp hr
    by_contra hcontra
    rw [Bool.not_eq_true] at hcontra
    exact hk (howner.symm.trans (hp r hmem hcontra))

/-- What is asked about rows of the owner has the same answer in both tables. -/
theorem Mirrors.filter_eq {q : R → Bool} (h : Mirrors owner g k before whole mine)
    (hp : ∀ r, p r = true → owner r = k) (hq : ∀ r, q r = true → owner r = k)
    (hgp : ∀ r ∈ whole, q (g r) = p r) : mine.filter q = (whole.filter p).map g := by
  rw [← filter_part fun r _ => hq r, h.own, List.filter_map, ← filter_part fun r _ => hp r]
  congr 1
  apply List.filter_congr
  intro r hr
  exact hgp r (mem_part.mp hr).1

theorem Mirrors.any_eq (h : Mirrors owner g k before whole mine)
    (hp : ∀ r, p r = true → owner r = k) (hgp : ∀ r ∈ whole, p (g r) = p r) :
    mine.any p = whole.any p := by
  rw [← List.isSome_find?, ← List.isSome_find?, ← List.head?_filter, ← List.head?_filter,
    h.filter_eq hp hp hgp, List.head?_map, Option.isSome_map]

theorem Mirrors.congr (h : Mirrors owner g k before whole mine)
    (hg : ∀ r ∈ whole, f r = g r) : Mirrors owner f k before whole mine := by
  constructor
  · rw [h.own]
    apply List.map_congr_left
    intro r hr
    exact (hg r (mem_part.mp hr).1).symm
  · exact h.kept

end Mirrors

end DocumentIntelligence.TableParts
