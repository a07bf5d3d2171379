import DocumentIntelligence.DocumentPages

/-!
# The order of a page's observations

A page sorts the observations which it is given and then looks at each of them once,
with the identifiers and the orders of those before it. Which lists it accepts does not
depend on their order.
-/

set_option autoImplicit false

namespace DocumentIntelligence.PageOrder
open DocumentPages

/-! ### Sorting by a key without repetitions -/

section ByKey
variable {α : Type} (key : α → ℕ)

theorem sort_perm {xs ys : List α} (hperm : xs.Perm ys) (hnodup : (xs.map key).Nodup) :
    (xs.mergeSort fun a b => decide (key a ≤ key b)) =
      ys.mergeSort fun a b => decide (key a ≤ key b) := by
  have hsorted : ∀ zs : List α, (zs.mergeSort fun a b => decide (key a ≤ key b)).Pairwise
      fun a b => key a ≤ key b := sorted_byKey key
  have hsame : (xs.mergeSort fun a b => decide (key a ≤ key b)).Perm
      (ys.mergeSort fun a b => decide (key a ≤ key b)) :=
    (List.mergeSort_perm xs _).trans (hperm.trans (List.mergeSort_perm ys _).symm)
  apply List.Perm.eq_of_pairwise ?_ (hsorted xs) (hsorted ys) hsame
  intro a b ha hb hab hba
  have haxs : a ∈ xs := (List.mergeSort_perm xs _).mem_iff.mp ha
  have hbxs : b ∈ xs := hperm.mem_iff.mpr ((List.mergeSort_perm ys _).mem_iff.mp hb)
  exact List.inj_on_of_nodup_map hnodup haxs hbxs (le_antisymm hab hba)

end ByKey

/-! ### The pass over the sorted observations -/

/-- A parent is an observation of the list which comes before its child. -/
def ParentsEarlier (observations : List TextObservation) : Prop :=
  ∀ o ∈ observations, ∀ parent, o.parentObservationId = some parent →
    ∃ p ∈ observations, p.observationId = parent ∧ p.readingOrder < o.readingOrder

/-- What the loop asks of the rest of the observations when it has seen some. -/
structure Acceptable (seenIds : List ObservationId) (seenOrders : List ℕ)
    (os : List TextObservation) : Prop where
  orders : (os.map (·.readingOrder)).Nodup
  ids : (os.map (·.observationId)).Nodup
  newOrders : ∀ o ∈ os, o.readingOrder ∉ seenOrders
  newIds : ∀ o ∈ os, o.observationId ∉ seenIds
  parents : ∀ o ∈ os, ∀ parent, o.parentObservationId = some parent →
    parent ∈ seenIds ∨ ∃ p ∈ os, p.observationId = parent ∧ p.readingOrder < o.readingOrder

theorem acyclic_cons_iff {seenIds : List ObservationId} {seenOrders : List ℕ}
    {o : TextObservation} {os : List TextObservation} :
    acyclic seenIds seenOrders (o::os) = true ↔
      o.readingOrder ∉ seenOrders ∧
      (∀ parent, o.parentObservationId = some parent → parent ∈ seenIds) ∧
      o.observationId ∉ seenIds ∧
      acyclic (o.observationId::seenIds) (o.readingOrder::seenOrders) os = true := by
  have hparent : (o.parentObservationId.all fun parent => seenIds.contains parent) = true ↔
      ∀ parent, o.parentObservationId = some parent → parent ∈ seenIds := by
    cases o.parentObservationId with
    | none => simp
    | some parent => simp
  have hnew : ∀ {α : Type} [DecidableEq α] (xs : List α) (a : α),
      (!xs.contains a) = true ↔ a ∉ xs := by simp
  rw [acyclic, Bool.and_eq_true, Bool.and_eq_true, Bool.and_eq_true, hparent, hnew, hnew,
    and_assoc, and_assoc]

theorem acceptable_cons {seenIds : List ObservationId} {seenOrders : List ℕ}
    {o : TextObservation} {os : List TextObservation}
    (hfirst : ∀ o' ∈ os, o.readingOrder ≤ o'.readingOrder) :
    Acceptable seenIds seenOrders (o::os) ↔
      o.readingOrder ∉ seenOrders ∧
      (∀ parent, o.parentObservationId = some parent → parent ∈ seenIds) ∧
      o.observationId ∉ seenIds ∧
      Acceptable (o.observationId::seenIds) (o.readingOrder::seenOrders) os := by
  constructor
  · intro h
    have horders := List.nodup_cons.mp h.orders
    have hids := List.nodup_cons.mp h.ids
    refine ⟨h.newOrders o List.mem_cons_self,?_,h.newIds o List.mem_cons_self,
      ⟨horders.2,hids.2,?_,?_,?_⟩⟩
    · intro parent hparent
      rcases h.parents o List.mem_cons_self parent hparent with hseen | ⟨p,hp,_,hlt⟩
      · exact hseen
      · -- nothing of a sorted list comes before its head
        rcases List.mem_cons.mp hp with rfl | hp
        · exact absurd hlt (lt_irrefl _)
        · exact absurd hlt (not_lt.mpr (hfirst p hp))
    · intro o' ho' hmem
      rcases List.mem_cons.mp hmem with heq | hmem
      · exact horders.1 (List.mem_map.mpr ⟨o',ho',heq⟩)
      · exact h.newOrders o' (List.mem_cons_of_mem o ho') hmem
    · intro o' ho' hmem
      rcases List.mem_cons.mp hmem with heq | hmem
      · exact hids.1 (List.mem_map.mpr ⟨o',ho',heq⟩)
      · exact h.newIds o' (List.mem_cons_of_mem o ho') hmem
    · intro o' ho' parent hparent
      rcases h.parents o' (List.mem_cons_of_mem o ho') parent hparent with hseen | ⟨p,hp,hid,hlt⟩
      · exact Or.inl (List.mem_cons_of_mem _ hseen)
      · rcases List.mem_cons.mp hp with rfl | hp
        · exact Or.inl (hid ▸ List.mem_cons_self)
        · exact Or.inr ⟨p,hp,hid,hlt⟩
  · rintro ⟨horder,hparent,hid,h⟩
    have hlt : ∀ o' ∈ os, o.readingOrder < o'.readingOrder := by
      intro o' ho'
      have hne : o'.readingOrder ≠ o.readingOrder := fun heq =>
        h.newOrders o' ho' (heq ▸ List.mem_cons_self)
      have hle := hfirst o' ho'
      omega
    constructor
    · rw [List.map_cons, List.nodup_cons]
      refine ⟨fun hmem => ?_,h.orders⟩
      obtain ⟨o',ho',heq⟩ := List.mem_map.mp hmem
      exact absurd (hlt o' ho') (by omega)
    · rw [List.map_cons, List.nodup_cons]
      refine ⟨fun hmem => ?_,h.ids⟩
      obtain ⟨o',ho',heq⟩ := List.mem_map.mp hmem
      exact h.newIds o' ho' (heq ▸ List.mem_cons_self)
    · intro o' ho'
      rcases List.mem_cons.mp ho' with rfl | ho'
      · exact horder
      · exact fun hmem => h.newOrders o' ho' (List.mem_cons_of_mem _ hmem)
    · intro o' ho'
      rcases List.mem_cons.mp ho' with rfl | ho'
      · exact hid
      · exact fun hmem => h.newIds o' ho' (List.mem_cons_of_mem _ hmem)
    · intro o' ho' parent hparent'
      rcases List.mem_cons.mp ho' with rfl | ho'
      · exact Or.inl (hparent parent hparent')
      · rcases h.parents o' ho' parent hparent' with hseen | ⟨p,hp,hpid,hplt⟩
        · rcases List.mem_cons.mp hseen with rfl | hseen
          · exact Or.inr ⟨o,List.mem_cons_self,rfl,hlt o' ho'⟩
          · exact Or.inl hseen
        · exact Or.inr ⟨p,List.mem_cons_of_mem o hp,hpid,hplt⟩

theorem acyclic_iff (seenIds : List ObservationId) (seenOrders : List ℕ)
    (os : List TextObservation)
    (hsorted : os.Pairwise fun a b => a.readingOrder ≤ b.readingOrder) :
    acyclic seenIds seenOrders os = true ↔ Acceptable seenIds seenOrders os := by
  induction os generalizing seenIds seenOrders with
  | nil =>
    have hnil : Acceptable seenIds seenOrders [] :=
      ⟨List.nodup_nil,List.nodup_nil,nofun,nofun,nofun⟩
    exact iff_of_true rfl hnil
  | cons o os ih =>
    rw [List.pairwise_cons] at hsorted
    rw [acyclic_cons_iff, acceptable_cons hsorted.1, ih _ _ hsorted.2]

/-! ### The lists which a page accepts -/

/-- What `DocumentPage::new` asks of the observations, in any order. -/
structure Consistent (observations : List TextObservation) : Prop where
  orders : (observations.map (·.readingOrder)).Nodup
  ids : (observations.map (·.observationId)).Nodup
  parents : ParentsEarlier observations

theorem acceptable_nil_iff (os : List TextObservation) : Acceptable [] [] os ↔ Consistent os := by
  constructor
  · intro h
    refine ⟨h.orders,h.ids,?_⟩
    intro o ho parent hparent
    rcases h.parents o ho parent hparent with hseen | hearlier
    · exact absurd hseen List.not_mem_nil
    · exact hearlier
  · intro h
    exact ⟨h.orders,h.ids,fun _ _ => List.not_mem_nil,fun _ _ => List.not_mem_nil,
      fun o ho parent hparent => Or.inr (h.parents o ho parent hparent)⟩

theorem Consistent.perm {xs ys : List TextObservation} (hperm : xs.Perm ys) (h : Consistent xs) :
    Consistent ys := by
  constructor
  · exact (hperm.map _).nodup_iff.mp h.orders
  · exact (hperm.map _).nodup_iff.mp h.ids
  · intro o ho parent hparent
    obtain ⟨p,hp,hid,hlt⟩ := h.parents o (hperm.mem_iff.mpr ho) parent hparent
    exact ⟨p,hperm.mem_iff.mp hp,hid,hlt⟩

theorem ordered_perm (observations : List TextObservation) :
    (ordered observations).Perm observations := List.mergeSort_perm observations _

theorem ordered_sorted (observations : List TextObservation) :
    (ordered observations).Pairwise fun a b => a.readingOrder ≤ b.readingOrder :=
  sorted_byKey (·.readingOrder) observations

theorem acyclic_ordered (observations : List TextObservation) :
    acyclic [] [] (ordered observations) = true ↔ Consistent observations := by
  rw [acyclic_iff [] [] _ (ordered_sorted observations), acceptable_nil_iff]
  exact ⟨Consistent.perm (ordered_perm observations),Consistent.perm (ordered_perm observations).symm⟩

/-- The sizes of a page and the number of its observations are in their bounds. -/
def Sized (page width height : ℕ) (observations : List TextObservation) : Prop :=
  (1 ≤ page ∧ 1 ≤ width ∧ 1 ≤ height) ∧ observations.length ≤ maximumObservations

theorem new_check (page width height : ℕ) (observations : List TextObservation) :
    (decide (1 ≤ page ∧ 1 ≤ width ∧ 1 ≤ height) &&
      decide ((ordered observations).length ≤ maximumObservations) &&
      acyclic [] [] (ordered observations)) = true ↔
    Sized page width height observations ∧ Consistent observations := by
  rw [Bool.and_eq_true, Bool.and_eq_true, decide_eq_true_eq, decide_eq_true_eq,
    acyclic_ordered, (ordered_perm observations).length_eq]
  rfl

theorem new_accepts (page width height : ℕ) (observations : List TextObservation) :
    (DocumentPage.new page width height observations).isSome = true ↔
      Sized page width height observations ∧ Consistent observations := by
  rw [← new_check, DocumentPage.new]
  split
  · rename_i h
    exact iff_of_true rfl h
  · rename_i h
    exact iff_of_false nofun h

theorem new_some {page width height : ℕ} {observations : List TextObservation}
    {result : DocumentPage} (h : DocumentPage.new page width height observations = some result) :
    result.page = page ∧ result.width = width ∧ result.height = height ∧
      result.observations = ordered observations := by
  rw [DocumentPage.new] at h
  split at h
  · rw [Option.some.injEq] at h
    rw [← h]
    exact ⟨rfl,rfl,rfl,rfl⟩
  · cases h

theorem new_perm (page width height : ℕ) {xs ys : List TextObservation} (hperm : xs.Perm ys) :
    DocumentPage.new page width height xs = DocumentPage.new page width height ys := by
  by_cases h : Sized page width height xs ∧ Consistent xs
  · have hsorted : ordered xs = ordered ys :=
      sort_perm (fun o : TextObservation => o.readingOrder) hperm h.2.orders
    simp only [DocumentPage.new, hsorted]
  · have h' : ¬(Sized page width height ys ∧ Consistent ys) := by
      rintro ⟨hsized,hconsistent⟩
      apply h
      refine ⟨⟨hsized.1,?_⟩,hconsistent.perm hperm.symm⟩
      rw [hperm.length_eq]
      exact hsized.2
    rw [← new_accepts, Bool.not_eq_true, Option.isSome_eq_false_iff, Option.isNone_iff_eq_none]
      at h h'
    rw [h, h']

/-! ### Parents -/

/-- An identifier names another as its parent. -/
def Parent (observations : List TextObservation) (child parent : ObservationId) : Prop :=
  ∃ o ∈ observations, o.observationId = child ∧ o.parentObservationId = some parent

/-- Parents of parents come before their children. -/
theorem Consistent.ancestor {observations : List TextObservation} (h : Consistent observations)
    {child ancestor : ObservationId}
    (hancestor : Relation.TransGen (Parent observations) child ancestor) :
    ∃ o ∈ observations, ∃ p ∈ observations, o.observationId = child ∧
      p.observationId = ancestor ∧ p.readingOrder < o.readingOrder := by
  induction hancestor with
  | single hparent =>
    obtain ⟨o,ho,hid,hparent⟩ := hparent
    obtain ⟨p,hp,hpid,hlt⟩ := h.parents o ho _ hparent
    exact ⟨o,ho,p,hp,hid,hpid,hlt⟩
  | tail _ hparent ih =>
    obtain ⟨o,ho,p,hp,hid,hpid,hlt⟩ := ih
    obtain ⟨q,hq,hqid,hparent⟩ := hparent
    obtain ⟨r,hr,hrid,hrlt⟩ := h.parents q hq _ hparent
    have hsame : p = q := List.inj_on_of_nodup_map h.ids hp hq (hpid.trans hqid.symm)
    rw [← hsame] at hrlt
    exact ⟨o,ho,r,hr,hid,hrid,by omega⟩

theorem Consistent.acyclic {observations : List TextObservation} (h : Consistent observations)
    (id : ObservationId) : ¬Relation.TransGen (Parent observations) id id := by
  intro hloop
  obtain ⟨o,ho,p,hp,hid,hpid,hlt⟩ := h.ancestor hloop
  have hsame : o = p := List.inj_on_of_nodup_map h.ids ho hp (hid.trans hpid.symm)
  rw [hsame] at hlt
  exact lt_irrefl _ hlt

/-- A page accepts exactly the consistent lists, makes the same page of each order of a
list, and its observations are sorted, without a cycle of parents and make the same page
again. -/
theorem new_exact (page width height : ℕ) (observations : List TextObservation) :
    ((DocumentPage.new page width height observations).isSome = true ↔
      ((1 ≤ page ∧ 1 ≤ width ∧ 1 ≤ height) ∧ observations.length ≤ maximumObservations) ∧
      (observations.map (·.readingOrder)).Nodup ∧ (observations.map (·.observationId)).Nodup ∧
      ParentsEarlier observations) ∧
    (∀ permuted : List TextObservation, permuted.Perm observations →
      DocumentPage.new page width height permuted =
        DocumentPage.new page width height observations) ∧
    ∀ result, DocumentPage.new page width height observations = some result →
      (result.page = page ∧ result.width = width ∧ result.height = height) ∧
      result.observations.Perm observations ∧
      (result.observations.Pairwise fun a b => a.readingOrder < b.readingOrder) ∧
      (∀ id, ¬Relation.TransGen (Parent result.observations) id id) ∧
      DocumentPage.new result.page result.width result.height result.observations =
        some result := by
  refine ⟨?_,fun permuted hperm => new_perm page width height hperm,?_⟩
  · rw [new_accepts]
    exact and_congr_right fun _ => ⟨fun h => ⟨h.orders,h.ids,h.parents⟩,
      fun h => ⟨h.1,h.2.1,h.2.2⟩⟩
  · intro result hresult
    obtain ⟨hpage,hwidth,hheight,hordered⟩ := new_some hresult
    have hperm : result.observations.Perm observations := hordered ▸ ordered_perm observations
    have haccepted := (new_accepts page width height observations).mp (by rw [hresult]; rfl)
    have hconsistent : Consistent result.observations := haccepted.2.perm hperm.symm
    have hsorted : result.observations.Pairwise fun a b => a.readingOrder ≤ b.readingOrder :=
      hordered ▸ ordered_sorted observations
    have hdistinct : result.observations.Pairwise fun a b => a.readingOrder ≠ b.readingOrder :=
      List.pairwise_map.mp hconsistent.orders
    refine ⟨⟨hpage,hwidth,hheight⟩,hperm,?_,hconsistent.acyclic,?_⟩
    · exact (hsorted.and hdistinct).imp fun h => by omega
    · rw [hpage, hwidth, hheight, new_perm page width height hperm, hresult]

end DocumentIntelligence.PageOrder
