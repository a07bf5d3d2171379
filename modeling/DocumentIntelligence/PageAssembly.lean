import DocumentIntelligence.PageObservations
import DocumentIntelligence.PageOrder

/-!
# Recognized texts and their regions

A page is built of the regions of a detector and of a batch of recognitions, in three
passes: the batch is put in the order of the regions, the pairs are put in the order of
reading, and each of them becomes an observation.
-/

set_option autoImplicit false

namespace DocumentIntelligence.PageAssembly
open PlaneMaps PageTransforms PageObservations
open DocumentPages (ObservationLevel sorted_byKey)
open PageOrder (sort_perm)
open Table (bind_ok forall₂_map_eq forall₂_getElem)

variable {K : Type} [Field K] [LinearOrder K]

/-! ### The batch -/

/-- The recognitions name each region once. -/
def Covers (recognitions : List (RecognizedRegion K)) (regionCount : ℕ) : Prop :=
  (recognitions.map (·.regionIndex)).Perm (List.range regionCount)

theorem assembleRecognitions_covers {outputs sorted : List (RecognizedRegion K)}
    {regionCount : ℕ} (h : assembleRecognitions outputs regionCount = .ok sorted) :
    Covers outputs regionCount := by
  simp only [assembleRecognitions] at h
  split at h
  · cases h
  · rename_i hlength
    have hperm : (outputs.mergeSort fun a b => decide (a.regionIndex ≤ b.regionIndex)).Perm
        outputs := List.mergeSort_perm _ _
    split at h
    · cases h
    · rename_i hany
      rw [not_not] at hlength
      rw [Bool.not_eq_true, List.any_eq_false] at hany
      have hkeys : (outputs.mergeSort fun a b =>
          decide (a.regionIndex ≤ b.regionIndex)).map (·.regionIndex) =
          List.range regionCount := by
        apply List.ext_getElem?
        intro k
        rw [List.getElem?_map]
        by_cases hk : k < regionCount
        · have hlt : k < (outputs.mergeSort fun a b =>
              decide (a.regionIndex ≤ b.regionIndex)).length := by
            rw [hperm.length_eq, hlength]
            exact hk
          have hequal := hany (_,k) (List.mk_mem_zipIdx_iff_getElem?.mpr
            (List.getElem?_eq_getElem hlt))
          rw [List.getElem?_range hk, List.getElem?_eq_getElem hlt, Option.map_some]
          simpa using hequal
        · rw [List.getElem?_eq_none (by rw [hperm.length_eq, hlength]; omega),
            List.getElem?_eq_none (by rw [List.length_range]; omega)]
          rfl
      exact ((hperm.map _).symm.trans (List.Perm.of_eq hkeys))

/-- The order of the recognitions in a batch does not matter. -/
theorem assembleRecognitions_perm {outputs permuted : List (RecognizedRegion K)}
    (hperm : permuted.Perm outputs) (regionCount : ℕ) :
    assembleRecognitions permuted regionCount = assembleRecognitions outputs regionCount := by
  by_cases hcovers : Covers outputs regionCount
  · have hnodup : (permuted.map (·.regionIndex)).Nodup :=
      ((hperm.map _).trans hcovers).nodup_iff.mpr List.nodup_range
    have hsorted : (permuted.mergeSort fun a b => decide (a.regionIndex ≤ b.regionIndex)) =
        outputs.mergeSort fun a b => decide (a.regionIndex ≤ b.regionIndex) :=
      sort_perm (fun r : RecognizedRegion K => r.regionIndex) hperm hnodup
    rw [assembleRecognitions, assembleRecognitions, hperm.length_eq, hsorted]
  · have hcovers' : ¬Covers permuted regionCount := fun h => hcovers ((hperm.map _).symm.trans h)
    have herror : ∀ xs : List (RecognizedRegion K), ¬Covers xs regionCount →
        assembleRecognitions xs regionCount = .error .invalidRecognitionBatch := by
      intro xs hxs
      cases hresult : assembleRecognitions xs regionCount with
      | ok sorted => exact absurd (assembleRecognitions_covers hresult) hxs
      | error e =>
        simp only [assembleRecognitions] at hresult
        split at hresult
        · rw [← hresult]
        · split at hresult
          · rw [← hresult]
          · cases hresult
    rw [herror _ hcovers, herror _ hcovers']

/-! ### The observations -/

/-- The observation at the place `k` is that of the region `i`. -/
structure Observes (trig : Trig K) (page : PageNumber) (transforms : TransformChain K)
    (level : ObservationLevel) (regions : List (DetectionCandidate K))
    (recognitions : List (RecognizedRegion K)) (k i : ℕ) (o : TextObservation K) : Prop where
  region : ∃ region, regions[i]? = some region ∧
    originalPolygon trig region transforms = .ok o.polygon
  recognition : ∃ recognition ∈ recognitions, recognition.regionIndex = i ∧
    o.text = recognition.text ∧ o.confidence.value = recognition.confidence
  id : o.observationId.asStr = idText page i
  readingOrder : o.readingOrder = k
  level : o.level = level
  parent : o.parentObservationId = none

/-- The fields of an observation. -/
theorem observe_fields {trig : Trig K} {page : PageNumber} {transforms : TransformChain K}
    {level : ObservationLevel} {pair : (DetectionCandidate K×RecognizedRegion K)×ℕ}
    {o : TextObservation K} (h : observe trig page transforms level pair = .ok o) :
    originalPolygon trig pair.1.1 transforms = .ok o.polygon ∧ o.text = pair.1.2.text ∧
      o.confidence.value = pair.1.2.confidence ∧ o.level = level := by
  obtain ⟨k,_,h⟩ := bind_ok.mp h
  obtain ⟨polygon,hpolygon,h⟩ := bind_ok.mp h
  obtain ⟨id,_,h⟩ := bind_ok.mp h
  obtain ⟨confidence,hconfidence,h⟩ := bind_ok.mp h
  have hnew := okOr_ok.mp h
  rw [TextObservation.new] at hnew
  split at hnew
  · rw [Option.some.injEq] at hnew
    have hvalue := okOr_ok.mp hconfidence
    rw [Confidence.new] at hvalue
    split at hvalue
    · rw [Option.some.injEq] at hvalue
      rw [← hnew, ← hvalue]
      exact ⟨hpolygon,rfl,rfl,rfl⟩
    · cases hvalue
  · cases hnew

/-- Each pair holds a region and the recognition which names it. -/
theorem pair_region {regions : List (DetectionCandidate K)} {sorted : List (RecognizedRegion K)}
    (hkeys : sorted.map (·.regionIndex) = List.range regions.length)
    {pair : DetectionCandidate K×RecognizedRegion K} (h : pair ∈ regions.zip sorted) :
    regions[pair.2.regionIndex]? = some pair.1 ∧ pair.2 ∈ sorted := by
  obtain ⟨k,hk⟩ := List.mem_iff_getElem?.mp h
  obtain ⟨hregion,hrecognition⟩ := List.getElem?_zip_eq_some.mp hk
  have hlt : k < regions.length := (List.getElem?_eq_some_iff.mp hregion).1
  have hindex : pair.2.regionIndex = k := by
    have hmap := congrArg (fun l : List ℕ => l[k]?) hkeys
    simp only [List.getElem?_map, hrecognition, Option.map_some, List.getElem?_range hlt,
      Option.some.injEq] at hmap
    exact hmap
  rw [hindex]
  exact ⟨hregion,List.mem_of_getElem? hrecognition⟩

/-- What a page keeps of observations whose orders are already sorted. -/
theorem documentPage_observations {page : PageNumber} {width height : ℕ}
    {os : List (TextObservation K)} {result : DocumentPage K}
    (hsorted : os.Pairwise fun a b => a.readingOrder ≤ b.readingOrder)
    (h : DocumentPage.new page width height os = some result) : result.observations = os := by
  simp only [DocumentPage.new] at h
  split at h
  · cases h
  split at h
  · rw [Option.some.injEq] at h
    rw [← h]
    exact List.mergeSort_of_pairwise (hsorted.imp fun hle => decide_eq_true hle)
  · cases h

theorem before_sorted (pairs : List (DetectionCandidate K×RecognizedRegion K)) :
    (pairs.mergeSort before).Pairwise fun a b => before a b = true := by
  apply List.pairwise_mergeSort
  · intro a b c hab hbc
    simp only [before, Bool.or_eq_true, Bool.and_eq_true, decide_eq_true_eq] at *
    rcases hab with hab | ⟨hab,hleft⟩
    · rcases hbc with hbc | ⟨hbc,_⟩
      · exact Or.inl (hab.trans hbc)
      · exact Or.inl (hbc ▸ hab)
    · rcases hbc with hbc | ⟨hbc,hleft'⟩
      · exact Or.inl (hab ▸ hbc)
      · exact Or.inr ⟨hab.trans hbc,hleft.trans hleft'⟩
  · intro a b
    simp only [before, Bool.or_eq_true, Bool.and_eq_true, decide_eq_true_eq]
    rcases lt_trichotomy a.1.top b.1.top with hlt | heq | hgt
    · exact Or.inl (Or.inl hlt)
    · rcases le_total a.1.left b.1.left with hle | hle
      · exact Or.inl (Or.inr ⟨heq,hle⟩)
      · exact Or.inr (Or.inr ⟨heq.symm,hle⟩)
    · exact Or.inr (Or.inl hgt)

section Order
variable {regions : List (DetectionCandidate K)} {sorted : List (RecognizedRegion K)}

/-- The regions with their recognitions in the order in which they are read. -/
def readingPairs (regions : List (DetectionCandidate K)) (sorted : List (RecognizedRegion K)) :
    List (DetectionCandidate K×RecognizedRegion K) := (regions.zip sorted).mergeSort before

theorem readingPairs_perm : (readingPairs regions sorted).Perm (regions.zip sorted) :=
  List.mergeSort_perm _ _

/-- The regions, by their indices, in the order in which they are read. -/
def readingOrder (regions : List (DetectionCandidate K)) (sorted : List (RecognizedRegion K)) :
    List ℕ := (readingPairs regions sorted).map (·.2.regionIndex)

variable (hkeys : sorted.map (·.regionIndex) = List.range regions.length)
include hkeys

theorem readingOrder_perm :
    (readingOrder regions sorted).Perm (List.range regions.length) := by
  have hlength := congrArg List.length hkeys
  rw [List.length_map, List.length_range] at hlength
  have hpairs : (readingPairs regions sorted).Perm (regions.zip sorted) := readingPairs_perm
  have hmapped := (hpairs.map Prod.snd).map RecognizedRegion.regionIndex
  rw [List.map_snd_zip hlength.le, hkeys, List.map_map] at hmapped
  exact hmapped

theorem length_readingPairs : (readingPairs regions sorted).length = regions.length := by
  have hlength := (readingOrder_perm hkeys).length_eq
  rwa [readingOrder, List.length_map, List.length_range] at hlength

/-- The pair at a place of the order. -/
theorem readingPairs_at {k i : ℕ} (h : (readingOrder regions sorted)[k]? = some i) :
    ∃ pair, (readingPairs regions sorted)[k]? = some pair ∧ pair.2.regionIndex = i ∧
      regions[i]? = some pair.1 ∧ pair.2 ∈ sorted := by
  rw [readingOrder, List.getElem?_map] at h
  obtain ⟨pair,hpair,hindex⟩ := Option.map_eq_some_iff.mp h
  have hzip : pair ∈ regions.zip sorted := readingPairs_perm.mem_iff.mp (List.mem_of_getElem? hpair)
  obtain ⟨hregion,hmem⟩ := pair_region hkeys hzip
  exact ⟨pair,hpair,hindex,hindex ▸ hregion,hmem⟩

theorem readingPairs_before {k l i j : ℕ} {region region' : DetectionCandidate K} (hlt : k < l)
    (hk : (readingOrder regions sorted)[k]? = some i)
    (hl : (readingOrder regions sorted)[l]? = some j) (hi : regions[i]? = some region)
    (hj : regions[j]? = some region') :
    region.top < region'.top ∨ region.top = region'.top ∧ region.left ≤ region'.left := by
  obtain ⟨pair,hpair,_,hregion,_⟩ := readingPairs_at hkeys hk
  obtain ⟨pair',hpair',_,hregion',_⟩ := readingPairs_at hkeys hl
  rw [hi, Option.some.injEq] at hregion
  rw [hj, Option.some.injEq] at hregion'
  obtain ⟨hk',heq⟩ := List.getElem?_eq_some_iff.mp hpair
  obtain ⟨hl',heq'⟩ := List.getElem?_eq_some_iff.mp hpair'
  have hbefore : before pair pair' = true := by
    rw [← heq, ← heq']
    exact List.pairwise_iff_getElem.mp (before_sorted (regions.zip sorted)) k l hk' hl' hlt
  simp only [before, Bool.or_eq_true, Bool.and_eq_true, decide_eq_true_eq] at hbefore
  rwa [hregion, hregion']

end Order

section Build
variable (trig : Trig K) (page : PageNumber) (width height : ℕ)
  (regions : List (DetectionCandidate K)) (recognitions : List (RecognizedRegion K))
  (transforms : TransformChain K) (level : ObservationLevel)

/-- The observations are those of the regions in the order in which they are read. -/
structure Matches (order : List ℕ) (observations : List (TextObservation K)) : Prop where
  covers : Covers recognitions regions.length
  perm : order.Perm (List.range regions.length)
  length : observations.length = regions.length
  observes : ∀ k i, order[k]? = some i → ∃ o, observations[k]? = some o ∧
    Observes trig page transforms level regions recognitions k i o
  sorted : ∀ (k l i j : ℕ) (region region' : DetectionCandidate K), k < l →
    order[k]? = some i → order[l]? = some j →
    regions[i]? = some region → regions[j]? = some region' →
    region.top < region'.top ∨ region.top = region'.top ∧ region.left ≤ region'.left
  ids : (observations.map (·.observationId)).Nodup

/-- What the passes over a batch which is accepted have made of it. -/
structure Passes (sorted : List (RecognizedRegion K)) (os : List (TextObservation K)) : Prop where
  perm : sorted.Perm recognitions
  keys : sorted.map (·.regionIndex) = List.range regions.length
  observed : List.Forall₂ (fun entry o => observe trig page transforms level entry = .ok o)
    (readingPairs regions sorted).zipIdx os

variable {trig page width height regions recognitions transforms level}

theorem build_passes {result : DocumentPage K}
    (h : buildPageObservations trig page width height regions recognitions transforms level =
      .ok result) :
    ∃ sorted os, Passes trig page regions recognitions transforms level sorted os ∧
      DocumentPage.new page width height os = some result := by
  obtain ⟨sorted,hassemble,h⟩ := bind_ok.mp h
  obtain ⟨os,hos,hnew⟩ := bind_ok.mp h
  obtain ⟨sorted',hassemble',hperm,hkeys⟩ := assembleRecognitions_ok recognitions regions.length
    (assembleRecognitions_covers hassemble)
  rw [hassemble, Except.ok.injEq] at hassemble'
  subst sorted'
  exact ⟨sorted,os,⟨hperm,hkeys,Table.mapM_ok_iff.mp hos⟩,okOr_ok.mp hnew⟩

section Passes
variable {sorted : List (RecognizedRegion K)} {os : List (TextObservation K)}
  (h : Passes trig page regions recognitions transforms level sorted os)
include h

theorem Passes.ascending : os.Pairwise fun a b => a.readingOrder ≤ b.readingOrder := by
  have horders : os.map (·.readingOrder) = (readingPairs regions sorted).zipIdx.map (·.2) :=
    forall₂_map_eq (h.observed.imp fun _ _ ho => (observe_some trig ho).2.2.1)
  have hrange : (os.map (·.readingOrder)).Pairwise (· ≤ ·) := by
    rw [horders, List.zipIdx_map_snd]
    exact List.pairwise_le_range'
  exact List.pairwise_map.mp hrange

theorem Passes.observes {k i : ℕ} (hk : (readingOrder regions sorted)[k]? = some i) :
    ∃ o, os[k]? = some o ∧
      Observes trig page transforms level regions recognitions k i o := by
  obtain ⟨pair,hpair,hindex,hregion,hmem⟩ := readingPairs_at h.keys hk
  have hentry : (readingPairs regions sorted).zipIdx[k]? = some (pair,k) := by
    rw [List.getElem?_zipIdx, hpair, Option.map_some, Nat.zero_add]
  obtain ⟨o,ho,hobserve⟩ := forall₂_getElem h.observed hentry
  obtain ⟨hpolygon,htext,hconfidence,hlevel⟩ := observe_fields hobserve
  obtain ⟨_,hid,horder,hparent⟩ := observe_some trig hobserve
  rw [hindex] at hid
  exact ⟨o,ho,⟨pair.1,hregion,hpolygon⟩,
    ⟨pair.2,h.perm.mem_iff.mp hmem,hindex,htext,hconfidence⟩,hid,horder,hlevel,hparent⟩

theorem Passes.ids : (os.map (·.observationId)).Nodup := by
  have hids : os.map (·.observationId.asStr) =
      (readingPairs regions sorted).zipIdx.map fun entry => idText page entry.1.2.regionIndex :=
    forall₂_map_eq (h.observed.imp fun _ _ ho => (observe_some trig ho).2.1)
  have hindices : (readingPairs regions sorted).zipIdx.map
      (fun entry => idText page entry.1.2.regionIndex) =
      (readingOrder regions sorted).map (idText page) := by
    rw [readingOrder]
    conv_rhs => rw [List.map_map, ← List.zipIdx_map_fst 0 (readingPairs regions sorted),
      List.map_map]
    rfl
  have hnodup : (os.map (·.observationId.asStr)).Nodup := by
    rw [hids, hindices]
    exact ((readingOrder_perm h.keys).nodup_iff.mpr List.nodup_range).map
      fun _ _ hab => observationId_inj page hab
  exact List.Nodup.of_map (fun id => id.asStr) (by rwa [List.map_map])

theorem Passes.matches :
    Matches trig page regions recognitions transforms level (readingOrder regions sorted) os := by
  constructor
  · exact (h.perm.map _).symm.trans (List.Perm.of_eq h.keys)
  · exact readingOrder_perm h.keys
  · rw [← h.observed.length_eq, List.length_zipIdx, length_readingPairs h.keys]
  · exact fun k i hk => h.observes hk
  · exact fun k l i j region region' => readingPairs_before h.keys
  · exact h.ids

end Passes

variable (trig page width height regions recognitions transforms level)

/-- A page which is built matches its regions, and the order of the batch does not
matter. -/
theorem build_matches :
    (∀ permuted : List (RecognizedRegion K), permuted.Perm recognitions →
      buildPageObservations trig page width height regions permuted transforms level =
        buildPageObservations trig page width height regions recognitions transforms level) ∧
    ∀ result, buildPageObservations trig page width height regions recognitions transforms level =
        .ok result →
      ∃ order, Matches trig page regions recognitions transforms level order
        result.observations := by
  constructor
  · intro permuted hperm
    rw [buildPageObservations, buildPageObservations, assembleRecognitions_perm hperm]
  · intro result h
    obtain ⟨sorted,os,hpasses,hnew⟩ := build_passes h
    rw [documentPage_observations hpasses.ascending hnew]
    exact ⟨readingOrder regions sorted,hpasses.matches⟩

end Build

end DocumentIntelligence.PageAssembly
