import DocumentIntelligence.ResultJson
import DocumentIntelligence.Table

/-!
# Assembly of a document result

The pages of a document become one result: their text in page order, a citation for
each leaf of the observations, and the failures which a reviewer looks at. The fields
which a schema extracts are a parameter; the codes of its failures are those of the
extraction's source.
-/

set_option autoImplicit false

namespace DocumentIntelligence.ResultAssembly
open Identifiers (DocumentId DocumentVersion)
open DocumentPages (TextObservation ObservationId isWhitespace acyclic)
open DocumentResults
open Table (bind_ok)

def maximumResultBytes : ℕ := 67108864

def documentAiOcrVersion : String := "pretrained-ocr-v2.1.1-2025-01-31"

inductive ResultAssemblyError where
  | tooLarge
  | domain (error : DocumentResults.Error)
  deriving DecidableEq, Repr

/-- `ExtractionSchema` -/
inductive ExtractionSchema where
  | koraNutritionLabelV1
  deriving DecidableEq, Repr

def extractionCodes : List String :=
  ["nutrition_row_incomplete","nutrition_panel_not_found","nutrition_columns_unidentified",
    "energy_unit_mismatch","energy_atwater_mismatch","saturated_fat_exceeds_fat",
    "sugars_exceed_carbohydrate","per_100g_exceeds_100g","serving_column_mismatch"]

structure ExtractedFields (V : Type) where
  fields : Fields V
  validationFailures : List ValidationFailure
  codes : ∀ failure ∈ validationFailures, failure.code.asStr ∈ extractionCodes

def ExtractedFields.default {V : Type} : ExtractedFields V := ⟨Fields.empty,[],by simp⟩

/-! ### Codes -/

def legacyProcessingRequiresReview : StableCode := ⟨"legacy_processing_requires_review",by decide⟩
def ocrPageRequiresManualReview : StableCode := ⟨"ocr_page_requires_manual_review",by decide⟩
def ocrLowConfidence : StableCode := ⟨"ocr_low_confidence",by decide⟩
def ocrNoTextDetected : StableCode := ⟨"ocr_no_text_detected",by decide⟩
def manualReviewRequired : StableCode := ⟨"manual_review_required",by decide⟩
def nutritionRowIncomplete : StableCode := ⟨"nutrition_row_incomplete",by decide⟩
def nutritionPanelNotFound : StableCode := ⟨"nutrition_panel_not_found",by decide⟩
def retakeIncludeReadableDocument : StableCode := ⟨"retake_include_readable_document",by decide⟩
def retakeSharperImage : StableCode := ⟨"retake_sharper_image",by decide⟩
def retakeIncludeColumnHeaders : StableCode := ⟨"retake_include_column_headers",by decide⟩

/-! ### Text and citations -/

/-- The observations which no observation of the page names as its parent. -/
def leaves (page : BuiltPage) : List TextObservation :=
  let parentIds := page.observations.filterMap (·.parentObservationId)
  page.observations.filter fun o => !parentIds.contains o.observationId

def cite (page : BuiltPage) (o : TextObservation) : Evidence where
  page := page.page
  polygon := o.polygon
  observationId := o.observationId
  valid := by
    have hvalid := page.valid
    have hfits := page.fits
    simp only [fitsU32, Bool.and_eq_true, decide_eq_true_eq] at hvalid hfits
    exact decide_eq_true ⟨hvalid.1.1.1,hfits.1.1⟩

def lowConfidence (o : TextObservation) : Bool := decide (o.confidence.value < 0.6)

def appendBounded (output value : String) : Except ResultAssemblyError String :=
  if maximumResultBytes < output.utf8ByteSize+value.utf8ByteSize then .error .tooLarge
  else .ok (output++value)

/-- The separator before everything but the first part. -/
def separate (started : Prop) [Decidable started] (output separator : String) :
    Except ResultAssemblyError String :=
  if started then appendBounded output separator else .ok output

/-- The variables of the loop over the pages. -/
structure Pass where
  text : String
  citations : List Evidence
  lowConfidence : Bool

/-- The loop over the leaves of a page, from the given index on. -/
def appendLeaves (page : BuiltPage) : ℕ → List TextObservation → Pass →
    Except ResultAssemblyError Pass
  | _,[],pass => .ok pass
  | index,o::os,pass => do
    let text ← separate (0 < index) pass.text "\n"
    let text ← appendBounded text o.text
    appendLeaves page (index+1) os
      ⟨text,pass.citations++[cite page o],pass.lowConfidence || lowConfidence o⟩

def appendPage (page : BuiltPage) (pass : Pass) : Except ResultAssemblyError Pass :=
  if (leaves page).isEmpty then .ok pass
  else do
    let text ← separate (pass.text ≠ "") pass.text "\n\n"
    appendLeaves page 0 (leaves page) ⟨text,pass.citations,pass.lowConfidence⟩

def appendPages : List BuiltPage → Pass → Except ResultAssemblyError Pass
  | [],pass => .ok pass
  | page::pages,pass => do
    let pass ← appendPage page pass
    appendPages pages pass

/-! ### Assembly -/

section Assembly
variable {V : Type} (extract : ExtractionSchema → List BuiltPage → ExtractedFields V)
  (formatF64 : Float → String) (formatValue : V → String)

def isBlank (text : String) : Bool := text.toList.all isWhitespace

/-- The failures after the extraction's. -/
def reviewFailures (pages : List BuiltPage) (provenance : Option ProcessingProvenance)
    (pass : Pass) : List ValidationFailure :=
  (if provenance.any (fun profile => profile.provider == "legacy-mixed") then
    [⟨legacyProcessingRequiresReview,.warning⟩] else [])++
  (if pages.any (fun page => page.observations.isEmpty) then
    [⟨ocrPageRequiresManualReview,.warning⟩] else [])++
  (if pass.lowConfidence then [⟨ocrLowConfidence,.warning⟩] else [])++
  (if isBlank pass.text then [⟨ocrNoTextDetected,.error⟩] else [])

def reviewWarnings (pages : List BuiltPage) (provenance : Option ProcessingProvenance)
    (pass : Pass) (failures : List ValidationFailure) : List StableCode :=
  (if provenance.any (fun profile => profile.provider == "legacy-mixed") then
    [manualReviewRequired] else [])++
  (if pages.any (fun page => page.observations.isEmpty) then [manualReviewRequired] else [])++
  (if isBlank pass.text then [retakeIncludeReadableDocument]
  else if pass.lowConfidence || failures.any (fun failure => failure.code == nutritionRowIncomplete)
    then [retakeSharperImage]
  else if failures.any (fun failure => failure.code == nutritionPanelNotFound) then
    [retakeIncludeColumnHeaders]
  else [])

def liftDomain {α : Type} : Except DocumentResults.Error α → Except ResultAssemblyError α
  | .ok value => .ok value
  | .error error => .error (.domain error)

/-- The members of the result of sorted pages. -/
def assembledPayload (pages : List BuiltPage) (schema : Option ExtractionSchema)
    (provenance : Option ProcessingProvenance) (pass : Pass) : DocumentResultPayload V :=
  let extraction := (schema.map fun schema => extract schema pages).getD ExtractedFields.default
  let failures := extraction.validationFailures++reviewFailures pages provenance pass
  { (DocumentResultPayload.default : DocumentResultPayload V) with
    text := pass.text
    pages := pages
    citations := pass.citations
    fields := extraction.fields
    warnings := reviewWarnings pages provenance pass failures
    validationFailures := failures
    provenance := provenance }

def assembleWithProvenance (documentId : DocumentId) (documentVersion : DocumentVersion)
    (pages : List BuiltPage) (schema : Option ExtractionSchema)
    (provenance : Option ProcessingProvenance) :
    Except ResultAssemblyError (DocumentResult V) := do
  let pages := byNumber pages
  let pass ← appendPages pages ⟨"",[],false⟩
  let result ← liftDomain (DocumentResult.new documentId documentVersion
    (assembledPayload extract pages schema provenance pass))
  if maximumResultBytes < (ResultJson.toVec formatF64 formatValue result).length then
    .error .tooLarge
  else .ok result

def startsWith (value start : String) : Bool := start.toList.isPrefixOf value.toList

/-- An identifier of the native extraction or of the remote recognizer. -/
def nativeId (id : ObservationId) : Bool :=
  startsWith id.asStr "obs_native_" || startsWith id.asStr "obs_docai_"

def observationIds (pages : List BuiltPage) : List ObservationId :=
  pages.flatMap fun page => page.observations.map (·.observationId)

def nativeProfile (pages : List BuiltPage) : String × String × String :=
  if (observationIds pages).any fun id => !nativeId id then
    ("legacy-mixed","unknown","native-text-transition-v1")
  else if (observationIds pages).any fun id => startsWith id.asStr "obs_docai_" then
    ("native-text-document-ai",documentAiOcrVersion,"hybrid-ocr-v1")
  else ("native-text","none","native-text-v1")

/-- The mode in which the finalizer assembles. -/
inductive Assembly where
  | document
  | native (durationMs : ℕ)
  | legacy
  deriving DecidableEq, Repr

/-- The provenance of `assemble_document_result`, `assemble_native_document_result` and
`assemble_legacy_document_result`. -/
def Assembly.provenance (pages : List BuiltPage) :
    Assembly → Except ResultAssemblyError (Option ProcessingProvenance)
  | .document => .ok none
  | .native durationMs => do
    let (provider,model,profile) := nativeProfile pages
    let provenance ← liftDomain (ProcessingProvenance.new provider model profile durationMs)
    .ok (some provenance)
  | .legacy => do
    let provenance ← liftDomain
      (ProcessingProvenance.new "legacy-mixed" "unknown" "native-text-transition-v1" 0)
    .ok (some provenance)

def assemble (mode : Assembly) (documentId : DocumentId) (documentVersion : DocumentVersion)
    (pages : List BuiltPage) (schema : Option ExtractionSchema) :
    Except ResultAssemblyError (DocumentResult V) := do
  let provenance ← mode.provenance pages
  assembleWithProvenance extract formatF64 formatValue documentId documentVersion pages schema
    provenance

end Assembly

/-! ### Leaves -/

theorem acyclic_cons {seenIds : List ObservationId} {seenOrders : List ℕ} {o : TextObservation}
    {os : List TextObservation} (h : acyclic seenIds seenOrders (o::os) = true) :
    (∀ parent ∈ o.parentObservationId, parent ∈ seenIds) ∧ o.observationId ∉ seenIds ∧
      acyclic (o.observationId::seenIds) (o.readingOrder::seenOrders) os = true := by
  rw [acyclic, Bool.and_eq_true, Bool.and_eq_true, Bool.and_eq_true] at h
  refine ⟨?_,by simpa using h.1.2,h.2⟩
  intro parent hparent
  have hall := h.1.1.2
  rw [Option.mem_def.mp hparent] at hall
  simpa using hall

/-- The identifiers of a page come once. -/
theorem acyclic_ids {seenIds : List ObservationId} {seenOrders : List ℕ}
    {os : List TextObservation} (h : acyclic seenIds seenOrders os = true) :
    (os.map (·.observationId)).Nodup ∧ ∀ o ∈ os, o.observationId ∉ seenIds := by
  induction os generalizing seenIds seenOrders with
  | nil => simp
  | cons o os ih =>
    obtain ⟨_,hnew,hrest⟩ := acyclic_cons h
    obtain ⟨hnodup,hseen⟩ := ih hrest
    constructor
    · rw [List.map_cons, List.nodup_cons]
      refine ⟨?_,hnodup⟩
      intro hmem
      obtain ⟨x,hx,heq⟩ := List.mem_map.mp hmem
      exact hseen x hx (heq ▸ List.mem_cons_self)
    · intro x hx
      rcases List.mem_cons.mp hx with rfl | hx
      · exact hnew
      · exact fun hmem => hseen x hx (List.mem_cons_of_mem _ hmem)

/-- A parent comes before the last observation. -/
theorem acyclic_parents {seenIds : List ObservationId} {seenOrders : List ℕ}
    {os : List TextObservation} {last : TextObservation}
    (h : acyclic seenIds seenOrders (os++[last]) = true) :
    ∀ o ∈ os++[last], ∀ parent ∈ o.parentObservationId,
      parent ∈ seenIds ∨ parent ∈ os.map (·.observationId) := by
  induction os generalizing seenIds seenOrders with
  | nil =>
    intro o ho parent hparent
    rw [List.nil_append, List.mem_singleton] at ho
    subst o
    exact Or.inl ((acyclic_cons h).1 parent hparent)
  | cons first os ih =>
    obtain ⟨hparents,_,hrest⟩ := acyclic_cons h
    intro o ho parent hparent
    rcases List.mem_cons.mp ho with rfl | ho
    · exact Or.inl (hparents parent hparent)
    · rcases ih hrest o ho parent hparent with hseen | hearlier
      · rcases List.mem_cons.mp hseen with rfl | hseen
        · exact Or.inr List.mem_cons_self
        · exact Or.inl hseen
      · exact Or.inr (List.mem_cons_of_mem _ hearlier)

theorem page_acyclic (page : BuiltPage) : acyclic [] [] page.observations = true := by
  have h := page.valid
  rw [Bool.and_eq_true] at h
  exact h.2

/-- The last observation of a page is a leaf. -/
theorem leaves_ne_nil (page : BuiltPage) (h : page.observations ≠ []) : leaves page ≠ [] := by
  have hsplit : page.observations = page.observations.dropLast++[page.observations.getLast h] :=
    (List.dropLast_append_getLast h).symm
  have hacyclic := page_acyclic page
  rw [hsplit] at hacyclic
  have hids := (acyclic_ids hacyclic).1
  rw [List.map_append, List.map_singleton, List.nodup_append] at hids
  have hlast : page.observations.getLast h ∈ leaves page := by
    rw [leaves, List.mem_filter]
    refine ⟨List.getLast_mem h,?_⟩
    simp only [List.contains_eq_mem, Bool.not_eq_true', decide_eq_false_iff_not,
      List.mem_filterMap, not_exists, not_and]
    intro o ho hparent
    rw [hsplit] at ho
    rcases acyclic_parents hacyclic o ho _ hparent with hnil | hearlier
    · exact List.not_mem_nil hnil
    · exact hids.2.2 _ hearlier _ (List.mem_singleton_self _) rfl
  exact List.ne_nil_of_mem hlast

theorem leaves_nil (page : BuiltPage) : leaves page = [] ↔ page.observations = [] := by
  constructor
  · intro h
    by_contra hne
    exact leaves_ne_nil page hne h
  · intro h
    rw [leaves, h]
    rfl

theorem leaves_ids (page : BuiltPage) : ((leaves page).map (·.observationId)).Nodup :=
  (List.filter_sublist.map _).nodup (acyclic_ids (page_acyclic page)).1

/-! ### What the loops append -/

/-- The texts with a separator between them. -/
def joined (separator : String) : List String → String
  | [] => ""
  | [text] => text
  | text::texts => text++separator++joined separator texts

def pageText (page : BuiltPage) : String := joined "\n" ((leaves page).map (·.text))

def documentText (pages : List BuiltPage) : String :=
  joined "\n\n" ((pages.filter fun page => !page.observations.isEmpty).map pageText)

theorem joined_cons (separator text : String) {texts : List String} (h : texts ≠ []) :
    joined separator (text::texts) = text++separator++joined separator texts := by
  cases texts with
  | nil => exact absurd rfl h
  | cons _ _ => rfl

/-- Every character of a text is one of the joined text. -/
theorem mem_joined {separator text : String} {texts : List String} (h : text ∈ texts) :
    ∀ c ∈ text.toList, c ∈ (joined separator texts).toList := by
  induction texts with
  | nil => exact absurd h List.not_mem_nil
  | cons first texts ih =>
    intro c hc
    by_cases hnil : texts = []
    · subst hnil
      rw [List.mem_singleton] at h
      exact h ▸ hc
    · rw [joined_cons separator first hnil, String.toList_append, String.toList_append,
        List.mem_append, List.mem_append]
      rcases List.mem_cons.mp h with rfl | h
      · exact Or.inl (Or.inl hc)
      · exact Or.inr (ih h c hc)

theorem appendBounded_ok {output value text : String} (h : appendBounded output value = .ok text) :
    text = output++value := by
  rw [appendBounded] at h
  by_cases hlarge : maximumResultBytes < output.utf8ByteSize+value.utf8ByteSize
  · rw [if_pos hlarge] at h
    exact absurd h (by simp)
  · rw [if_neg hlarge, Except.ok.injEq] at h
    exact h.symm

theorem separate_ok {started : Prop} [Decidable started] {output separator text : String}
    (h : separate started output separator = .ok text) :
    text = output++(if started then separator else "") := by
  rw [separate] at h
  by_cases hstarted : started
  · rw [if_pos hstarted] at h ⊢
    exact appendBounded_ok h
  · rw [if_neg hstarted, Except.ok.injEq] at h
    rw [if_neg hstarted, String.append_empty, h]

theorem appendLeaves_ok {page : BuiltPage} {os : List TextObservation} {index : ℕ}
    {pass result : Pass} (h : appendLeaves page index os pass = .ok result) :
    result.text = pass.text++(if 0 < index ∧ os ≠ [] then "\n" else "")++joined "\n" (os.map (·.text)) ∧
      result.citations = pass.citations++os.map (cite page) ∧
      result.lowConfidence = (pass.lowConfidence || os.any lowConfidence) := by
  induction os generalizing index pass with
  | nil =>
    rw [appendLeaves, Except.ok.injEq] at h
    subst result
    simp [joined]
  | cons o os ih =>
    rw [appendLeaves] at h
    obtain ⟨text,htext,h⟩ := bind_ok.mp h
    obtain ⟨extended,hextended,h⟩ := bind_ok.mp h
    obtain ⟨hresult,hcitations,hlow⟩ := ih h
    have hbefore := separate_ok htext
    have hafter := appendBounded_ok hextended
    refine ⟨?_,?_,?_⟩
    · rw [hresult, hafter, hbefore, List.map_cons]
      by_cases hnil : os = []
      · simp [hnil, joined]
      · rw [joined_cons _ _ (by simpa using hnil)]
        simp [hnil, String.append_assoc]
    · rw [hcitations, List.map_cons, List.append_assoc]
      rfl
    · rw [hlow, List.any_cons, Bool.or_assoc]

/-- Two parts of a document, with a blank line between them when both are there. -/
def glued (a b : String) : String :=
  if a = "" then b else if b = "" then a else a++"\n\n"++b

theorem glued_assoc (a b c : String) : glued (glued a b) c = glued a (glued b c) := by
  by_cases ha : a = ""
  · simp [glued, ha]
  by_cases hb : b = ""
  · simp [glued, ha, hb]
  by_cases hc : c = ""
  · simp [glued, ha, hb, hc]
  · have hab : a++"\n\n"++b ≠ "" := by
      intro h
      rw [String.append_eq_empty_iff] at h
      exact hb h.2
    have hbc : b++"\n\n"++c ≠ "" := by
      intro h
      rw [String.append_eq_empty_iff] at h
      exact hc h.2
    simp only [glued, if_neg ha, if_neg hb, if_neg hc, if_neg hab, if_neg hbc]
    simp only [String.append_assoc]

/-- The text of an observation has a character which is no white space. -/
theorem text_visible (o : TextObservation) : ∃ c ∈ o.text.toList, isWhitespace c = false := by
  have hvalid := o.valid
  rw [DocumentPages.validObservation, Bool.and_eq_true, Bool.and_eq_true, Bool.not_eq_true',
    List.all_eq_false] at hvalid
  obtain ⟨c,hc,hspace⟩ := hvalid.1.1
  exact ⟨c,hc,by simpa using hspace⟩

theorem pageText_visible {page : BuiltPage} (h : page.observations ≠ []) :
    ∃ c ∈ (pageText page).toList, isWhitespace c = false := by
  obtain ⟨o,ho⟩ := List.exists_mem_of_ne_nil _ (leaves_ne_nil page h)
  obtain ⟨c,hc,hspace⟩ := text_visible o
  exact ⟨c,mem_joined (List.mem_map_of_mem ho) c hc,hspace⟩

theorem pageText_ne {page : BuiltPage} (h : page.observations ≠ []) : pageText page ≠ "" := by
  obtain ⟨c,hc,_⟩ := pageText_visible h
  intro hempty
  rw [hempty] at hc
  exact absurd hc (by simp)

/-- What a page adds to the text. -/
def pagePart (page : BuiltPage) : String := if page.observations = [] then "" else pageText page

theorem documentText_cons (page : BuiltPage) (pages : List BuiltPage) :
    documentText (page::pages) = glued (pagePart page) (documentText pages) := by
  by_cases hpage : page.observations = []
  · simp [documentText, pagePart, hpage, glued]
  · have hkept : (page::pages).filter (fun page => !page.observations.isEmpty) =
        page::pages.filter (fun page => !page.observations.isEmpty) := by
      rw [List.filter_cons_of_pos]
      simpa using hpage
    rw [documentText, hkept, List.map_cons, pagePart, if_neg hpage, documentText]
    by_cases hrest : (pages.filter fun page => !page.observations.isEmpty) = []
    · simp [hrest, joined, glued, pageText_ne hpage]
    · have hmap : (pages.filter fun page => !page.observations.isEmpty).map pageText ≠ [] := by
        simpa using hrest
      have hne : joined "\n\n" ((pages.filter fun page => !page.observations.isEmpty).map
          pageText) ≠ "" := by
        obtain ⟨other,hother⟩ := List.exists_mem_of_ne_nil _ hrest
        have hobservations : other.observations ≠ [] := by
          simpa using (List.mem_filter.mp hother).2
        obtain ⟨c,hc,_⟩ := pageText_visible hobservations
        intro hempty
        have hmem := @mem_joined "\n\n" _ _ (List.mem_map_of_mem hother) c hc
        rw [hempty] at hmem
        exact absurd hmem (by simp)
      rw [joined_cons _ _ hmap, glued, if_neg (pageText_ne hpage), if_neg hne]

def pageCitations (page : BuiltPage) : List Evidence := (leaves page).map (cite page)

theorem appendPage_ok {page : BuiltPage} {pass result : Pass}
    (h : appendPage page pass = .ok result) :
    result.text = glued pass.text (pagePart page) ∧
      result.citations = pass.citations++pageCitations page ∧
      result.lowConfidence = (pass.lowConfidence || (leaves page).any lowConfidence) := by
  rw [appendPage] at h
  by_cases hpage : page.observations = []
  · have hleaves := (leaves_nil page).mpr hpage
    rw [hleaves, List.isEmpty_nil, if_pos rfl, Except.ok.injEq] at h
    subst result
    simp [pagePart, hpage, pageCitations, hleaves, glued]
  · have hleaves := leaves_ne_nil page hpage
    rw [if_neg (by simpa using hleaves)] at h
    obtain ⟨text,htext,h⟩ := bind_ok.mp h
    obtain ⟨hresult,hcitations,hlow⟩ := appendLeaves_ok h
    refine ⟨?_,hcitations,hlow⟩
    rw [hresult, separate_ok htext, pagePart, if_neg hpage, glued, if_neg (pageText_ne hpage)]
    by_cases hempty : pass.text = ""
    · simp [hempty, pageText]
    · simp [hempty, pageText]

/-- The loop over the pages glues their parts and cites their leaves. -/
theorem appendPages_ok {pages : List BuiltPage} {pass result : Pass}
    (h : appendPages pages pass = .ok result) :
    result.text = glued pass.text (documentText pages) ∧
      result.citations = pass.citations++pages.flatMap pageCitations ∧
      result.lowConfidence =
        (pass.lowConfidence || pages.any fun page => (leaves page).any lowConfidence) := by
  induction pages generalizing pass with
  | nil =>
    rw [appendPages, Except.ok.injEq] at h
    subst result
    simp [documentText, joined, glued]
  | cons page pages ih =>
    rw [appendPages] at h
    obtain ⟨next,hnext,h⟩ := bind_ok.mp h
    obtain ⟨htext,hcitations,hlow⟩ := appendPage_ok hnext
    obtain ⟨hresult,hrest,hany⟩ := ih h
    refine ⟨?_,?_,?_⟩
    · rw [hresult, htext, glued_assoc, documentText_cons]
    · rw [hrest, hcitations, List.flatMap_cons, List.append_assoc]
    · rw [hany, hlow, List.any_cons, Bool.or_assoc]

/-- A document has no visible text exactly when no page has an observation. -/
theorem documentText_blank (pages : List BuiltPage) :
    isBlank (documentText pages) = true ↔ ∀ page ∈ pages, page.observations = [] := by
  constructor
  · intro hblank page hpage
    by_contra hobservations
    obtain ⟨c,hc,hspace⟩ := pageText_visible hobservations
    have hkept : page ∈ pages.filter fun page => !page.observations.isEmpty := by
      rw [List.mem_filter]
      exact ⟨hpage,by simpa using hobservations⟩
    have hmem := @mem_joined "\n\n" _ _ (List.mem_map_of_mem hkept) c hc
    rw [isBlank, List.all_eq_true] at hblank
    rw [hblank c hmem] at hspace
    exact absurd hspace (by simp)
  · intro hpages
    have hnone : (pages.filter fun page => !page.observations.isEmpty) = [] := by
      rw [List.filter_eq_nil_iff]
      intro page hpage
      simp [hpages page hpage]
    rw [documentText, hnone]
    rfl

/-! ### The assembled result -/

section Assembled
variable {V : Type} (extract : ExtractionSchema → List BuiltPage → ExtractedFields V)
  (formatF64 : Float → String) (formatValue : V → String) (documentId : DocumentId)
  (documentVersion : DocumentVersion) (schema : Option ExtractionSchema)

theorem liftDomain_ok {α : Type} {x : Except DocumentResults.Error α} {a : α} :
    liftDomain x = .ok a ↔ x = .ok a := by
  cases x with
  | ok value => simp [liftDomain]
  | error error => simp [liftDomain]

theorem assembleWithProvenance_ok {pages : List BuiltPage}
    {provenance : Option ProcessingProvenance} {result : DocumentResult V}
    (h : assembleWithProvenance extract formatF64 formatValue documentId documentVersion pages
      schema provenance = .ok result) :
    ∃ pass, appendPages (byNumber pages) ⟨"",[],false⟩ = .ok pass ∧
      Checked (assembledPayload extract (byNumber pages) schema provenance pass) ∧
      result = DocumentResult.ofPayload documentId documentVersion
        (assembledPayload extract (byNumber pages) schema provenance pass) := by
  rw [assembleWithProvenance] at h
  obtain ⟨pass,hpass,h⟩ := bind_ok.mp h
  obtain ⟨built,hbuilt,h⟩ := bind_ok.mp h
  have hnew := new_ok.mp (liftDomain_ok.mp hbuilt)
  by_cases hlarge : maximumResultBytes < (ResultJson.toVec formatF64 formatValue built).length
  · rw [if_pos hlarge] at h
    exact absurd h (by simp)
  · rw [if_neg hlarge, Except.ok.injEq] at h
    exact ⟨pass,hpass,hnew.1,h ▸ hnew.2⟩

/-- No failure of an extraction says that there is no text. -/
theorem noTextDetected_iff (pages : List BuiltPage) (provenance : Option ProcessingProvenance)
    (pass : Pass) :
    (∃ failure ∈ (assembledPayload extract pages schema provenance pass).validationFailures,
      failure.code = ocrNoTextDetected) ↔ isBlank pass.text = true := by
  constructor
  · rintro ⟨failure,hmem,hcode⟩
    rcases List.mem_append.mp hmem with hextracted | hreview
    · have hcodes := ExtractedFields.codes _ failure hextracted
      rw [hcode] at hcodes
      exact absurd hcodes (by decide)
    · by_contra hvisible
      simp only [reviewFailures, if_neg hvisible, List.append_nil, List.mem_append] at hreview
      have hother : ∀ (cond : Prop) [Decidable cond] (code : StableCode),
          code ≠ ocrNoTextDetected → failure ∉ (if cond then
            [(⟨code,.warning⟩ : ValidationFailure)] else []) := by
        intro cond _ code hne hin
        by_cases hcond : cond
        · rw [if_pos hcond, List.mem_singleton] at hin
          subst failure
          exact hne hcode
        · rw [if_neg hcond] at hin
          exact List.not_mem_nil hin
      rcases hreview with (hlegacy | hmanual) | hlow
      · exact hother _ legacyProcessingRequiresReview (by decide) hlegacy
      · exact hother _ ocrPageRequiresManualReview (by decide) hmanual
      · exact hother _ ocrLowConfidence (by decide) hlow
  · intro hblank
    refine ⟨⟨ocrNoTextDetected,.error⟩,List.mem_append_right _ ?_,rfl⟩
    rw [reviewFailures, if_pos hblank]
    exact List.mem_append_right _ (List.mem_singleton_self _)

/-- The citations of pages of different numbers name different observations. -/
theorem citations_nodup {pages : List BuiltPage} (h : (pages.map (·.page)).Nodup) :
    ((pages.flatMap pageCitations).map fun e => (e.page,e.observationId)).Nodup := by
  induction pages with
  | nil => simp
  | cons page pages ih =>
    rw [List.map_cons, List.nodup_cons] at h
    rw [List.flatMap_cons, List.map_append, List.nodup_append]
    have hpage : ∀ (p : BuiltPage), ∀ e ∈ pageCitations p, e.page = p.page := by
      intro p e he
      obtain ⟨o,_,rfl⟩ := List.mem_map.mp he
      rfl
    refine ⟨?_,ih h.2,?_⟩
    · have hids : (pageCitations page).map (fun e => (e.page,e.observationId)) =
          ((leaves page).map (·.observationId)).map fun id => (page.page,id) := by
        rw [pageCitations, List.map_map, List.map_map]
        rfl
      rw [hids]
      exact (leaves_ids page).map fun a b hab => (Prod.mk.inj hab).2
    · intro x hx y hy heq
      obtain ⟨e,he,rfl⟩ := List.mem_map.mp hx
      obtain ⟨f,hf,rfl⟩ := List.mem_map.mp hy
      obtain ⟨other,hother,hcited⟩ := List.mem_flatMap.mp hf
      have hsame := (Prod.mk.inj heq).1
      rw [hpage page e he, hpage other f hcited] at hsame
      exact h.1 (hsame ▸ List.mem_map_of_mem (f := fun p : BuiltPage => p.page) hother)

theorem provenance_perm {pages others : List BuiltPage} (hperm : others.Perm pages)
    (mode : Assembly) : mode.provenance others = mode.provenance pages := by
  have hids : (observationIds others).Perm (observationIds pages) := hperm.flatMap_right _
  cases mode with
  | document => rfl
  | legacy => rfl
  | native durationMs =>
    simp only [Assembly.provenance, nativeProfile, hids.any_eq]

/-- A text which is not empty is cited. -/
theorem pass_cited {pages : List BuiltPage} {pass : Pass}
    (h : appendPages pages ⟨"",[],false⟩ = .ok pass) (htext : pass.text ≠ "") :
    pass.citations ≠ [] := by
  obtain ⟨hglued,hcitations,_⟩ := appendPages_ok h
  intro hnone
  rw [hnone, List.nil_append] at hcitations
  have hempty : ∀ page ∈ pages, page.observations = [] := by
    intro page hpage
    have hleaves := List.flatMap_eq_nil_iff.mp hcitations.symm page hpage
    rw [pageCitations, List.map_eq_nil_iff] at hleaves
    exact (leaves_nil page).mp hleaves
  have hkept : (pages.filter fun page => !page.observations.isEmpty) = [] := by
    rw [List.filter_eq_nil_iff]
    intro page hpage
    simp [hempty page hpage]
  rw [documentText, hkept] at hglued
  exact htext hglued

theorem liftDomain_error {α : Type} {x : Except DocumentResults.Error α}
    {error : DocumentResults.Error} : liftDomain x = .error (.domain error) ↔ x = .error error := by
  cases x with
  | ok value => simp [liftDomain]
  | error other => simp [liftDomain]

theorem bind_error {ε α β : Type} {x : Except ε α} {f : α → Except ε β} {e : ε}
    (h : x >>= f = .error e) : x = .error e ∨ ∃ a, x = .ok a ∧ f a = .error e := by
  cases x with
  | error other =>
    have herror : (.error other : Except ε β) = .error e := h
    exact Or.inl (congrArg Except.error (Except.error.inj herror))
  | ok a => exact Or.inr ⟨a,rfl,h⟩

theorem appendBounded_error {output value : String} {error : ResultAssemblyError}
    (h : appendBounded output value = .error error) : error = .tooLarge := by
  rw [appendBounded] at h
  by_cases hlarge : maximumResultBytes < output.utf8ByteSize+value.utf8ByteSize
  · rw [if_pos hlarge, Except.error.injEq] at h
    exact h.symm
  · rw [if_neg hlarge] at h
    exact absurd h (by simp)

theorem separate_error {started : Prop} [Decidable started] {output separator : String}
    {error : ResultAssemblyError} (h : separate started output separator = .error error) :
    error = .tooLarge := by
  rw [separate] at h
  by_cases hstarted : started
  · rw [if_pos hstarted] at h
    exact appendBounded_error h
  · rw [if_neg hstarted] at h
    exact absurd h (by simp)

theorem appendLeaves_error {page : BuiltPage} {os : List TextObservation} {index : ℕ} {pass : Pass}
    {error : ResultAssemblyError} (h : appendLeaves page index os pass = .error error) :
    error = .tooLarge := by
  induction os generalizing index pass with
  | nil =>
    rw [appendLeaves] at h
    exact absurd h (by simp)
  | cons o os ih =>
    rw [appendLeaves] at h
    rcases bind_error h with hseparate | ⟨text,_,h⟩
    · exact separate_error hseparate
    rcases bind_error h with hbounded | ⟨extended,_,h⟩
    · exact appendBounded_error hbounded
    · exact ih h

/-- The loops fail only for a text above the limit. -/
theorem appendPages_error {pages : List BuiltPage} {pass : Pass} {error : ResultAssemblyError}
    (h : appendPages pages pass = .error error) : error = .tooLarge := by
  induction pages generalizing pass with
  | nil =>
    rw [appendPages] at h
    exact absurd h (by simp)
  | cons page pages ih =>
    rw [appendPages] at h
    rcases bind_error h with hpage | ⟨next,_,h⟩
    · rw [appendPage] at hpage
      by_cases hleaves : (leaves page).isEmpty = true
      · rw [if_pos hleaves] at hpage
        exact absurd hpage (by simp)
      rw [if_neg hleaves] at hpage
      rcases bind_error hpage with hseparate | ⟨text,_,hpage⟩
      · exact separate_error hseparate
      · exact appendLeaves_error hpage
    · exact ih h

theorem assembleWithProvenance_cites (pages : List BuiltPage)
    (provenance : Option ProcessingProvenance) :
    assembleWithProvenance extract formatF64 formatValue documentId documentVersion pages schema
      provenance ≠ .error (.domain .missingDocumentEvidence) := by
  intro h
  rw [assembleWithProvenance] at h
  rcases bind_error h with hpass | ⟨pass,hpass,h⟩
  · exact absurd (appendPages_error hpass) (by simp)
  rcases bind_error h with hnew | ⟨result,_,h⟩
  · obtain ⟨htext,hnone⟩ := new_missing (liftDomain_error.mp hnew)
    rcases htext with htext | hmarkdown
    · exact pass_cited hpass htext hnone
    · exact hmarkdown rfl
  · by_cases hlarge : maximumResultBytes < (ResultJson.toVec formatF64 formatValue result).length
    · rw [if_pos hlarge] at h
      exact absurd h (by simp)
    · rw [if_neg hlarge] at h
      exact absurd h (by simp)

theorem provenance_cites (mode : Assembly) (pages : List BuiltPage) :
    mode.provenance pages ≠ .error (.domain .missingDocumentEvidence) := by
  have hnew : ∀ provider model profile durationMs, liftDomain (ProcessingProvenance.new provider
      model profile durationMs) ≠ .error (.domain .missingDocumentEvidence) := by
    intro provider model profile durationMs h
    have herror := liftDomain_error.mp h
    rw [ProcessingProvenance.new] at herror
    split_ifs at herror
    exact absurd herror (by simp)
  intro h
  cases mode with
  | document => exact absurd h (by simp [Assembly.provenance])
  | native durationMs =>
    rcases bind_error h with h | ⟨_,_,h⟩
    · exact hnew _ _ _ _ h
    · exact absurd h (by simp)
  | legacy =>
    rcases bind_error h with h | ⟨_,_,h⟩
    · exact hnew _ _ _ _ h
    · exact absurd h (by simp)

/-- What an assembled result says of its pages. -/
theorem assembled_result {mode : Assembly} {pages : List BuiltPage} {result : DocumentResult V}
    (h : assemble extract formatF64 formatValue mode documentId documentVersion pages schema =
      .ok result) :
    result.pages = byNumber pages ∧ result.text = documentText (byNumber pages) ∧
      result.citations = (byNumber pages).flatMap pageCitations ∧
      ((∃ failure ∈ result.validationFailures, failure.code = ocrNoTextDetected) ↔
        ∀ page ∈ pages, page.observations = []) := by
  obtain ⟨provenance,_,h⟩ := bind_ok.mp h
  obtain ⟨pass,hpass,_,rfl⟩ :=
    assembleWithProvenance_ok extract formatF64 formatValue documentId documentVersion schema h
  obtain ⟨htext,hcitations,_⟩ := appendPages_ok hpass
  have hdocument : pass.text = documentText (byNumber pages) := htext
  refine ⟨byNumber_eq (byNumber_pairwise pages),hdocument,hcitations,?_⟩
  have hblank := documentText_blank (byNumber pages)
  rw [← hdocument] at hblank
  rw [← noTextDetected_iff extract schema (byNumber pages) provenance pass] at hblank
  refine hblank.trans ?_
  constructor
  · exact fun hall page hpage => hall page ((byNumber_perm pages).mem_iff.mpr hpage)
  · exact fun hall page hpage => hall page ((byNumber_perm pages).mem_iff.mp hpage)

/-- Pages of different numbers have one result in every order, with the text and the
citations of all leaves of all pages. -/
theorem assembly_complete (mode : Assembly) (pages : List BuiltPage)
    (hdistinct : (pages.map (·.page)).Nodup) :
    (∀ others : List BuiltPage, others.Perm pages →
      assemble extract formatF64 formatValue mode documentId documentVersion others schema =
        assemble extract formatF64 formatValue mode documentId documentVersion pages schema) ∧
    (∀ page ∈ pages, page.observations ≠ [] → leaves page ≠ []) ∧
    assemble extract formatF64 formatValue mode documentId documentVersion pages schema ≠
      .error (.domain .missingDocumentEvidence) ∧
    ∀ result, assemble extract formatF64 formatValue mode documentId documentVersion pages schema =
        .ok result →
      ∃ sorted : List BuiltPage, sorted.Perm pages ∧
        (sorted.Pairwise fun a b => a.page < b.page) ∧ result.pages = sorted ∧
        result.text = joined "\n\n" ((sorted.filter fun page => !page.observations.isEmpty).map
          fun page => joined "\n" ((leaves page).map (·.text))) ∧
        result.citations = sorted.flatMap (fun page => (leaves page).map (cite page)) ∧
        (result.citations.map fun e => (e.page,e.observationId)).Nodup ∧
        ((∃ failure ∈ result.validationFailures, failure.code = ocrNoTextDetected) ↔
          ∀ page ∈ pages, page.observations = []) := by
  refine ⟨?_,fun page _ => leaves_ne_nil page,?_,?_⟩
  · intro others hperm
    rw [assemble, assemble, provenance_perm hperm mode]
    simp only [assembleWithProvenance]
    rw [byNumber_congr hperm ((hperm.map _).nodup_iff.mpr hdistinct)]
  · intro h
    rcases bind_error h with hprovenance | ⟨provenance,_,h⟩
    · exact provenance_cites mode pages hprovenance
    · exact assembleWithProvenance_cites extract formatF64 formatValue documentId documentVersion
        schema pages provenance h
  · intro result h
    obtain ⟨hpages,htext,hcitations,hnone⟩ := assembled_result extract formatF64 formatValue
      documentId documentVersion schema h
    have hsorted : ((byNumber pages).map (·.page)).Nodup :=
      ((byNumber_perm pages).map _).nodup_iff.mpr hdistinct
    refine ⟨byNumber pages,byNumber_perm pages,?_,hpages,htext,hcitations,?_,hnone⟩
    · have hne := List.pairwise_map.mp hsorted
      exact (byNumber_pairwise pages).imp₂ (fun _ _ hle hdiffer => lt_of_le_of_ne hle hdiffer) hne
    · rw [hcitations]
      exact citations_nodup hsorted

end Assembled

/-! ### Two pages, the second one first -/

section TwoPages

def triangle : DocumentPages.Polygon :=
  ⟨[⟨0.0,0.0,by decide +kernel⟩,⟨1.0,0.0,by decide +kernel⟩,⟨1.0,1.0,by decide +kernel⟩],
    by decide +kernel⟩

def half : DocumentPages.Confidence := ⟨0.5,by decide +kernel⟩

def headingId : ObservationId := ⟨"obs_p1_heading",by decide⟩

def heading : TextObservation :=
  ⟨headingId,.paragraph,"Invoice 7",half,triangle,0,none,by decide⟩

/-- The heading is the parent of its line, which is a leaf. -/
def headingLine : TextObservation :=
  ⟨⟨"obs_p1_line",by decide⟩,.line,"Invoice 7",half,triangle,1,some headingId,by decide⟩

def total : TextObservation :=
  ⟨⟨"obs_p2_total",by decide⟩,.line,"Total 12",half,triangle,0,none,by decide⟩

def firstPage : BuiltPage :=
  ⟨⟨1,100,200,[heading,headingLine],by decide⟩,by decide,ordered_eq (by decide)⟩

def secondPage : BuiltPage := ⟨⟨2,100,200,[total],by decide⟩,by decide,ordered_eq (by decide)⟩

def decimal (x : Float) : String := if x == 0.0 then "0.0" else if x == 1.0 then "1.0" else "0.5"

theorem invoiceId_valid : Identifiers.validatedId "doc_invoice" "doc_" = true := by decide

def invoiceId : DocumentId := ⟨"doc_invoice",invoiceId_valid⟩

theorem invoiceVersion_valid : Identifiers.isCanonicalSha256
    "sha256:0000000000000000000000000000000000000000000000000000000000000000" = true := by
  decide

def invoiceVersion : DocumentVersion :=
  ⟨"sha256:0000000000000000000000000000000000000000000000000000000000000000",
    invoiceVersion_valid⟩

def noFields (_ : ExtractionSchema) (_ : List BuiltPage) : ExtractedFields String :=
  ExtractedFields.default

theorem two_pages_complete :
    assemble noFields decimal id .document invoiceId invoiceVersion [firstPage,secondPage] none =
      assemble noFields decimal id .document invoiceId invoiceVersion [secondPage,firstPage] none ∧
    leaves firstPage ≠ [] :=
  have h := assembly_complete noFields decimal id invoiceId invoiceVersion none .document
    [secondPage,firstPage] (by decide)
  ⟨h.1 [firstPage,secondPage] (List.Perm.swap _ _ _),
    h.2.1 firstPage (by simp) (List.cons_ne_nil _ _)⟩

end TwoPages

end DocumentIntelligence.ResultAssembly
