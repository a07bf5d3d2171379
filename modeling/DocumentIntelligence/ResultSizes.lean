import DocumentIntelligence.ResultAssembly

/-!
# Sizes of document results

The text of a result is that of its pages, its citations and the rest of it. The assembly of
distinct pages has one outcome: the result of the pages, or the refusal of a result whose
text is above the limit.
-/

set_option autoImplicit false

namespace DocumentIntelligence.ResultSizes
open Identifiers (DocumentId DocumentVersion)
open DocumentPages (TextObservation)
open DocumentResults ResultAssembly

/-! ### The loops over the pages -/

theorem appendBounded_fits {output value : String}
    (h : output.utf8ByteSize+value.utf8ByteSize ≤ maximumResultBytes) :
    appendBounded output value = .ok (output++value) := by
  rw [appendBounded, if_neg (Nat.not_lt.mpr h)]

theorem separate_fits {started : Prop} [Decidable started] {output separator : String}
    (h : (output++(if started then separator else "")).utf8ByteSize ≤ maximumResultBytes) :
    separate started output separator = .ok (output++(if started then separator else "")) := by
  rw [separate]
  by_cases hstarted : started
  · rw [if_pos hstarted] at h
    rw [if_pos hstarted, if_pos hstarted]
    exact appendBounded_fits (by rwa [String.utf8ByteSize_append] at h)
  · rw [if_neg hstarted, if_neg hstarted, String.append_empty]

theorem appendLeaves_fits {page : BuiltPage} {os : List TextObservation} {index : ℕ} {pass : Pass}
    (h : (pass.text++(if 0 < index ∧ os ≠ [] then "\n" else "")++
      joined "\n" (os.map (·.text))).utf8ByteSize ≤ maximumResultBytes) :
    ∃ result, appendLeaves page index os pass = .ok result := by
  induction os generalizing index pass with
  | nil => exact ⟨pass,rfl⟩
  | cons o os ih =>
    have hstarted : (if 0 < index ∧ o::os ≠ [] then "\n" else "") =
        if 0 < index then "\n" else "" := by simp
    have hrest : joined "\n" ((o::os).map (·.text)) =
        o.text++((if 0 < index+1 ∧ os ≠ [] then "\n" else "")++joined "\n" (os.map (·.text))) := by
      by_cases hnil : os = []
      · simp [hnil, joined]
      · rw [List.map_cons, joined_cons _ _ (by simpa using hnil)]
        simp [hnil, String.append_assoc]
    rw [hstarted, hrest, ← String.append_assoc] at h
    have hbefore : (pass.text++(if 0 < index then "\n" else "")).utf8ByteSize+
        o.text.utf8ByteSize ≤ maximumResultBytes := by
      rw [String.utf8ByteSize_append, String.utf8ByteSize_append] at h
      omega
    have hseparate := @separate_fits (0 < index) _ pass.text "\n" (by omega)
    have happend := appendBounded_fits hbefore
    rw [← String.append_assoc] at h
    obtain ⟨result,hresult⟩ := @ih (index+1) ⟨pass.text++(if 0 < index then "\n" else "")++o.text,
      pass.citations++[cite page o],pass.lowConfidence || lowConfidence o⟩ h
    refine ⟨result,?_⟩
    rw [appendLeaves, hseparate, Table.ok_bind, happend, Table.ok_bind]
    exact hresult

theorem size_glued (a b : String) : a.utf8ByteSize ≤ (glued a b).utf8ByteSize := by
  rw [glued]
  split_ifs with ha hb
  · rw [ha]
    exact Nat.zero_le _
  · exact le_refl _
  · rw [String.utf8ByteSize_append, String.utf8ByteSize_append]
    omega

theorem appendPage_fits {page : BuiltPage} {pass : Pass}
    (h : (glued pass.text (pagePart page)).utf8ByteSize ≤ maximumResultBytes) :
    ∃ result, appendPage page pass = .ok result := by
  rw [appendPage]
  by_cases hpage : page.observations = []
  · rw [(leaves_nil page).mpr hpage]
    exact ⟨pass,rfl⟩
  · have hleaves := leaves_ne_nil page hpage
    rw [if_neg (by simpa using hleaves)]
    have htext : glued pass.text (pagePart page) =
        pass.text++(if pass.text ≠ "" then "\n\n" else "")++pageText page := by
      rw [pagePart, if_neg hpage, glued, if_neg (pageText_ne hpage)]
      by_cases hempty : pass.text = ""
      · simp [hempty]
      · simp [hempty]
    rw [htext] at h
    have hbefore := h
    rw [String.utf8ByteSize_append] at hbefore
    have hseparate := @separate_fits (pass.text ≠ "") _ pass.text "\n\n" (by omega)
    rw [hseparate, Table.ok_bind]
    refine appendLeaves_fits ?_
    simpa [pageText] using h

/-- The loops end where the text of the document is within the limit. -/
theorem appendPages_fits {pages : List BuiltPage} {pass : Pass}
    (h : (glued pass.text (documentText pages)).utf8ByteSize ≤ maximumResultBytes) :
    ∃ result, appendPages pages pass = .ok result := by
  induction pages generalizing pass with
  | nil => exact ⟨pass,rfl⟩
  | cons page pages ih =>
    rw [documentText_cons, ← glued_assoc] at h
    obtain ⟨next,hnext⟩ := appendPage_fits (le_trans (size_glued _ _) h)
    rw [← (appendPage_ok hnext).1] at h
    obtain ⟨result,hresult⟩ := ih h
    exact ⟨result,by rw [appendPages, hnext, Table.ok_bind, hresult]⟩

/-- What the loops make of the pages. -/
def fullPass (pages : List BuiltPage) : Pass :=
  ⟨documentText pages,pages.flatMap pageCitations,
    pages.any fun page => (leaves page).any lowConfidence⟩

theorem appendPages_full {pages : List BuiltPage} {pass : Pass}
    (h : appendPages pages ⟨"",[],false⟩ = .ok pass) : pass = fullPass pages := by
  obtain ⟨htext,hcitations,hlow⟩ := appendPages_ok h
  obtain ⟨text,citations,low⟩ := pass
  rw [fullPass, Pass.mk.injEq]
  exact ⟨htext,hcitations,hlow⟩

/-! ### The result of the pages -/

section Results
variable {V : Type} (extract : ExtractionSchema → List BuiltPage → ExtractedFields V)
  (formatF64 : Float → String) (formatValue : V → String) (documentId : DocumentId)
  (documentVersion : DocumentVersion) (schema : Option ExtractionSchema)
  (provenance : Option ProcessingProvenance) (pages : List BuiltPage)

/-- The result of pages in their order. -/
def documentResult : DocumentResult V :=
  DocumentResult.ofPayload documentId documentVersion
    (assembledPayload extract pages schema provenance (fullPass pages))

/-- The result without its text, its pages and its citations. -/
def frame : DocumentResult V :=
  { documentResult extract documentId documentVersion schema provenance pages with
    text := ""
    pages := []
    citations := [] }

/-- The bytes between the brackets of an array. -/
def itemBytes (items : List ℕ) : ℕ := items.sum+(items.length-1)

/-- The bytes of the text, the pages, the citations and the rest. -/
def resultBytes : ℕ :=
  (ResultJson.toVec formatF64 formatValue
    (frame extract documentId documentVersion schema provenance pages)).length+
  ((Json.string (documentText pages)).utf8ByteSize-2)+
  itemBytes (pages.map fun page => (DocumentPages.toVec formatF64 page.toDocumentPage).length)+
  itemBytes ((pages.flatMap pageCitations).map fun e =>
    ((ResultJson.writeEvidence e : JsonTree.Node V).render formatF64 formatValue).utf8ByteSize)

theorem toVec_length (r : DocumentResult V) : (ResultJson.toVec formatF64 formatValue r).length =
    ((ResultJson.writeResult r).render formatF64 formatValue).utf8ByteSize := by
  rw [ResultJson.toVec, Array.length_toList]
  rfl

variable (hsorted : pages.Pairwise fun a b => a.page ≤ b.page)
include hsorted

theorem documentResult_size :
    (ResultJson.toVec formatF64 formatValue
      (documentResult extract documentId documentVersion schema provenance pages)).length =
      resultBytes extract formatF64 formatValue documentId documentVersion schema provenance
        pages := by
  have hpages : byNumber pages = pages := byNumber_eq hsorted
  have htext := Json.size_string (documentText pages)
  have hempty : (Json.string "").utf8ByteSize = 2 := rfl
  rw [resultBytes, toVec_length, toVec_length]
  simp only [ResultJson.writeResult, JsonTree.Node.render, JsonTree.renderMembers,
    JsonTree.renderItems_map, JsonTree.renderItems, Json.size_object, Json.size_member, Json.size_array, List.map_cons, List.map_nil,
    List.sum_cons, List.length_cons, frame, documentResult, DocumentResult.ofPayload,
    assembledPayload, fullPass, hpages, ResultJson.render_page, List.map_map, itemBytes,
    List.length_map, Function.comp_def, DocumentPages.toVec_length, hempty]
  simp
  omega

omit hsorted in
/-- A result within the limit has a text within the limit. -/
theorem documentText_size (h : resultBytes extract formatF64 formatValue documentId
    documentVersion schema provenance pages ≤ maximumResultBytes) :
    (documentText pages).utf8ByteSize ≤ maximumResultBytes := by
  have htext := Json.size_string (documentText pages)
  rw [resultBytes] at h
  omega

end Results

/-! ### The outcome of the assembly -/

section Outcome
variable {V : Type} (extract : ExtractionSchema → List BuiltPage → ExtractedFields V)
  (formatF64 : Float → String) (formatValue : V → String) (documentId : DocumentId)
  (documentVersion : DocumentVersion) (schema : Option ExtractionSchema)
  (provenance : Option ProcessingProvenance) {pages : List BuiltPage}
  (hnames : ∀ schema pages, ∀ entry ∈ (extract schema pages).fields.entries,
    entry.1 ≠ "" ∧ entry.1.utf8ByteSize ≤ 128)
  (hcount : pages.length ≤ maximumPageCount) (hdistinct : (pages.map (·.page)).Nodup)
include hnames hcount hdistinct

theorem documentResult_checked {pass : Pass}
    (hpass : appendPages (byNumber pages) ⟨"",[],false⟩ = .ok pass) :
    Checked (assembledPayload extract (byNumber pages) schema provenance pass) where
  cited := by
    rintro (htext | hmarkdown)
    · exact pass_cited hpass htext
    · exact absurd rfl hmarkdown
  named := by
    intro entry hentry
    cases schema with
    | none => exact absurd hentry List.not_mem_nil
    | some schema => exact hnames schema (byNumber pages) entry hentry
  counted := by
    rw [← (byNumber_perm pages).length_eq] at hcount
    exact hcount
  distinct := by
    have hsorted : byNumber (byNumber pages) = byNumber pages :=
      byNumber_eq (byNumber_pairwise pages)
    have hnumbers : ((byNumber pages).map (·.page)).Nodup :=
      ((byNumber_perm pages).map _).nodup_iff.mpr hdistinct
    show adjacentEqual (byNumber (byNumber pages)) = false
    rw [hsorted]
    exact (adjacentEqual_iff (byNumber_pairwise pages)).mpr hnumbers

/-- Distinct pages have a result, unless it is too large. -/
theorem assembleWithProvenance_outcome :
    assembleWithProvenance extract formatF64 formatValue documentId documentVersion pages schema
      provenance =
    if resultBytes extract formatF64 formatValue documentId documentVersion schema provenance
        (byNumber pages) ≤ maximumResultBytes then
      .ok (documentResult extract documentId documentVersion schema provenance (byNumber pages))
    else .error .tooLarge := by
  have hsize := documentResult_size extract formatF64 formatValue documentId documentVersion schema
    provenance (byNumber pages) (byNumber_pairwise pages)
  rw [assembleWithProvenance]
  cases hpass : appendPages (byNumber pages) ⟨"",[],false⟩ with
  | error e =>
    rw [Table.error_bind, appendPages_error hpass, if_neg]
    intro hfits
    have htext := documentText_size extract formatF64 formatValue documentId documentVersion schema
      provenance (byNumber pages) hfits
    obtain ⟨result,hresult⟩ := @appendPages_fits (byNumber pages) ⟨"",[],false⟩ htext
    rw [hpass] at hresult
    cases hresult
  | ok pass =>
    have hchecked := documentResult_checked extract schema provenance hnames hcount hdistinct hpass
    have hfull := appendPages_full hpass
    have hnew : DocumentResult.new documentId documentVersion
        (assembledPayload extract (byNumber pages) schema provenance pass) = .ok _ :=
      new_ok.mpr ⟨hchecked,rfl⟩
    rw [Table.ok_bind, liftDomain_ok.mpr hnew, Table.ok_bind, hfull]
    have hresult : DocumentResult.ofPayload documentId documentVersion (assembledPayload extract
        (byNumber pages) schema provenance (fullPass (byNumber pages))) =
        documentResult extract documentId documentVersion schema provenance (byNumber pages) := rfl
    rw [hresult, hsize]
    by_cases hfits : resultBytes extract formatF64 formatValue documentId documentVersion schema
        provenance (byNumber pages) ≤ maximumResultBytes
    · rw [if_pos hfits, if_neg (Nat.not_lt.mpr hfits)]
    · rw [if_neg hfits, if_pos (Nat.lt_of_not_le hfits)]

end Outcome

end DocumentIntelligence.ResultSizes
