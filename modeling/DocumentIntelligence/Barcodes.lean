import DocumentIntelligence.CheckDigits
import DocumentIntelligence.NutritionLabel

/-!
# Barcodes

A barcode is accepted with its check digit only. The weights three and one alternate from
the right and are prime to ten, so no misread digit goes unnoticed.
-/

set_option autoImplicit false

namespace DocumentIntelligence.Barcodes
open CheckDigits
open DocumentPages (isWhitespace)
open NutritionLabel (barcode checkDigit)

/-- The characters which are read of a text. -/
def visible (text : List Char) : List Char := text.filter fun c => !isWhitespace c

def digitValue (c : Char) : ℕ := c.toNat-48

/-- The weight of a position, counted from the right; the check digit has the first. -/
def weight (i : ℕ) : ℕ := if i%2 = 0 then 1 else 3

def RightChecksum (code : List Char) : Prop :=
  10 ∣ weighted weight (code.map digitValue).reverse

theorem digitValue_lt {c : Char} (h : c.isDigit = true) : digitValue c < 10 := by
  rw [Char.isDigit, Bool.and_eq_true, decide_eq_true_eq, decide_eq_true_eq] at h
  have hupper : c.toNat ≤ 57 := UInt32.le_iff_toNat_le.mp h.2
  rw [digitValue]
  omega

theorem digitValue_inj {c d : Char} (hc : c.isDigit = true) (hd : d.isDigit = true)
    (h : digitValue c = digitValue d) : c = d := by
  rw [Char.isDigit, Bool.and_eq_true, decide_eq_true_eq, decide_eq_true_eq] at hc hd
  have hclower : 48 ≤ c.toNat := UInt32.le_iff_toNat_le.mp hc.1
  have hdlower : 48 ≤ d.toNat := UInt32.le_iff_toNat_le.mp hd.1
  rw [digitValue, digitValue] at h
  apply Char.toNat_inj.mp
  omega

theorem weight_coprime (i : ℕ) : (weight i).Coprime 10 := by
  rw [weight]
  split <;> decide

/-- The sum of the source is that of the digits in front of the check digit. -/
theorem bodySum_eq (body : List ℕ) :
    (body.reverse.zipIdx.map fun (digit,i) => if i%2 = 0 then digit*3 else digit).sum =
      weightedFrom weight 1 body.reverse := by
  rw [weightedFrom_succ, weightedFrom]
  congr 1
  apply List.map_congr_left
  intro x _
  obtain ⟨digit,i⟩ := x
  dsimp only
  rw [weight]
  by_cases h : i%2 = 0
  · rw [if_pos h, if_neg (by omega), Nat.mul_comm]
  · rw [if_neg h, if_pos (by omega), Nat.one_mul]

theorem checkDigit_iff {code : List Char} (hne : code ≠ [])
    (hdigits : code.all Char.isDigit = true) : checkDigit code = true ↔ RightChecksum code := by
  obtain ⟨body,check,rfl⟩ := List.eq_nil_or_concat' code |>.resolve_left hne
  have hcheck : digitValue check < 10 := by
    apply digitValue_lt
    exact List.all_eq_true.mp hdigits check (List.mem_append_right body List.mem_cons_self)
  have hvalues : (body++[check]).map (fun c => c.toNat-48) =
      body.map digitValue++[digitValue check] := List.map_append
  have hweighted : weighted weight ((body++[check]).map digitValue).reverse =
      digitValue check+weightedFrom weight 1 (body.map digitValue).reverse := by
    rw [List.map_append, List.reverse_append, weighted]
    exact (weightedFrom_cons 0 (digitValue check) _).trans (congrArg (·+_) (Nat.one_mul _))
  rw [checkDigit, hvalues, List.dropLast_concat, List.getLast?_concat, bodySum_eq, beq_iff_eq,
    Option.some.injEq, RightChecksum, hweighted]
  omega

/-- A text of so many digits. -/
structure Digits (text : List Char) : Prop where
  length : (visible text).length ∈ [8,12,13]
  all : (visible text).all Char.isDigit = true

theorem Digits.ne_nil {text : List Char} (h : Digits text) : visible text ≠ [] := by
  intro hnil
  have hlength := h.length
  rw [hnil] at hlength
  revert hlength
  decide

/-- What is accepted, and as what it is read. -/
theorem barcode_some {text code : List Char} :
    barcode text = some code ↔
      Digits text ∧ RightChecksum (visible text) ∧ code = visible text := by
  have hunfold : barcode text = if (visible text).length ∈ [8,12,13] ∧
      (visible text).all Char.isDigit = true ∧ checkDigit (visible text) = true then
        some (visible text) else none := rfl
  rw [hunfold]
  constructor
  · intro h
    split at h
    · rename_i hchecks
      have hdigits : Digits text := ⟨hchecks.1,hchecks.2.1⟩
      exact ⟨hdigits,(checkDigit_iff hdigits.ne_nil hdigits.all).mp hchecks.2.2,
        (Option.some.inj h).symm⟩
    · cases h
  · intro h
    have hcheck := (checkDigit_iff h.1.ne_nil h.1.all).mpr h.2.1
    rw [if_pos ⟨h.1.length,h.1.all,hcheck⟩, h.2.2]

/-- At most one digit in a place goes with the other digits of a code. -/
theorem rightChecksum_replace {before after : List Char} {c d : Char} (hc : c.isDigit = true)
    (hd : d.isDigit = true) (h : RightChecksum (before++c::after))
    (h' : RightChecksum (before++d::after)) : c = d := by
  rw [RightChecksum, List.map_append, List.map_cons, List.reverse_append, List.reverse_cons,
    List.append_assoc, List.singleton_append] at h h'
  apply digitValue_inj hc hd
  have hsums := (Nat.modEq_zero_iff_dvd.mpr h).trans (Nat.modEq_zero_iff_dvd.mpr h').symm
  exact weighted_replace (weight_coprime _) (digitValue_lt hc) (digitValue_lt hd) hsums

/-- A barcode is accepted exactly with the right checksum, and then every other digit in any
one place makes it one that is not accepted. -/
theorem barcode_detects :
    (∀ text, Digits text → (barcode text = some (visible text) ↔ RightChecksum (visible text)) ∧
      (barcode text = none ↔ ¬RightChecksum (visible text))) ∧
    (∀ text code, barcode text = some code → ∀ before after d c, code = before++d::after →
      c.isDigit = true → c ≠ d → ∀ misread, visible misread = before++c::after →
        barcode misread = none) := by
  constructor
  · intro text h
    have haccepted : barcode text = some (visible text) ↔ RightChecksum (visible text) := by
      rw [barcode_some]
      exact ⟨fun hcode => hcode.2.1,fun hright => ⟨h,hright,rfl⟩⟩
    refine ⟨haccepted,?_⟩
    rw [← haccepted]
    constructor
    · intro hnone
      rw [hnone]
      exact nofun
    · intro hnot
      cases hcode : barcode text with
      | none => rfl
      | some code =>
        obtain ⟨_,_,heq⟩ := barcode_some.mp hcode
        exact absurd (heq ▸ hcode) hnot
  · intro text code hcode before after d c hsplit hc hne misread hmisread
    obtain ⟨hdigits,hright,heq⟩ := barcode_some.mp hcode
    rw [← heq, hsplit] at hright
    have hd : d.isDigit = true := by
      have hall := hdigits.all
      rw [← heq, hsplit] at hall
      exact List.all_eq_true.mp hall d (List.mem_append_right before List.mem_cons_self)
    cases hread : barcode misread with
    | none => rfl
    | some read =>
      obtain ⟨_,hwrong,_⟩ := barcode_some.mp hread
      rw [hmisread] at hwrong
      exact absurd (rightChecksum_replace hc hd hwrong hright) hne

/-- The first digit of a printed code is read as another one. -/
theorem first_misread :
    (barcode "9300605 000117".toList = some "9300605000117".toList ↔
      RightChecksum "9300605000117".toList) ∧ barcode "8300605000117".toList = none :=
  ⟨(barcode_detects.1 "9300605 000117".toList ⟨by decide,by decide⟩).1,
    barcode_detects.2 "9300605 000117".toList "9300605000117".toList (by decide) []
      "300605000117".toList '9' '8' (by decide) (by decide) (by decide) "8300605000117".toList
      (by decide)⟩

end DocumentIntelligence.Barcodes
