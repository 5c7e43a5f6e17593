import Mathlib
import RecordStore.Proofs.Numeric.Leading
import RecordStore.Proofs.Text.Validity
import RecordStore.Value.Compare

/-!
# Integers at the front of texts

A text stands in for an integer where a stored text is coerced to one, and
where a stored integer is compared with a text.  Both take the integer that the
text leads with, whatever the number of its digits, and differ only in what
they make of a text that leads with none, and of an integer that 32 bits do not
hold (`leading_integer_agrees`).
-/

namespace RecordStore

namespace StoredValue

/-- An integer that 32 bits hold. -/
def Fits (n : Int) : Prop :=
  -2 ^ 31 ≤ n ∧ n < 2 ^ 31

instance (n : Int) : Decidable (Fits n) :=
  inferInstanceAs (Decidable (_ ∧ _))

/-- An integer cut to 32 bits. -/
def clamped (n : Int) : Int :=
  max (-2 ^ 31) (min (2 ^ 31 - 1) n)

variable {t : String} {n : Int}

theorem contains_i32_iff : Literal.i32.contains n = true ↔ Fits n := by
  unfold Literal.Range.contains Literal.i32 Fits
  rw [Bool.and_eq_true, decide_eq_true_iff, decide_eq_true_iff]
  norm_num
  omega

theorem contains_i64_of_fits (h : Fits n) : Literal.i64.contains n = true := by
  obtain ⟨hlow, hhigh⟩ := h
  unfold Literal.Range.contains Literal.i64
  rw [Bool.and_eq_true, decide_eq_true_iff, decide_eq_true_iff]
  norm_num at hlow hhigh ⊢
  omega

/-- The difference of an integer of 32 bits from another is cut to nothing only if
there is none. -/
theorem clamped_eq_zero_iff : clamped n = 0 ↔ n = 0 := by
  unfold clamped
  norm_num
  omega

/-! ## Coercion -/

theorem int?_text_of_nothing (h : Leading.LeadsWith (Blank.trimStart t.toList) none) :
    (text (Utf8.encode t)).int? = none := by
  unfold int? Leading.chars?
  simp only [Utf8.decode?_encode, Option.map_some, Leading.leadsWith_none_iff.mp h]

theorem int?_text_of_number (h : Leading.LeadsWith (Blank.trimStart t.toList) (some n)) :
    (text (Utf8.encode t)).int? = if Fits n then some (Int32.ofInt n) else none := by
  obtain ⟨hne, rfl⟩ := Leading.leadsWith_some_iff.mp h
  obtain ⟨c, rest, hcons⟩ := List.exists_cons_of_ne_nil hne
  unfold int? Leading.chars?
  simp only [Utf8.decode?_encode, Option.map_some, hcons, contains_i32_iff]

/-! ## Comparison -/

theorem leadingLong?_of_nothing (h : Leading.LeadsWith (Blank.trimStart t.toList) none) :
    leadingLong? t = some 0 := by
  unfold leadingLong?
  simp only [Leading.leadsWith_none_iff.mp h]

theorem leadingLong?_of_number (h : Leading.LeadsWith (Blank.trimStart t.toList) (some n)) :
    leadingLong? t = if Literal.i64.contains n then some n else none := by
  obtain ⟨hne, rfl⟩ := Leading.leadsWith_some_iff.mp h
  obtain ⟨c, rest, hcons⟩ := List.exists_cons_of_ne_nil hne
  unfold leadingLong?
  simp only [hcons]

/-- **The wider of the two ranges does not matter**: an integer that it does not
hold is one that the narrower does not hold. -/
theorem compareInteger_of_number (h : Leading.LeadsWith (Blank.trimStart t.toList) (some n))
    (v : Int) : compareInteger v t = if Fits n then clamped (v - n) else -1 := by
  unfold compareInteger
  rw [leadingLong?_of_number h]
  by_cases hfits : Fits n
  · rw [if_pos (contains_i64_of_fits hfits), if_pos hfits]
    simp only [contains_i32_iff.mpr hfits, if_true]
    rfl
  · have hnarrow : ¬ Literal.i32.contains n = true := fun h => hfits (contains_i32_iff.mp h)
    rw [if_neg hfits]
    split
    · next m hm =>
        split at hm
        · rw [← Option.some.inj hm, if_neg hnarrow]
        · cases hm
    · rfl

theorem compareInteger_of_nothing (h : Leading.LeadsWith (Blank.trimStart t.toList) none)
    (v : Int) : compareInteger v t = clamped (v - 0) := by
  unfold compareInteger
  rw [leadingLong?_of_nothing h]
  rfl

/-- **Coercion and comparison take the same integer from a text.**  What a text
leads with, after blanks, is one integer without any bound, or none.

Coerced, the text is that integer if 32 bits hold it, and else the default, as it
is if there is none.  Compared with it, an integer of 32 bits comes to the
difference, cut to 32 bits, if they hold the integer of the text, and to -1
otherwise; where there is none, it is taken as zero.  So with an integer in range
the comparison is zero exactly if the coercion is what is compared. -/
theorem leading_integer_agrees (t : String) : ∃ number? : Option Int,
    (∀ other?, Leading.LeadsWith (Blank.trimStart t.toList) other? ↔ other? = number?) ∧
    ∀ v d : Int32,
      ((text (Utf8.encode t)).int?.getD d).toInt = (match number? with
        | some n => if Fits n then n else d.toInt
        | none => d.toInt) ∧
      (integer v).compareWith t = .ok (match number? with
        | some n => if Fits n then clamped (v.toInt - n) else -1
        | none => clamped (v.toInt - 0)) ∧
      ∀ n ∈ number?, Fits n →
        ((integer v).compareWith t = .ok 0 ↔ (text (Utf8.encode t)).int?.getD d = v) := by
  obtain ⟨number?, hnumber⟩ := Leading.exists_leadsWith (Blank.trimStart t.toList)
  have hleads := (hnumber number?).mpr rfl
  refine ⟨number?, hnumber, ?_⟩
  intro v d
  cases number? with
  | none =>
      refine ⟨?_, congrArg Except.ok (compareInteger_of_nothing hleads v.toInt), ?_⟩
      · rw [int?_text_of_nothing hleads]
        rfl
      · intro n hn
        cases hn
  | some n =>
      have hcoerced := int?_text_of_number hleads
      have hcompared := compareInteger_of_number hleads v.toInt
      refine ⟨?_, congrArg Except.ok hcompared, ?_⟩
      · rw [hcoerced]
        by_cases hfits : Fits n
        · simp only [if_pos hfits]
          exact Int32.toInt_ofInt_of_le hfits.1 hfits.2
        · simp only [if_neg hfits]
          rfl
      · intro m hm hfits
        obtain rfl := Option.some.inj hm
        rw [if_pos hfits] at hcoerced hcompared
        have hvalue := Int32.toInt_ofInt_of_le hfits.1 hfits.2
        calc (integer v).compareWith t = .ok 0
            ↔ clamped (v.toInt - n) = 0 := by
              rw [← hcompared]
              exact ⟨Except.ok.inj, congrArg Except.ok⟩
          _ ↔ v.toInt = (Int32.ofInt n).toInt := by
              rw [clamped_eq_zero_iff, Int.sub_eq_zero, hvalue]
          _ ↔ (text (Utf8.encode t)).int?.getD d = v := by
              rw [hcoerced, Option.getD_some, Int32.toInt_inj, eq_comm]

end StoredValue

end RecordStore
