import Mathlib
import RecordStore.Proofs.Text.Encoding
import RecordStore.Value.Compare

/-!
# Integers written and read back

An integer is written as a sign, if it is below zero, and its digits.  Read
from the front of that text, it is the number found there: the text begins with
no blank, all of it has the form of an integer, and no digit is lost.
-/

namespace RecordStore

namespace Decimal

/-- The characters of an integer in decimal. -/
def characters (value : Int) : List Char :=
  (if value < 0 then ['-'] else []) ++ Nat.toDigits 10 value.natAbs

theorem map_digitChar_digits (n : Nat) : (digits n).map Nat.digitChar = Nat.toDigits 10 n := by
  fun_induction digits n with
  | case1 n h => rw [Nat.toDigits_of_lt_base h, List.map_singleton]
  | case2 n h ih =>
      rw [List.map_append, ih, List.map_singleton,
        ← Nat.toDigits_of_base_le (by decide) (Nat.le_of_not_lt h)]

theorem text_eq (n : Nat) :
    text n = (Nat.toDigits 10 n).map fun c => UInt8.ofNat c.toNat := by
  rw [text, ← map_digitChar_digits, List.map_map]
  apply List.map_congr_left
  intro d hd
  rw [Function.comp_apply, Nat.toNat_digitChar_of_lt_ten (lt_ten_of_mem_digits hd), digitByte]

theorem isDigit_of_mem_toDigits {n : Nat} : ∀ c ∈ Nat.toDigits 10 n, c.isDigit = true :=
  fun _ h => Nat.isDigit_of_mem_toDigits (by decide) (by decide) h

theorem toNat_of_isDigit {c : Char} (h : c.isDigit = true) : 48 ≤ c.toNat ∧ c.toNat ≤ 57 := by
  rw [Char.isDigit, Bool.and_eq_true, decide_eq_true_iff, decide_eq_true_iff] at h
  exact h

theorem ascii_characters (value : Int) : ∀ c ∈ characters value, c.toNat < 128 := by
  intro c hc
  rcases List.mem_append.mp hc with hsign | hdigit
  · split at hsign
    · rw [List.mem_singleton.mp hsign]
      decide
    · cases hsign
  · have := toNat_of_isDigit (isDigit_of_mem_toDigits c hdigit)
    omega

theorem ofList_characters (value : Int) :
    String.ofList (characters value) = toString value := by
  unfold characters
  cases value with
  | ofNat n =>
      rw [if_neg (by simp)]
      rfl
  | negSucc n =>
      rw [if_pos (Int.negSucc_lt_zero n), String.ofList_append]
      rfl

/-- The pieces of an integer spell its characters. -/
theorem textOf_pieces (value : Int) :
    Piece.textOf (pieces value) = (characters value).map fun c => UInt8.ofNat c.toNat := by
  rw [pieces, characters, List.map_append, ← text_eq, Piece.textOf, List.flatMap_append,
    List.flatMap_singleton]
  split
  · rfl
  · rfl

end Decimal

/-! ## Reading -/

namespace Decimal

theorem not_isBlank_of_isDigit {c : Char} (h : c.isDigit = true) : Blank.isBlank c = false := by
  have hrange := toNat_of_isDigit h
  rw [Blank.isBlank, List.any_eq_false]
  intro range hrange'
  simp only [Blank.ranges, List.mem_cons, List.not_mem_nil, or_false] at hrange'
  rcases hrange' with rfl | rfl | rfl | rfl | rfl | rfl | rfl | rfl | rfl | rfl <;>
    simp only [Bool.and_eq_true, decide_eq_true_eq] <;> omega

theorem sign_of_isDigit {c : Char} {rest : List Char} (h : c.isDigit = true) :
    Leading.sign (c :: rest) = ([], c :: rest) := by
  unfold Leading.sign
  split
  · rename_i heq
    cases heq
    cases h
  · rename_i heq
    cases heq
    cases h
  · rfl

/-- The digits of a number begin with one. -/
theorem exists_toDigits_cons (n : Nat) :
    ∃ c rest, Nat.toDigits 10 n = c :: rest ∧ c.isDigit = true := by
  obtain ⟨c, rest, hdigits⟩ := List.exists_cons_of_ne_nil (Nat.toDigits_ne_nil (n := n) (b := 10))
  refine ⟨c, rest, hdigits, ?_⟩
  exact isDigit_of_mem_toDigits c (by rw [hdigits]; exact List.mem_cons_self)

/-- The sign of an integer, and its digits. -/
theorem sign_characters (value : Int) : Leading.sign (characters value) =
    (if value < 0 then ['-'] else [], Nat.toDigits 10 value.natAbs) := by
  unfold characters
  split
  · rfl
  · obtain ⟨c, rest, hdigits, hdigit⟩ := exists_toDigits_cons value.natAbs
    rw [List.nil_append, hdigits]
    exact sign_of_isDigit hdigit

theorem trimStart_characters (value : Int) :
    Blank.trimStart (characters value) = characters value := by
  unfold characters
  split
  · exact Blank.trimStart_of_head rfl
  · obtain ⟨c, rest, hdigits, hdigit⟩ := exists_toDigits_cons value.natAbs
    rw [List.nil_append, hdigits]
    exact Blank.trimStart_of_head (not_isBlank_of_isDigit hdigit)

/-- All of the text of an integer has the form of one. -/
theorem integer_characters (value : Int) :
    Leading.integer (characters value) = characters value := by
  rw [Leading.integer, sign_characters]
  have hall : (Nat.toDigits 10 value.natAbs).takeWhile Char.isDigit =
      Nat.toDigits 10 value.natAbs :=
    List.takeWhile_eq_self_iff.mpr isDigit_of_mem_toDigits
  show (if (Nat.toDigits 10 value.natAbs).takeWhile Char.isDigit = [] then [] else _) = _
  rw [hall, if_neg Nat.toDigits_ne_nil]
  rfl

/-- **An integer written and read is the integer.** -/
theorem signed_characters (value : Int) : Literal.signed (characters value) = value := by
  have hdigits : Literal.natural (Nat.toDigits 10 value.natAbs) = value.natAbs :=
    Nat.ofDigitChars_ten_toDigits
  rw [Literal.signed, sign_characters]
  by_cases hneg : value < 0
  · rw [if_pos hneg]
    show -(Literal.natural (Nat.toDigits 10 value.natAbs) : Int) = value
    rw [hdigits]
    omega
  · rw [if_neg hneg]
    show (Literal.natural (Nat.toDigits 10 value.natAbs) : Int) = value
    rw [hdigits]
    omega

end Decimal

theorem StoredValue.leadingLong?_characters {value : Int}
    (h : Literal.i64.contains value = true) :
    leadingLong? (String.ofList (Decimal.characters value)) = some value := by
  rw [leadingLong?, String.toList_ofList, Decimal.trimStart_characters,
    Decimal.integer_characters]
  split
  · rename_i hnone
    exact absurd (List.append_eq_nil_iff.mp hnone).2 Nat.toDigits_ne_nil
  · simp only [Decimal.signed_characters]
    rw [if_pos h]

end RecordStore
