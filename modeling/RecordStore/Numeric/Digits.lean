import RecordStore.Text.Builder

/-!
# Decimal digits

Numbers written in decimal, with no leading zero but that of zero itself.

`digits_head_ne_zero` — a number begins with a zero only if it is `0`.
-/

namespace RecordStore.Decimal

/-- The character of a digit. -/
def digitByte (digit : Nat) : UInt8 :=
  UInt8.ofNat (48 + digit)

/-- The digits of a number, the most significant first. -/
def digits (n : Nat) : List Nat :=
  if n < 10 then [n] else digits (n / 10) ++ [n % 10]
  termination_by n
  decreasing_by omega

/-- A number in decimal. -/
def text (n : Nat) : Bytes :=
  (digits n).map digitByte

/-- An integer in decimal: a sign if it is below zero, and the run of its
digits. -/
def pieces (value : Int) : List Piece :=
  (if value < 0 then [Piece.sign '-'] else []) ++ [Piece.run (text value.natAbs)]

/-- Every digit is below ten. -/
theorem lt_ten_of_mem_digits {n d : Nat} (h : d ∈ digits n) : d < 10 := by
  fun_induction digits n with
  | case1 n hn => simp_all
  | case2 n hn ih =>
    rcases List.mem_append.1 h with h | h
    · exact ih h
    · simp at h
      omega

/-- The text of a number is never empty. -/
theorem length_digits_pos (n : Nat) : 0 < (digits n).length := by
  fun_induction digits n <;> simp

/-- The first digit is zero for zero alone. -/
theorem digits_head_ne_zero {n : Nat} (h : n ≠ 0) :
    (digits n).head? ≠ some 0 := by
  fun_induction digits n with
  | case1 n hn => simpa using h
  | case2 n hn ih =>
    have pos := length_digits_pos (n / 10)
    cases hd : digits (n / 10) with
    | nil => simp [hd] at pos
    | cons d rest =>
      rw [hd] at ih
      simpa using ih (by omega)

end RecordStore.Decimal
