/-!
# Spreading keys over shards

A 32 bit address is mixed so that neighbouring addresses fall into different
shards: three times its high bits are folded into its low ones, with a
multiplication by an odd number after each of the first two.

Every step can be undone.  A bit of a folded word is a bit of the word, changed
by one further up, so the bits come back from the highest down
(`foldBits_injective`); and each factor has an inverse among the words
(`mul_right_injective`).  So no two addresses are mixed to the same number
(`mix_injective`).
-/

namespace RecordStore.Cache

/-- Folds the bits above `shift` into those below. -/
def foldBits (shift x : UInt32) : UInt32 :=
  x ^^^ (x >>> shift)

/-- Mixes the bits of an address. -/
def mix (address : UInt32) : UInt32 :=
  foldBits 16 (foldBits 13 (foldBits 16 address * 0x85EBCA6B) * 0xC2B2AE35)

section

variable {shift x y : UInt32}

/-- A bit of a folded word is that of the word, changed by the one `shift`
further up. -/
theorem testBit_foldBits (shift x : UInt32) (i : Nat) : (foldBits shift x).toNat.testBit i =
    (x.toNat.testBit i ^^ x.toNat.testBit (shift.toNat % 32 + i)) := by
  rw [foldBits, UInt32.toNat_xor, UInt32.toNat_shiftRight, Nat.testBit_xor, Nat.testBit_shiftRight]

/-- Words have no bits from the one of `2 ^ 32` on. -/
theorem testBit_eq_false {i : Nat} (h : 32 ≤ i) : x.toNat.testBit i = false :=
  Nat.testBit_lt_two_pow (Nat.lt_of_lt_of_le x.toNat_lt (Nat.pow_le_pow_right (by decide) h))

/-- Words that are folded to one word agree from a bit on: the highest bits are
left as they are, and each one further down is told apart by those above it. -/
theorem testBit_eq_of_foldBits_eq (hshift : 0 < shift.toNat % 32)
    (h : foldBits shift x = foldBits shift y) (below : Nat) :
    ∀ i, 32 ≤ i + below → x.toNat.testBit i = y.toNat.testBit i := by
  induction below with
  | zero =>
      intro i hi
      exact (testBit_eq_false hi).trans (testBit_eq_false hi).symm
  | succ below ih =>
      intro i hi
      have habove := ih (shift.toNat % 32 + i) (by omega)
      have hbit := congrArg (fun word => word.toNat.testBit i) h
      simp only [testBit_foldBits, habove] at hbit
      exact Bool.xor_left_inj.mp hbit

/-- **Folding can be undone**, unless it folds a word onto itself. -/
theorem foldBits_injective (hshift : 0 < shift.toNat % 32) :
    Function.Injective (foldBits shift) := by
  intro x y h
  apply UInt32.toNat_inj.mp
  apply Nat.eq_of_testBit_eq
  intro i
  exact testBit_eq_of_foldBits_eq hshift h 32 i (Nat.le_add_left ..)

/-- **A multiplication can be undone** by one with the inverse of the factor. -/
theorem mul_right_injective {factor inverse : UInt32} (h : factor * inverse = 1) :
    Function.Injective fun x : UInt32 => x * factor := by
  intro x y hxy
  calc x = x * factor * inverse := by rw [UInt32.mul_assoc, h, UInt32.mul_one]
    _ = y * factor * inverse := congrArg (· * inverse) hxy
    _ = y := by rw [UInt32.mul_assoc, h, UInt32.mul_one]

end

/-- **No two addresses are mixed to the same number.** -/
theorem mix_injective : Function.Injective mix := by
  have hfirst : Function.Injective fun x : UInt32 => x * 0x85EBCA6B :=
    mul_right_injective (show 0x85EBCA6B * 0xA5CB9243 = 1 by decide)
  have hsecond : Function.Injective fun x : UInt32 => x * 0xC2B2AE35 :=
    mul_right_injective (show 0xC2B2AE35 * 0x7ED1B41D = 1 by decide)
  have hhigh : Function.Injective (foldBits 16) := foldBits_injective (by decide)
  have hlow : Function.Injective (foldBits 13) := foldBits_injective (by decide)
  exact hhigh.comp (hsecond.comp (hlow.comp (hfirst.comp hhigh)))

end RecordStore.Cache
