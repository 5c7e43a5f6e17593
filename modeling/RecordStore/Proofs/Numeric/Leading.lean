import Mathlib
import RecordStore.Numeric.Literal

/-!
# The longest number at the front of a text

`Spells` is the form `[+-]?[0-9]+`, with the integer that a text of that form
denotes, and says nothing of how it is found.  The front part that
`Leading.integer` finds has the form and no longer one has it
(`longest_integer`); where it finds none, no front part has the form.

So there is always one answer to what integer a text leads with
(`exists_leadsWith`).  It has no bound: any number of digits counts.
-/

namespace RecordStore

/-- A front part of a text that has a form, and no longer one has it. -/
structure Longest (Form : List Char → Prop) (text front : List Char) : Prop where
  leads : front <+: text
  form : Form front
  longest : ∀ {other}, other <+: text → Form other → other.length ≤ front.length

/-- There is at most one: of two front parts, the longer one begins with the
other. -/
theorem Longest.unique {Form : List Char → Prop} {text front other : List Char}
    (h : Longest Form text front) (hother : Longest Form text other) : front = other := by
  have hle := hother.longest h.leads h.form
  have hge := h.longest hother.leads hother.form
  exact (List.prefix_of_prefix_length_le h.leads hother.leads hle).eq_of_length
    (Nat.le_antisymm hle hge)

namespace Leading

/-- A text of the form `[+-]?[0-9]+`, and the integer that it denotes. -/
inductive Spells : List Char → Int → Prop
  | unsigned {digits : List Char} (hsome : digits ≠ [])
      (hdigits : ∀ c ∈ digits, c.isDigit = true) : Spells digits (Nat.ofDigitChars 10 digits 0)
  | plus {digits : List Char} (hsome : digits ≠ [])
      (hdigits : ∀ c ∈ digits, c.isDigit = true) :
      Spells ('+' :: digits) (Nat.ofDigitChars 10 digits 0)
  | minus {digits : List Char} (hsome : digits ≠ [])
      (hdigits : ∀ c ∈ digits, c.isDigit = true) :
      Spells ('-' :: digits) (-(Nat.ofDigitChars 10 digits 0 : Int))

/-- The integer that a text leads with: what the longest front part of the form
denotes, and none if no front part has it. -/
inductive LeadsWith (text : List Char) : Option Int → Prop
  | number {front : List Char} {n : Int} (hfront : Longest (∃ m, Spells · m) text front)
      (hn : Spells front n) : LeadsWith text (some n)
  | nothing (hnone : ∀ front n, front <+: text → ¬ Spells front n) : LeadsWith text none

/-! ## Signs -/

variable {text front : List Char} {n : Int}

theorem sign_append (text : List Char) : (sign text).1 ++ (sign text).2 = text := by
  unfold sign
  split <;> rfl

/-- A part that is not empty has the sign of the whole. -/
theorem sign_of_prefix (hne : front ≠ []) (h : front <+: text) :
    (sign front).1 = (sign text).1 ∧ (sign front).2 <+: (sign text).2 := by
  obtain ⟨rest, rfl⟩ := h
  obtain ⟨c, tail, rfl⟩ := List.exists_cons_of_ne_nil hne
  rw [List.cons_append]
  by_cases hplus : c = '+'
  · subst hplus
    exact ⟨rfl, List.prefix_append tail rest⟩
  · by_cases hminus : c = '-'
    · subst hminus
      exact ⟨rfl, List.prefix_append tail rest⟩
    · have hsign : ∀ after, sign (c :: after) = ([], c :: after) := by
        intro after
        unfold sign
        split <;> simp_all
      rw [hsign, hsign]
      exact ⟨rfl, List.prefix_append (c :: tail) rest⟩

theorem sign_of_digits {digits : List Char} (hdigits : ∀ c ∈ digits, c.isDigit = true) :
    sign digits = ([], digits) := by
  unfold sign
  split
  · exact absurd (hdigits '+' List.mem_cons_self) (by decide)
  · exact absurd (hdigits '-' List.mem_cons_self) (by decide)
  · rfl

/-- **The form, after its sign**: some digits, and nothing else. -/
theorem spells_iff : Spells text n ↔
    (sign text).2 ≠ [] ∧ (∀ c ∈ (sign text).2, c.isDigit = true) ∧ n = Literal.signed text := by
  constructor
  · rintro (⟨hsome, hdigits⟩ | ⟨hsome, hdigits⟩ | ⟨hsome, hdigits⟩)
    · unfold Literal.signed
      rw [sign_of_digits hdigits]
      exact ⟨hsome, hdigits, rfl⟩
    · exact ⟨hsome, hdigits, rfl⟩
    · exact ⟨hsome, hdigits, rfl⟩
  · rintro ⟨hsome, hdigits, rfl⟩
    unfold Literal.signed
    revert hsome hdigits
    unfold sign
    split
    · exact .plus
    · exact .minus
    · exact .unsigned

theorem Spells.ne_nil (h : Spells text n) : text ≠ [] := by
  rintro rfl
  exact (spells_iff.mp h).1 rfl

/-! ## Digits -/

/-- Digits at the front of a text are among its leading digits. -/
theorem prefix_takeWhile_of_digits (h : front <+: text)
    (hdigits : ∀ c ∈ front, c.isDigit = true) : front <+: text.takeWhile Char.isDigit := by
  obtain ⟨rest, rfl⟩ := h
  rw [List.takeWhile_append_of_pos hdigits]
  exact List.prefix_append ..

theorem integer_eq (text : List Char) : integer text =
    if (sign text).2.takeWhile Char.isDigit = [] then []
    else (sign text).1 ++ (sign text).2.takeWhile Char.isDigit :=
  rfl

/-- A front part of the form is not longer than the sign and the leading digits. -/
theorem Spells.length_le (h : Spells front n) (hfront : front <+: text) :
    front.length ≤ (integer text).length := by
  obtain ⟨hsome, hdigits, -⟩ := spells_iff.mp h
  obtain ⟨hsign, hrest⟩ := sign_of_prefix h.ne_nil hfront
  have hleading := prefix_takeWhile_of_digits hrest hdigits
  have hne : (sign text).2.takeWhile Char.isDigit ≠ [] := by
    intro hnil
    exact hsome (List.prefix_nil.mp (hnil ▸ hleading))
  rw [integer_eq, if_neg hne, ← sign_append front, hsign, List.length_append, List.length_append]
  exact Nat.add_le_add_left hleading.length_le _

/-- Where nothing is found, no front part has the form. -/
theorem not_spells_of_integer_eq_nil (h : integer text = []) (hfront : front <+: text) :
    ¬ Spells front n := by
  intro hspells
  have hlength := hspells.length_le hfront
  rw [h] at hlength
  exact hspells.ne_nil (List.length_eq_zero_iff.mp (Nat.le_zero.mp hlength))

/-- What is found has the form. -/
theorem spells_integer (h : integer text ≠ []) :
    integer text <+: text ∧ Spells (integer text) (Literal.signed (integer text)) := by
  rw [integer_eq] at h ⊢
  split at h
  · exact absurd rfl h
  · next hne =>
      rw [if_neg hne]
      have hfront : (sign text).1 ++ (sign text).2.takeWhile Char.isDigit <+: text := by
        conv_rhs => rw [← sign_append text]
        exact (List.prefix_append_right_inj _).mpr (List.takeWhile_prefix _)
      obtain ⟨hsign, -⟩ := sign_of_prefix h hfront
      have hdigits : (sign ((sign text).1 ++ (sign text).2.takeWhile Char.isDigit)).2 =
          (sign text).2.takeWhile Char.isDigit := by
        have hwhole := sign_append ((sign text).1 ++ (sign text).2.takeWhile Char.isDigit)
        rw [hsign] at hwhole
        exact List.append_cancel_left hwhole
      refine ⟨hfront, spells_iff.mpr ⟨?_, ?_, rfl⟩⟩
      · rw [hdigits]
        exact hne
      · rw [hdigits]
        exact fun c hc => List.mem_takeWhile_imp hc

/-- **The longest front part of the form.** -/
theorem longest_integer (h : integer text ≠ []) :
    Longest (∃ m, Spells · m) text (integer text) where
  leads := (spells_integer h).1
  form := ⟨_, (spells_integer h).2⟩
  longest := fun hother ⟨_, hspells⟩ => hspells.length_le hother

theorem leadsWith_some_iff :
    LeadsWith text (some n) ↔ integer text ≠ [] ∧ n = Literal.signed (integer text) := by
  constructor
  · rintro (⟨hfront, hn⟩ | _)
    have hne : integer text ≠ [] :=
      fun hnil => not_spells_of_integer_eq_nil hnil hfront.leads hn
    rw [← hfront.unique (longest_integer hne)]
    exact ⟨hn.ne_nil, (spells_iff.mp hn).2.2⟩
  · rintro ⟨hne, rfl⟩
    exact .number (longest_integer hne) (spells_integer hne).2

theorem leadsWith_none_iff : LeadsWith text none ↔ integer text = [] := by
  constructor
  · rintro (_ | hnone)
    by_contra hne
    exact hnone _ _ (spells_integer hne).1 (spells_integer hne).2
  · intro hnil
    exact .nothing fun _ _ => not_spells_of_integer_eq_nil hnil

/-- **A text leads with one integer or with none.** -/
theorem exists_leadsWith (text : List Char) : ∃ number?, ∀ other?,
    LeadsWith text other? ↔ other? = number? := by
  by_cases hnil : integer text = []
  · refine ⟨none, ?_⟩
    rintro (_ | n)
    · simp [leadsWith_none_iff, hnil]
    · simp [leadsWith_some_iff, hnil]
  · refine ⟨some (Literal.signed (integer text)), ?_⟩
    rintro (_ | n)
    · simp [leadsWith_none_iff, hnil]
    · simp [leadsWith_some_iff, hnil]

end Leading

end RecordStore
