import Mathlib
import RecordStore.Proofs.Numeric.Leading

/-!
# The forms of numbers

The two forms of the number that a text leads with, as regular expressions:

* `integerForm` is `[+-]?[0-9]+`;
* `decimalForm` is `[+-]?([0-9]+(.[0-9]*)?|.[0-9]+)([eE][+-]?[0-9]+)?`, where a
  point stands for itself.

A part of a number is found whole where what comes after it cannot belong to
it: a sign before what is none, digits before what is no digit.  Each part of
the form begins with what cannot belong to the part before, so a front part of
the form is at the front of what is found (`prefix_decimal_of_mem`), and what is
found has the form (`decimal_mem`).  Therefore it is the longest one
(`number_longest`).
-/

namespace RecordStore.Leading

open RegularExpression

/-! ## Forms -/

/-- One of some characters. -/
def oneOf (chars : List Char) : RegularExpression Char :=
  (chars.map char).sum

/-- A form, or nothing. -/
def optional (form : RegularExpression Char) : RegularExpression Char :=
  1 + form

/-- A form, once or more often. -/
def repeated (form : RegularExpression Char) : RegularExpression Char :=
  form * star form

/-- `[0-9]` -/
def digitForm : RegularExpression Char :=
  oneOf ['0', '1', '2', '3', '4', '5', '6', '7', '8', '9']

/-- `[+-]?` -/
def signForm : RegularExpression Char :=
  optional (oneOf ['+', '-'])

/-- `[0-9]+(.[0-9]*)?|.[0-9]+` -/
def mantissaForm : RegularExpression Char :=
  repeated digitForm * optional (char '.' * star digitForm) + char '.' * repeated digitForm

/-- `[eE][+-]?[0-9]+` -/
def exponentForm : RegularExpression Char :=
  oneOf ['e', 'E'] * (signForm * repeated digitForm)

/-- `[+-]?[0-9]+` -/
def integerForm : RegularExpression Char :=
  signForm * repeated digitForm

/-- `[+-]?([0-9]+(.[0-9]*)?|.[0-9]+)([eE][+-]?[0-9]+)?` -/
def decimalForm : RegularExpression Char :=
  signForm * (mantissaForm * optional exponentForm)

section

variable {chars text : List Char} {form : RegularExpression Char}

theorem mem_char {c : Char} : text ∈ (char c).matches' ↔ text = [c] :=
  Iff.rfl

theorem mem_mul {first second : RegularExpression Char} :
    text ∈ (first * second).matches' ↔
      ∃ front ∈ first.matches', ∃ back ∈ second.matches', front ++ back = text := by
  rw [matches'_mul, Language.mem_mul]

theorem mem_optional : text ∈ (optional form).matches' ↔ text = [] ∨ text ∈ form.matches' := by
  rw [optional, matches'_add, Language.mem_add, matches'_epsilon, Language.mem_one]

theorem mem_oneOf : text ∈ (oneOf chars).matches' ↔ ∃ c ∈ chars, text = [c] := by
  unfold oneOf
  induction chars with
  | nil => simp
  | cons c rest ih =>
      rw [List.map_cons, List.sum_cons, matches'_add, Language.mem_add, ih, mem_char]
      simp only [List.mem_cons, exists_eq_or_imp]

/-- **Characters of a form, one after another**, are all of that form. -/
theorem mem_star {p : Char → Prop}
    (h : ∀ {text}, text ∈ form.matches' ↔ ∃ c, p c ∧ text = [c]) :
    text ∈ (star form).matches' ↔ ∀ c ∈ text, p c := by
  rw [matches'_star, Language.mem_kstar]
  constructor
  · rintro ⟨parts, rfl, hparts⟩ c hc
    obtain ⟨part, hpart, hmem⟩ := List.mem_flatten.mp hc
    obtain ⟨d, hd, rfl⟩ := h.mp (hparts part hpart)
    rwa [List.mem_singleton.mp hmem]
  · intro hall
    refine ⟨text.map ([·]), ?_, ?_⟩
    · rw [← List.flatMap_def, List.flatMap_singleton']
    · intro part hpart
      obtain ⟨c, hc, rfl⟩ := List.mem_map.mp hpart
      exact h.mpr ⟨c, hall c hc, rfl⟩

theorem mem_repeated {p : Char → Prop}
    (h : ∀ {text}, text ∈ form.matches' ↔ ∃ c, p c ∧ text = [c]) :
    text ∈ (repeated form).matches' ↔ text ≠ [] ∧ ∀ c ∈ text, p c := by
  rw [repeated, mem_mul]
  constructor
  · rintro ⟨_, hfirst, rest, hrest, rfl⟩
    obtain ⟨c, hc, rfl⟩ := h.mp hfirst
    refine ⟨List.cons_ne_nil _ _, ?_⟩
    exact List.forall_mem_cons.mpr ⟨hc, (mem_star h).mp hrest⟩
  · rintro ⟨hsome, hall⟩
    obtain ⟨c, rest, rfl⟩ := List.exists_cons_of_ne_nil hsome
    rw [List.forall_mem_cons] at hall
    exact ⟨[c], h.mpr ⟨c, hall.1, rfl⟩, rest, (mem_star h).mpr hall.2, rfl⟩

/-! ## Digits and signs -/

theorem isDigit_iff_mem {c : Char} :
    c.isDigit = true ↔ c ∈ ['0', '1', '2', '3', '4', '5', '6', '7', '8', '9'] := by
  constructor
  · intro h
    rw [Char.isDigit, Bool.and_eq_true, decide_eq_true_iff, decide_eq_true_iff] at h
    have hlow : 48 ≤ c.toNat := h.1
    have hhigh : c.toNat ≤ 57 := h.2
    rw [← Char.ofNat_toNat c]
    interval_cases c.toNat <;> decide
  · intro h
    fin_cases h <;> rfl

theorem mem_digitForm : text ∈ digitForm.matches' ↔ ∃ c, c.isDigit = true ∧ text = [c] := by
  simp only [digitForm, mem_oneOf, isDigit_iff_mem]

theorem mem_digits : text ∈ (star digitForm).matches' ↔ ∀ c ∈ text, c.isDigit = true :=
  mem_star mem_digitForm

theorem mem_someDigits :
    text ∈ (repeated digitForm).matches' ↔ text ≠ [] ∧ ∀ c ∈ text, c.isDigit = true :=
  mem_repeated mem_digitForm

theorem mem_signForm : text ∈ signForm.matches' ↔ text = [] ∨ text = ['+'] ∨ text = ['-'] := by
  simp [signForm, mem_optional, mem_oneOf]

end

/-! ## Parts of a decimal number -/

/-- What may stand after some digits in a mantissa. -/
inductive Fraction (whole : List Char) : List Char → Prop
  | nothing : Fraction whole []
  | point {part : List Char} (hdigits : ∀ c ∈ part, c.isDigit = true)
      (hsome : whole ≠ [] ∨ part ≠ []) : Fraction whole ('.' :: part)

/-- An exponent, or nothing. -/
inductive Exponent : List Char → Prop
  | nothing : Exponent []
  | marked {marker : Char} {sign digits : List Char} (hmarker : marker = 'e' ∨ marker = 'E')
      (hsign : sign ∈ signForm.matches') (hsome : digits ≠ [])
      (hdigits : ∀ c ∈ digits, c.isDigit = true) : Exponent (marker :: (sign ++ digits))

section

variable {text front rest whole part power : List Char} {c : Char}

theorem mem_exponent : text ∈ (optional exponentForm).matches' ↔ Exponent text := by
  rw [mem_optional, exponentForm, mem_mul]
  constructor
  · rintro (rfl | ⟨_, hmarker, _, hback, rfl⟩)
    · exact .nothing
    · obtain ⟨marker, hmem, rfl⟩ := mem_oneOf.mp hmarker
      obtain ⟨sign, hsign, digits, hdigits, rfl⟩ := mem_mul.mp hback
      obtain ⟨hsome, hall⟩ := mem_someDigits.mp hdigits
      show Exponent (marker :: (sign ++ digits))
      exact .marked (by simpa using hmem) hsign hsome hall
  · intro h
    cases h with
    | nothing => exact .inl rfl
    | @marked marker sign digits hmarker hsign hsome hdigits =>
        refine .inr ⟨[marker], mem_oneOf.mpr ⟨marker, by simpa using hmarker, rfl⟩, ?_⟩
        exact ⟨sign ++ digits,
          mem_mul.mpr ⟨sign, hsign, digits, mem_someDigits.mpr ⟨hsome, hdigits⟩, rfl⟩, rfl⟩

/-- **A mantissa** is some digits and what may stand after them, not both
nothing. -/
theorem mem_mantissaForm : text ∈ mantissaForm.matches' ↔ ∃ whole part, text = whole ++ part ∧
    (∀ c ∈ whole, c.isDigit = true) ∧ Fraction whole part ∧ ¬ (whole = [] ∧ part = []) := by
  rw [mantissaForm, matches'_add, Language.mem_add, mem_mul, mem_mul]
  constructor
  · rintro (⟨whole, hwhole, part, hpart, rfl⟩ | ⟨_, rfl, part, hpart, rfl⟩)
    · obtain ⟨hsome, hdigits⟩ := mem_someDigits.mp hwhole
      refine ⟨whole, part, rfl, hdigits, ?_, fun hnone => hsome hnone.1⟩
      rcases mem_optional.mp hpart with rfl | hpoint
      · exact .nothing
      · obtain ⟨_, rfl, digits, hmem, rfl⟩ := mem_mul.mp hpoint
        exact .point (mem_digits.mp hmem) (.inl hsome)
    · obtain ⟨hsome, hdigits⟩ := mem_someDigits.mp hpart
      refine ⟨[], '.' :: part, rfl, by simp, .point hdigits (.inr hsome), ?_⟩
      exact fun hnone => List.cons_ne_nil _ _ hnone.2
  · rintro ⟨whole, part, rfl, hwhole, hpart, hsome⟩
    by_cases hnone : whole = []
    · subst hnone
      cases hpart with
      | nothing => exact absurd ⟨rfl, rfl⟩ hsome
      | point hdigits hpart =>
          refine .inr ⟨['.'], rfl, _, mem_someDigits.mpr ⟨?_, hdigits⟩, rfl⟩
          exact hpart.resolve_left fun h => h rfl
    · refine .inl ⟨whole, mem_someDigits.mpr ⟨hnone, hwhole⟩, part, mem_optional.mpr ?_, rfl⟩
      cases hpart with
      | nothing => exact .inl rfl
      | point hdigits _ => exact .inr (mem_mul.mpr ⟨['.'], rfl, _, mem_digits.mpr hdigits, rfl⟩)

/-! ## How a part is found -/

theorem fraction_point (whole rest : List Char) : fraction whole ('.' :: rest) =
    if whole = [] ∧ rest.takeWhile Char.isDigit = [] then ([], '.' :: rest)
    else ('.' :: rest.takeWhile Char.isDigit, rest.dropWhile Char.isDigit) :=
  rfl

theorem fraction_of_head_ne (h : ∀ c ∈ text.head?, c ≠ '.') :
    fraction whole text = ([], text) := by
  unfold fraction
  split
  · exact absurd rfl (h '.' rfl)
  · rfl

theorem exponent_marked {marker : Char} (hmarker : marker = 'e' ∨ marker = 'E') :
    exponent (marker :: rest) =
      if (sign rest).2.takeWhile Char.isDigit = [] then []
      else marker :: ((sign rest).1 ++ (sign rest).2.takeWhile Char.isDigit) :=
  if_pos hmarker

theorem exponent_of_head_ne (h : ∀ c ∈ text.head?, ¬ (c = 'e' ∨ c = 'E')) :
    exponent text = [] := by
  cases text with
  | nil => rfl
  | cons c rest => exact if_neg (h c rfl)

theorem sign_mem (text : List Char) : (sign text).1 ∈ signForm.matches' := by
  rw [mem_signForm]
  unfold sign
  split <;> simp

theorem takeWhile_isDigit_all (text : List Char) :
    ∀ c ∈ text.takeWhile Char.isDigit, c.isDigit = true :=
  fun _ hc => List.mem_takeWhile_imp hc

/-- What is found after digits may stand there, and nothing is lost. -/
theorem fraction_found (whole text : List Char) : Fraction whole (fraction whole text).1 ∧
    (fraction whole text).1 ++ (fraction whole text).2 = text := by
  by_cases hpoint : ∀ c ∈ text.head?, c ≠ '.'
  · rw [fraction_of_head_ne hpoint]
    exact ⟨.nothing, rfl⟩
  · push Not at hpoint
    obtain ⟨_, hhead, rfl⟩ := hpoint
    obtain ⟨rest, rfl⟩ := List.head?_eq_some_iff.mp hhead
    rw [fraction_point]
    by_cases hnone : whole = [] ∧ rest.takeWhile Char.isDigit = []
    · rw [if_pos hnone]
      exact ⟨.nothing, rfl⟩
    · rw [if_neg hnone]
      refine ⟨.point (takeWhile_isDigit_all rest) (not_and_or.mp hnone), ?_⟩
      rw [List.cons_append, List.takeWhile_append_dropWhile]

/-- What is found as an exponent is one, or nothing. -/
theorem exponent_found (text : List Char) :
    Exponent (exponent text) ∧ exponent text <+: text := by
  by_cases hmarker : ∀ c ∈ text.head?, ¬ (c = 'e' ∨ c = 'E')
  · rw [exponent_of_head_ne hmarker]
    exact ⟨.nothing, List.nil_prefix⟩
  · push Not at hmarker
    obtain ⟨marker, hhead, hmarker⟩ := hmarker
    obtain ⟨rest, rfl⟩ := List.head?_eq_some_iff.mp hhead
    rw [exponent_marked hmarker]
    by_cases hnone : (sign rest).2.takeWhile Char.isDigit = []
    · rw [if_pos hnone]
      exact ⟨.nothing, List.nil_prefix⟩
    · rw [if_neg hnone]
      refine ⟨.marked hmarker (sign_mem rest) hnone (takeWhile_isDigit_all _), ?_⟩
      rw [List.cons_prefix_cons]
      refine ⟨rfl, ?_⟩
      conv_rhs => rw [← sign_append rest]
      exact (List.prefix_append_right_inj _).mpr (List.takeWhile_prefix _)

/-! ## Where a part ends -/

/-- Digits are found where they begin, or more of them. -/
theorem prefix_takeWhile_append (hfront : ∀ c ∈ front, c.isDigit = true) (rest : List Char) :
    front <+: (front ++ rest).takeWhile Char.isDigit :=
  prefix_takeWhile_of_digits (List.prefix_append ..) hfront

/-- Digits end before what is none. -/
theorem takeWhile_isDigit_append (hfront : ∀ c ∈ front, c.isDigit = true)
    (hrest : ∀ c ∈ rest.head?, c.isDigit = false) :
    (front ++ rest).takeWhile Char.isDigit = front ∧
      (front ++ rest).dropWhile Char.isDigit = rest := by
  rw [List.takeWhile_append_of_pos hfront, List.dropWhile_append_of_pos hfront]
  cases rest with
  | nil => simp
  | cons c tail =>
      have hc : ¬ c.isDigit = true := by rw [hrest c rfl]; exact Bool.false_ne_true
      rw [List.takeWhile_cons_of_neg hc, List.dropWhile_cons_of_neg hc, List.append_nil]
      exact ⟨rfl, rfl⟩

/-- A sign ends before what is none. -/
theorem sign_append_of_mem (hsign : front ∈ signForm.matches')
    (hrest : ∀ c ∈ rest.head?, c ≠ '+' ∧ c ≠ '-') : sign (front ++ rest) = (front, rest) := by
  rcases mem_signForm.mp hsign with rfl | rfl | rfl
  · rw [List.nil_append]
    unfold sign
    split
    · exact absurd rfl (hrest '+' rfl).1
    · exact absurd rfl (hrest '-' rfl).2
    · rfl
  · rfl
  · rfl

theorem ne_sign_of_isDigit (h : c.isDigit = true) : c ≠ '+' ∧ c ≠ '-' := by
  constructor
  · rintro rfl
    cases h
  · rintro rfl
    cases h

/-- A sign ends before digits. -/
theorem sign_append_digits (hsign : front ∈ signForm.matches') (hsome : whole ≠ [])
    (hdigits : ∀ c ∈ whole, c.isDigit = true) :
    sign (front ++ (whole ++ rest)) = (front, whole ++ rest) := by
  apply sign_append_of_mem hsign
  intro c hc
  obtain ⟨first, tail, rfl⟩ := List.exists_cons_of_ne_nil hsome
  obtain rfl := Option.some.inj hc
  exact ne_sign_of_isDigit (hdigits _ List.mem_cons_self)

/-- **An exponent is found** where one begins, or a longer one. -/
theorem Exponent.prefix_exponent (h : Exponent power) (rest : List Char) :
    power <+: exponent (power ++ rest) := by
  cases h with
  | nothing => exact List.nil_prefix
  | @marked marker sign digits hmarker hsign hsome hdigits =>
      have hfound := prefix_takeWhile_append hdigits rest
      rw [List.cons_append, List.append_assoc, exponent_marked hmarker,
        sign_append_digits hsign hsome hdigits, if_neg (hfound.ne_nil hsome),
        List.cons_prefix_cons]
      exact ⟨rfl, (List.prefix_append_right_inj _).mpr hfound⟩

/-- An exponent begins with what is neither a digit nor a point. -/
theorem Exponent.head_of_ne_nil (h : Exponent power) (hne : power ≠ []) (rest : List Char) :
    ∀ c ∈ (power ++ rest).head?, c.isDigit = false ∧ c ≠ '.' := by
  cases h with
  | nothing => exact absurd rfl hne
  | @marked marker sign digits hmarker hsign hsome hdigits =>
      intro c hc
      obtain rfl := Option.some.inj hc
      rcases hmarker with rfl | rfl <;> decide

/-- What comes after the digits of a mantissa is found where it begins, or
more digits after a point. -/
theorem Fraction.prefix_fraction (h : Fraction whole part) (rest : List Char) :
    part <+: (fraction whole (part ++ rest)).1 := by
  cases h with
  | nothing => exact List.nil_prefix
  | @point digits hdigits hsome =>
      have hfound := prefix_takeWhile_append hdigits rest
      have hne : ¬ (whole = [] ∧ (digits ++ rest).takeWhile Char.isDigit = []) :=
        not_and_or.mpr (hsome.imp_right hfound.ne_nil)
      rw [List.cons_append, fraction_point, if_neg hne, List.cons_prefix_cons]
      exact ⟨rfl, hfound⟩

/-- It is found exactly, if what follows is neither a digit nor a point. -/
theorem Fraction.fraction_append (h : Fraction whole part)
    (hrest : ∀ c ∈ rest.head?, c.isDigit = false ∧ c ≠ '.') :
    fraction whole (part ++ rest) = (part, rest) := by
  cases h with
  | nothing => exact fraction_of_head_ne fun c hc => (hrest c hc).2
  | @point digits hdigits hsome =>
      obtain ⟨htake, hdrop⟩ := takeWhile_isDigit_append hdigits fun c hc => (hrest c hc).1
      have hne : ¬ (whole = [] ∧ digits = []) := not_and_or.mpr hsome
      rw [List.cons_append, fraction_point, htake, hdrop, if_neg hne]

/-! ## Mantissas -/

/-- The mantissa at the front of a text, and the rest. -/
def mantissa (text : List Char) : List Char × List Char :=
  let whole := text.takeWhile Char.isDigit
  let (part, rest) := fraction whole (text.dropWhile Char.isDigit)
  (whole ++ part, rest)

/-- A mantissa begins with a digit or a point. -/
theorem head_of_mem_mantissaForm (h : front ∈ mantissaForm.matches') (rest : List Char) :
    ∀ c ∈ (front ++ rest).head?, c ≠ '+' ∧ c ≠ '-' := by
  obtain ⟨whole, part, rfl, hwhole, hpart, hsome⟩ := mem_mantissaForm.mp h
  intro c hc
  cases whole with
  | cons first tail =>
      obtain rfl := Option.some.inj hc
      exact ne_sign_of_isDigit (hwhole _ List.mem_cons_self)
  | nil =>
      cases hpart with
      | nothing => exact absurd ⟨rfl, rfl⟩ hsome
      | point =>
          obtain rfl := Option.some.inj hc
          decide

theorem ne_nil_of_mem_mantissaForm (h : front ∈ mantissaForm.matches') : front ≠ [] := by
  obtain ⟨whole, part, rfl, -, -, hsome⟩ := mem_mantissaForm.mp h
  exact fun hnil => hsome (List.append_eq_nil_iff.mp hnil)

/-- What is found has the form, and nothing is lost. -/
theorem mantissa_found (text : List Char) : (mantissa text).1 ++ (mantissa text).2 = text ∧
    ((mantissa text).1 ≠ [] → (mantissa text).1 ∈ mantissaForm.matches') := by
  obtain ⟨hpart, hwhole⟩ :=
    fraction_found (text.takeWhile Char.isDigit) (text.dropWhile Char.isDigit)
  constructor
  · rw [mantissa, List.append_assoc, hwhole, List.takeWhile_append_dropWhile]
  · intro hsome
    refine mem_mantissaForm.mpr ⟨_, _, rfl, takeWhile_isDigit_all text, hpart, ?_⟩
    rintro ⟨hwhole, hpart⟩
    exact hsome (List.append_eq_nil_iff.mpr ⟨hwhole, hpart⟩)

/-- **A mantissa is found** where one begins, or a longer one. -/
theorem prefix_mantissa (h : front ∈ mantissaForm.matches') (rest : List Char) :
    front <+: (mantissa (front ++ rest)).1 := by
  obtain ⟨whole, part, rfl, hwhole, hpart, -⟩ := mem_mantissaForm.mp h
  unfold mantissa
  cases hpart with
  | nothing =>
      rw [List.append_nil]
      exact (prefix_takeWhile_append hwhole rest).trans (List.prefix_append ..)
  | @point digits hdigits hsome =>
      have hhead : ∀ c ∈ ('.' :: digits ++ rest).head?, c.isDigit = false := by
        intro c hc
        obtain rfl := Option.some.inj hc
        rfl
      obtain ⟨htake, hdrop⟩ := takeWhile_isDigit_append hwhole hhead
      rw [List.append_assoc, htake, hdrop]
      exact (List.prefix_append_right_inj _).mpr ((Fraction.point hdigits hsome).prefix_fraction rest)

/-- It is found exactly, if what follows is neither a digit nor a point. -/
theorem mantissa_append (h : front ∈ mantissaForm.matches')
    (hrest : ∀ c ∈ rest.head?, c.isDigit = false ∧ c ≠ '.') :
    mantissa (front ++ rest) = (front, rest) := by
  obtain ⟨whole, part, rfl, hwhole, hpart, -⟩ := mem_mantissaForm.mp h
  have hhead : ∀ c ∈ (part ++ rest).head?, c.isDigit = false := by
    intro c hc
    cases hpart with
    | nothing => exact (hrest c hc).1
    | point =>
        obtain rfl := Option.some.inj hc
        rfl
  obtain ⟨htake, hdrop⟩ := takeWhile_isDigit_append hwhole hhead
  rw [mantissa, List.append_assoc, htake, hdrop, hpart.fraction_append hrest]

/-! ## Numbers -/

theorem decimal_eq (text : List Char) : decimal text =
    if (mantissa (sign text).2).1 = [] then []
    else (sign text).1 ++ ((mantissa (sign text).2).1 ++ exponent (mantissa (sign text).2).2) := by
  unfold decimal mantissa digits
  simp only [List.append_eq_nil_iff, List.append_assoc]

/-- **A number is found** where one begins, or a longer one. -/
theorem prefix_decimal_of_mem (h : front ∈ decimalForm.matches') (rest : List Char) :
    front <+: decimal (front ++ rest) := by
  rw [decimalForm, mem_mul] at h
  obtain ⟨sgn, hsgn, _, hback, rfl⟩ := h
  obtain ⟨body, hbody, power, hpower, rfl⟩ := mem_mul.mp hback
  have hsign : sign (sgn ++ (body ++ power) ++ rest) = (sgn, body ++ (power ++ rest)) := by
    rw [List.append_assoc, List.append_assoc]
    exact sign_append_of_mem hsgn (head_of_mem_mantissaForm hbody _)
  have hfound := prefix_mantissa hbody (power ++ rest)
  have hsome := hfound.ne_nil (ne_nil_of_mem_mantissaForm hbody)
  rw [decimal_eq, hsign, if_neg hsome, List.prefix_append_right_inj]
  -- An exponent ends the mantissa before it; without one the mantissa may go on.
  by_cases hnone : power = []
  · rw [hnone, List.append_nil]
    rw [hnone] at hfound
    exact hfound.trans (List.prefix_append ..)
  · rw [mem_exponent] at hpower
    rw [mantissa_append hbody (hpower.head_of_ne_nil hnone rest), List.prefix_append_right_inj]
    exact hpower.prefix_exponent rest

/-- What is found has the form. -/
theorem decimal_mem (h : decimal text ≠ []) :
    decimal text <+: text ∧ decimal text ∈ decimalForm.matches' := by
  rw [decimal_eq] at h ⊢
  split at h
  · exact absurd rfl h
  · next hsome =>
      obtain ⟨hwhole, hbody⟩ := mantissa_found (sign text).2
      obtain ⟨hpower, hleads⟩ := exponent_found (mantissa (sign text).2).2
      rw [if_neg hsome]
      constructor
      · conv_rhs => rw [← sign_append text, ← hwhole]
        exact (List.prefix_append_right_inj _).mpr ((List.prefix_append_right_inj _).mpr hleads)
      · refine mem_mul.mpr ⟨_, sign_mem text, _, ?_, rfl⟩
        exact mem_mul.mpr ⟨_, hbody hsome, _, mem_exponent.mpr hpower, rfl⟩

theorem ne_nil_of_mem_decimalForm (h : front ∈ decimalForm.matches') : front ≠ [] := by
  rw [decimalForm, mem_mul] at h
  obtain ⟨_, -, _, hback, rfl⟩ := h
  obtain ⟨body, hbody, _, -, rfl⟩ := mem_mul.mp hback
  exact List.append_ne_nil_of_right_ne_nil _
    (List.append_ne_nil_of_left_ne_nil (ne_nil_of_mem_mantissaForm hbody) _)

/-- The form of an integer is that of the texts that denote one. -/
theorem mem_integerForm : text ∈ integerForm.matches' ↔ ∃ n, Spells text n := by
  rw [integerForm, mem_mul]
  constructor
  · rintro ⟨sgn, hsgn, digits, hmem, rfl⟩
    obtain ⟨hsome, hdigits⟩ := mem_someDigits.mp hmem
    have hsign : sign (sgn ++ (digits ++ [])) = (sgn, digits ++ []) :=
      sign_append_digits hsgn hsome hdigits
    rw [List.append_nil] at hsign
    refine ⟨_, spells_iff.mpr ⟨?_, ?_, rfl⟩⟩
    · rwa [hsign]
    · rwa [hsign]
  · rintro ⟨n, hn⟩
    obtain ⟨hsome, hdigits, -⟩ := spells_iff.mp hn
    exact ⟨_, sign_mem text, _, mem_someDigits.mpr ⟨hsome, hdigits⟩, sign_append text⟩

/-- The form of a number, with or without what makes it a fraction. -/
def numberForm (fractional : Bool) : RegularExpression Char :=
  if fractional then decimalForm else integerForm

/-- The longest front part of that form. -/
def number (fractional : Bool) (text : List Char) : List Char :=
  if fractional then decimal text else integer text

/-- **What is found is the longest front part of the form**, and nothing where no
front part has it. -/
theorem number_longest (fractional : Bool) (text : List Char) :
    Longest (· ∈ (numberForm fractional).matches') text (number fractional text) ∨
      number fractional text = [] ∧
        ∀ front, front <+: text → front ∉ (numberForm fractional).matches' := by
  cases fractional with
  | true =>
      show Longest (· ∈ decimalForm.matches') text (decimal text) ∨ decimal text = [] ∧
        ∀ front, front <+: text → front ∉ decimalForm.matches'
      have hlongest : ∀ front, front <+: text → front ∈ decimalForm.matches' →
          front <+: decimal text := by
        rintro front ⟨rest, rfl⟩ hform
        exact prefix_decimal_of_mem hform rest
      by_cases hnone : decimal text = []
      · refine .inr ⟨hnone, fun front hfront hform => ?_⟩
        exact (hlongest front hfront hform).ne_nil (ne_nil_of_mem_decimalForm hform) hnone
      · exact .inl ⟨(decimal_mem hnone).1, (decimal_mem hnone).2,
          fun hfront hform => (hlongest _ hfront hform).length_le⟩
  | false =>
      show Longest (· ∈ integerForm.matches') text (integer text) ∨ integer text = [] ∧
        ∀ front, front <+: text → front ∉ integerForm.matches'
      simp only [mem_integerForm]
      by_cases hnone : integer text = []
      · exact .inr ⟨hnone, fun front hfront ⟨n, hn⟩ =>
          not_spells_of_integer_eq_nil hnone hfront hn⟩
      · exact .inl (longest_integer hnone)

end

end RecordStore.Leading
