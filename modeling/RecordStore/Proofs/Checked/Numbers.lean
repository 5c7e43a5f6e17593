import Mathlib
import RecordStore.Proofs.Checked.Guards
import RecordStore.Proofs.Numeric.Grammar
import RecordStore.Proofs.Text.Encoding
import RecordStore.Text.Blank

/-!
# Leading numbers on a machine

The number at the front of a text is found in the bytes of the text, by places
in them, and the text is cut at the last of these.  A machine cuts it only
between characters, and a place has to be inside.

As far as a number goes there are ASCII characters only, of one byte each.
After so many of them (`At`) a byte tells what comes next, whatever it is: no
byte of a longer character is the code of an ASCII character
(`OfAscii.any_head_encode`).  So the places of the machine are where the parts of
the number end in the text, and the cut is between characters (`At.before_eq`).
-/

namespace RecordStore.Checked

/-- Is a byte the code of a character of some kind? -/
def codes (kind : Char → Bool) (b : UInt8) : Bool :=
  kind b.toChar

/-- Is there such a byte at a place? -/
def stands (kind : Char → Bool) (bytes : Bytes) (place : Nat) : Bool :=
  bytes[place]?.any (codes kind)

/-- How many digits there are from a place on. -/
def digitsAt (bytes : Bytes) (place : Nat) : Checked Nat := do
  let rest ← slice bytes place bytes.length
  return (rest.takeWhile (codes Char.isDigit)).length

/-- Does a byte begin a character?  Those that follow in one are in the range
from `80` to `BF`. -/
def isFirst (b : UInt8) : Bool :=
  b < 0x80 || 0xC0 ≤ b

/-- Is a place at an end of a text, or between two of its characters? -/
def isBoundary (bytes : Bytes) (place : Nat) : Bool :=
  place == 0 || match bytes[place]? with
    | some b => isFirst b
    | none => place == bytes.length

/-- The text before a place. -/
def before (bytes : Bytes) (place : Nat) : Checked Bytes :=
  if isBoundary bytes place then .ok (bytes.take place) else .error .outside

def isSign (c : Char) : Bool := c == '+' || c == '-'

def isPoint (c : Char) : Bool := c == '.'

def isMarker (c : Char) : Bool := c == 'e' || c == 'E'

/-- The place after a sign, if there is one. -/
def signEnd (bytes : Bytes) (place : Nat) : Nat :=
  if stands isSign bytes place then place + 1 else place

/-- The place after a point and digits, if together with `whole` digits before it
there are any; and how many there are together. -/
def fractionEnd (bytes : Bytes) (whole place : Nat) : Checked (Nat × Nat) :=
  if stands isPoint bytes place then do
    let part ← digitsAt bytes (place + 1)
    return if 0 < whole ∨ 0 < part then (place + 1 + part, whole + part) else (place, whole)
  else return (place, whole)

/-- The place after an exponent, if it has a digit. -/
def exponentEnd (bytes : Bytes) (place : Nat) : Checked Nat :=
  if stands isMarker bytes place then do
    let first := signEnd bytes (place + 1)
    let part ← digitsAt bytes first
    return if 0 < part then first + part else place
  else return place

/-- The number at the front of bytes, with or without what makes it a fraction. -/
def numberFront (fractional : Bool) (bytes : Bytes) : Checked Bytes := do
  let first := signEnd bytes 0
  let whole ← digitsAt bytes first
  if fractional then
    let (last, count) ← fractionEnd bytes whole (first + whole)
    if count = 0 then return []
    else
      let last ← exponentEnd bytes last
      before bytes last
  else if whole = 0 then return []
  else before bytes (first + whole)

/-- The number at the front of a text, after blanks. -/
def leadingNumber (fractional : Bool) (text : String) : Checked Bytes :=
  numberFront fractional (Utf8.encode (String.ofList (Blank.trimStart text.toList)))

/-! ## Characters and their bytes -/

section

variable {kind : Char → Bool} {c : Char} {text : List Char}

theorem toNat_toChar (b : UInt8) : b.toChar.toNat = b.toNat :=
  UInt8.toNat_toUInt32 b

theorem toChar_ofNat (h : c.toNat < 128) : (UInt8.ofNat c.toNat).toChar = c := by
  apply Char.toNat_inj.mp
  rw [toNat_toChar, UInt8.toNat_ofNat']
  exact Nat.mod_eq_of_lt (h.trans (by decide))

theorem isFirst_head (c : Char) :
    ∃ b follow, String.utf8EncodeChar c = b :: follow ∧ isFirst b = true := by
  by_cases hascii : c.toNat < 128
  · refine ⟨_, [], Utf8.utf8EncodeChar_of_ascii hascii, ?_⟩
    rw [isFirst, Bool.or_eq_true, decide_eq_true_iff, UInt8.lt_iff_toNat_lt, UInt8.toNat_ofNat',
      Nat.mod_eq_of_lt (hascii.trans (by decide))]
    exact .inl hascii
  · obtain ⟨b, follow, hbytes, hfirst⟩ := Utf8.utf8EncodeChar_of_not_ascii (Nat.not_lt.mp hascii)
    refine ⟨b, follow, hbytes, ?_⟩
    rw [isFirst, Bool.or_eq_true, decide_eq_true_iff, decide_eq_true_iff, UInt8.le_iff_toNat_le]
    exact .inr hfirst

/-- Only ASCII characters are of a kind. -/
def OfAscii (kind : Char → Bool) : Prop :=
  ∀ c, kind c = true → c.toNat < 128

theorem codes_ofNat (h : c.toNat < 128) : codes kind (UInt8.ofNat c.toNat) = kind c := by
  rw [codes, toChar_ofNat h]

/-- A byte of a longer character is the code of no ASCII character. -/
theorem OfAscii.codes_eq_false (hkind : OfAscii kind) {b : UInt8} (h : 128 ≤ b.toNat) :
    codes kind b = false := by
  rw [← Bool.not_eq_true]
  intro hb
  have hascii := hkind _ hb
  rw [toNat_toChar] at hascii
  exact absurd hascii (Nat.not_lt.mpr h)

/-- **What comes next is told from one byte**, whatever it is. -/
theorem OfAscii.any_head_encode (hkind : OfAscii kind) (text : List Char) :
    (Utf8.encode (String.ofList text)).head?.any (codes kind) = text.head?.any kind := by
  cases text with
  | nil => rfl
  | cons c rest =>
      rw [Utf8.encode_cons, List.head?_cons, Option.any_some]
      by_cases hascii : c.toNat < 128
      · rw [Utf8.utf8EncodeChar_of_ascii hascii, List.singleton_append, List.head?_cons,
          Option.any_some, codes_ofNat hascii]
      · obtain ⟨b, follow, hbytes, hfirst⟩ := Utf8.utf8EncodeChar_of_not_ascii (Nat.not_lt.mp hascii)
        have hc : kind c = false := Bool.eq_false_iff.mpr fun hc => hascii (hkind c hc)
        rw [hbytes, List.cons_append, List.head?_cons, Option.any_some, hc]
        exact hkind.codes_eq_false ((by decide : 128 ≤ 0xC0).trans hfirst)

/-- As many bytes of a kind come first as characters. -/
theorem OfAscii.length_takeWhile_encode (hkind : OfAscii kind) (text : List Char) :
    ((Utf8.encode (String.ofList text)).takeWhile (codes kind)).length =
      (text.takeWhile kind).length := by
  induction text with
  | nil => rfl
  | cons c rest ih =>
      by_cases hc : kind c = true
      · have hbyte : codes kind (UInt8.ofNat c.toNat) = true := by rwa [codes_ofNat (hkind c hc)]
        rw [Utf8.encode_cons, Utf8.utf8EncodeChar_of_ascii (hkind c hc), List.singleton_append,
          List.takeWhile_cons_of_pos hbyte, List.takeWhile_cons_of_pos hc, List.length_cons,
          List.length_cons, ih]
      · have hhead := hkind.any_head_encode (c :: rest)
        rw [List.head?_cons, Option.any_some] at hhead
        rw [List.takeWhile_cons_of_neg hc]
        cases hbytes : Utf8.encode (String.ofList (c :: rest)) with
        | nil => rfl
        | cons b follow =>
            rw [hbytes, List.head?_cons, Option.any_some] at hhead
            rw [List.takeWhile_cons_of_neg (hhead ▸ hc)]
            rfl

theorem any_head_iff :
    text.head?.any kind = true ↔ ∃ c rest, text = c :: rest ∧ kind c = true := by
  cases text with
  | nil => simp
  | cons c rest => simp

theorem ofAscii_isDigit : OfAscii Char.isDigit := by
  intro c hc
  rw [Char.isDigit, Bool.and_eq_true, decide_eq_true_iff, decide_eq_true_iff] at hc
  exact lt_of_le_of_lt (UInt32.le_iff_toNat_le.mp hc.2) (by decide)

theorem ofAscii_isSign : OfAscii isSign := by
  intro c hc
  rw [isSign, Bool.or_eq_true, beq_iff_eq, beq_iff_eq] at hc
  rcases hc with rfl | rfl <;> decide

theorem ofAscii_isPoint : OfAscii isPoint := by
  intro c hc
  rw [isPoint, beq_iff_eq] at hc
  subst hc
  decide

theorem ofAscii_isMarker : OfAscii isMarker := by
  intro c hc
  rw [isMarker, Bool.or_eq_true, beq_iff_eq, beq_iff_eq] at hc
  rcases hc with rfl | rfl <;> decide

theorem length_sign (text : List Char) :
    (Leading.sign text).1.length = if text.head?.any isSign then 1 else 0 := by
  unfold Leading.sign
  split
  · rfl
  · rfl
  · next hplus hminus =>
      have hnone : ¬ text.head?.any isSign = true := by
        intro hsome
        obtain ⟨c, rest, rfl, hc⟩ := any_head_iff.mp hsome
        rw [isSign, Bool.or_eq_true, beq_iff_eq, beq_iff_eq] at hc
        rcases hc with rfl | rfl
        · exact hplus rest rfl
        · exact hminus rest rfl
      rw [if_neg hnone]
      rfl

theorem ascii_sign (text : List Char) : ∀ c ∈ (Leading.sign text).1, c.toNat < 128 := by
  intro c hc
  rcases Leading.mem_signForm.mp (Leading.sign_mem text) with h | h | h
  · rw [h] at hc
    cases hc
  · rw [h, List.mem_singleton] at hc
    subst hc
    decide
  · rw [h, List.mem_singleton] at hc
    subst hc
    decide

end

/-! ## Places in a text -/

/-- A place in the bytes of a text, after so many ASCII characters. -/
structure At (bytes : Bytes) (place : Nat) (front rest : List Char) : Prop where
  ascii : ∀ c ∈ front, c.toNat < 128
  text : bytes = Utf8.encode (String.ofList (front ++ rest))
  place_eq : place = front.length

namespace At

variable {bytes : Bytes} {place : Nat} {front part rest : List Char} {kind : Char → Bool}

theorem start (text : List Char) : At (Utf8.encode (String.ofList text)) 0 [] text where
  ascii := by simp
  text := rfl
  place_eq := rfl

/-- The place after some more ASCII characters. -/
theorem move (h : At bytes place front (part ++ rest)) (hpart : ∀ c ∈ part, c.toNat < 128) :
    At bytes (place + part.length) (front ++ part) rest where
  ascii := fun c hc => (List.mem_append.mp hc).elim (h.ascii c) (hpart c)
  text := by rw [h.text, List.append_assoc]
  place_eq := by rw [h.place_eq, List.length_append]

theorem length_front (h : At bytes place front rest) :
    (Utf8.encode (String.ofList front)).length = place := by
  rw [Utf8.encode_of_ascii h.ascii, List.length_map, h.place_eq]

theorem bytes_eq (h : At bytes place front rest) :
    bytes = Utf8.encode (String.ofList front) ++ Utf8.encode (String.ofList rest) :=
  h.text.trans (Utf8.encode_append front rest)

theorem drop (h : At bytes place front rest) :
    bytes.drop place = Utf8.encode (String.ofList rest) := by
  rw [h.bytes_eq, ← h.length_front, List.drop_left]

theorem take (h : At bytes place front rest) :
    bytes.take place = Utf8.encode (String.ofList front) := by
  rw [h.bytes_eq, ← h.length_front, List.take_left]

theorem stands_eq (h : At bytes place front rest) (hkind : OfAscii kind) :
    stands kind bytes place = rest.head?.any kind := by
  rw [stands, ← List.head?_drop, h.drop, hkind.any_head_encode]

/-- The digits are counted. -/
theorem digitsAt_eq (h : At bytes place front rest) :
    digitsAt bytes place = .ok (rest.takeWhile Char.isDigit).length := by
  have hslice : slice bytes place bytes.length = .ok (Utf8.encode (String.ofList rest)) := by
    have hrest := slice_append (Utf8.encode (String.ofList front))
      (Utf8.encode (String.ofList rest)) []
    rwa [List.append_nil, ← List.length_append, ← h.bytes_eq, h.length_front] at hrest
  rw [digitsAt, bind_of_eq hslice, ← ofAscii_isDigit.length_takeWhile_encode]
  rfl

/-- The place is between characters. -/
theorem isBoundary_eq (h : At bytes place front rest) : isBoundary bytes place = true := by
  rw [isBoundary, ← List.head?_drop, h.drop, Bool.or_eq_true]
  right
  cases rest with
  | nil =>
      have hall : bytes.length = place := by
        rw [h.text, List.append_nil, h.length_front]
      exact beq_iff_eq.mpr hall.symm
  | cons c rest =>
      obtain ⟨b, follow, hbytes, hfirst⟩ := isFirst_head c
      rw [Utf8.encode_cons, hbytes]
      exact hfirst

theorem before_eq (h : At bytes place front rest) :
    before bytes place = .ok (Utf8.encode (String.ofList front)) := by
  rw [before, if_pos h.isBoundary_eq, h.take]

/-! ### Parts of a number -/

theorem sign_end (h : At bytes place front rest) :
    At bytes (signEnd bytes place) (front ++ (Leading.sign rest).1) (Leading.sign rest).2 := by
  have hplace : signEnd bytes place = place + (Leading.sign rest).1.length := by
    rw [signEnd, h.stands_eq ofAscii_isSign, length_sign]
    split <;> rfl
  rw [hplace]
  rw [← Leading.sign_append rest] at h
  exact h.move (ascii_sign rest)

theorem digits_end (h : At bytes place front rest) :
    At bytes (place + (rest.takeWhile Char.isDigit).length)
      (front ++ rest.takeWhile Char.isDigit) (rest.dropWhile Char.isDigit) := by
  have hascii : ∀ c ∈ rest.takeWhile Char.isDigit, c.toNat < 128 :=
    fun c hc => ofAscii_isDigit c (List.mem_takeWhile_imp hc)
  rw [← List.takeWhile_append_dropWhile (p := Char.isDigit) (l := rest)] at h
  exact h.move hascii

/-- The place after what may stand after digits, and whether there is any digit. -/
theorem fractionEnd_eq (h : At bytes place front rest) (whole : List Char) : ∃ last count,
    fractionEnd bytes whole.length place = .ok (last, count) ∧
      At bytes last (front ++ (Leading.fraction whole rest).1) (Leading.fraction whole rest).2 ∧
      (count = 0 ↔ whole = [] ∧ (Leading.fraction whole rest).1 = []) := by
  have hstands := h.stands_eq ofAscii_isPoint
  by_cases hpoint : rest.head?.any isPoint = true
  · obtain ⟨c, after, rfl, hc⟩ := any_head_iff.mp hpoint
    obtain rfl : c = '.' := beq_iff_eq.mp hc
    have hafter : At bytes (place + 1) (front ++ ['.']) after :=
      h.move (List.forall_mem_singleton.mpr (by decide))
    rw [Leading.fraction_point, fractionEnd, if_pos (hstands.trans hpoint),
      bind_of_eq hafter.digitsAt_eq]
    by_cases hnone : whole = [] ∧ after.takeWhile Char.isDigit = []
    · have hcount : ¬ (0 < whole.length ∨ 0 < (after.takeWhile Char.isDigit).length) := by
        rw [hnone.1, hnone.2]
        decide
      rw [if_pos hnone, if_neg hcount, List.append_nil]
      exact ⟨_, _, rfl, h, by simp [hnone.1]⟩
    · have hcount : 0 < whole.length ∨ 0 < (after.takeWhile Char.isDigit).length :=
        (not_and_or.mp hnone).imp List.length_pos_iff.mpr List.length_pos_iff.mpr
      have hend := hafter.digits_end
      rw [List.append_assoc] at hend
      rw [if_neg hnone, if_pos hcount]
      refine ⟨_, _, rfl, hend, ?_⟩
      have hsome : whole.length + (after.takeWhile Char.isDigit).length ≠ 0 := by omega
      exact ⟨fun hzero => absurd hzero hsome, fun hnil => absurd hnil.2 (List.cons_ne_nil _ _)⟩
  · have hother : ∀ c ∈ rest.head?, c ≠ '.' := by
      rintro c hhead rfl
      rw [Option.mem_def.mp hhead] at hpoint
      exact hpoint rfl
    rw [Leading.fraction_of_head_ne hother, fractionEnd, if_neg (hstands ▸ hpoint),
      List.append_nil]
    exact ⟨_, _, rfl, h, by simp⟩

/-- The place after a mantissa, and whether there is one. -/
theorem mantissa_end (h : At bytes place front rest) : ∃ last count,
    fractionEnd bytes (rest.takeWhile Char.isDigit).length
        (place + (rest.takeWhile Char.isDigit).length) = .ok (last, count) ∧
      At bytes last (front ++ (Leading.mantissa rest).1) (Leading.mantissa rest).2 ∧
      (count = 0 ↔ (Leading.mantissa rest).1 = []) := by
  obtain ⟨last, count, hend, hlast, hcount⟩ :=
    h.digits_end.fractionEnd_eq (rest.takeWhile Char.isDigit)
  rw [List.append_assoc] at hlast
  exact ⟨last, count, hend, hlast, hcount.trans List.append_eq_nil_iff.symm⟩

/-- The place after an exponent, or where one would begin. -/
theorem exponentEnd_eq (h : At bytes place front rest) : ∃ last after,
    exponentEnd bytes place = .ok last ∧ At bytes last (front ++ Leading.exponent rest) after := by
  have hstands := h.stands_eq ofAscii_isMarker
  by_cases hmarker : rest.head?.any isMarker = true
  · obtain ⟨c, after, rfl, hc⟩ := any_head_iff.mp hmarker
    have hafter : At bytes (place + 1) (front ++ [c]) after :=
      h.move (List.forall_mem_singleton.mpr (ofAscii_isMarker c hc))
    rw [isMarker, Bool.or_eq_true, beq_iff_eq, beq_iff_eq] at hc
    rw [Leading.exponent_marked hc, exponentEnd, if_pos (hstands.trans hmarker),
      bind_of_eq hafter.sign_end.digitsAt_eq]
    by_cases hnone : (Leading.sign after).2.takeWhile Char.isDigit = []
    · rw [if_pos hnone, hnone, List.append_nil]
      exact ⟨_, _, rfl, h⟩
    · have hend := hafter.sign_end.digits_end
      rw [List.append_assoc, List.append_assoc] at hend
      rw [if_neg hnone, if_pos (List.length_pos_iff.mpr hnone)]
      exact ⟨_, _, rfl, hend⟩
  · have hother : ∀ c ∈ rest.head?, ¬ (c = 'e' ∨ c = 'E') := by
      intro c hhead hc
      rw [Option.mem_def.mp hhead] at hmarker
      rcases hc with rfl | rfl
      · exact hmarker rfl
      · exact hmarker rfl
    rw [Leading.exponent_of_head_ne hother, exponentEnd, if_neg (hstands ▸ hmarker),
      List.append_nil]
    exact ⟨_, _, rfl, h⟩

end At

/-! ## Numbers -/

/-- **A number is found in the bytes of a text** as it is in the text. -/
theorem numberFront_eq (fractional : Bool) (text : List Char) :
    numberFront fractional (Utf8.encode (String.ofList text)) =
      .ok (Utf8.encode (String.ofList (Leading.number fractional text))) := by
  have hsign := (At.start text).sign_end
  rw [numberFront, bind_of_eq hsign.digitsAt_eq, Leading.number]
  cases fractional with
  | false =>
      rw [if_neg Bool.false_ne_true, if_neg Bool.false_ne_true, Leading.integer_eq]
      by_cases hnone : (Leading.sign text).2.takeWhile Char.isDigit = []
      · rw [if_pos (List.length_eq_zero_iff.mpr hnone), if_pos hnone]
        rfl
      · rw [if_neg (mt List.length_eq_zero_iff.mp hnone), if_neg hnone]
        exact hsign.digits_end.before_eq
  | true =>
      obtain ⟨last, count, hmantissa, hlast, hcount⟩ := hsign.mantissa_end
      obtain ⟨past, after, hexponent, hpast⟩ := hlast.exponentEnd_eq
      rw [if_pos rfl, if_pos rfl, bind_of_eq hmantissa, Leading.decimal_eq]
      by_cases hnone : count = 0
      · rw [if_pos (hcount.mp hnone)]
        exact if_pos hnone
      · rw [if_neg (mt hcount.mpr hnone), ← List.append_assoc]
        exact (if_neg hnone).trans ((bind_of_eq hexponent).trans hpast.before_eq)

/-- **The longest number at the front of a text.**  After the blanks of any text a
machine comes to the longest front part that has the form of a number, and to
nothing where no front part has it.  It always does, and never has to cut a
character or read outside of the text. -/
theorem leadingNumber_longest (fractional : Bool) (text : String) :
    let number := Leading.number fractional (Blank.trimStart text.toList)
    leadingNumber fractional text = .ok (Utf8.encode (String.ofList number)) ∧
      (Longest (· ∈ (Leading.numberForm fractional).matches') (Blank.trimStart text.toList) number ∨
        number = [] ∧ ∀ front, front <+: Blank.trimStart text.toList →
          front ∉ (Leading.numberForm fractional).matches') :=
  ⟨numberFront_eq fractional _, Leading.number_longest fractional _⟩

/-- An exponent without digits is left behind, with what comes after it. -/
example : leadingNumber true " -7.e+é" = .ok (Utf8.encode "-7.") := by
  decide +kernel

end RecordStore.Checked
