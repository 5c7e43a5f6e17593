/-!
# Blanks

The characters with the Unicode property `White_Space`, and what is done
with them: trimming a text, and cutting one into words.
-/

namespace RecordStore.Blank

/-- The characters with the property `White_Space`, as ranges of code points. -/
def ranges : List (Nat × Nat) :=
  [(0x09, 0x0D), (0x20, 0x20), (0x85, 0x85), (0xA0, 0xA0), (0x1680, 0x1680), (0x2000, 0x200A),
    (0x2028, 0x2029), (0x202F, 0x202F), (0x205F, 0x205F), (0x3000, 0x3000)]

/-- Does a character have the property `White_Space`? -/
def isBlank (c : Char) : Bool :=
  ranges.any fun (low, high) => low ≤ c.toNat && c.toNat ≤ high

/-- A text without the blanks before it. -/
def trimStart (text : List Char) : List Char :=
  text.dropWhile isBlank

/-- A text without the blanks after it. -/
def trimEnd (text : List Char) : List Char :=
  (text.reverse.dropWhile isBlank).reverse

/-- A text without the blanks around it. -/
def trim (text : List Char) : List Char :=
  trimEnd (trimStart text)

/-- The stretches of a text between its blanks, none of them empty. -/
def words : List Char → List (List Char)
  | [] => []
  | c :: rest =>
    if isBlank c then words rest
    else (c :: rest.takeWhile (!isBlank ·)) :: words (rest.dropWhile (!isBlank ·))
  termination_by text => text.length
  decreasing_by
    · simp
    · have := (List.dropWhile_sublist (l := rest) (!isBlank ·)).length_le
      simp only [List.length_cons]
      omega

/-- A text before its first blank and after it; all of it and nothing if it
has none. -/
def cut (text : List Char) : List Char × List Char :=
  (text.takeWhile (!isBlank ·), (text.dropWhile (!isBlank ·)).drop 1)

/-- A text that begins with no blank is left as it is. -/
theorem trimStart_of_head {c : Char} {rest : List Char} (h : isBlank c = false) :
    trimStart (c :: rest) = c :: rest := by
  rw [trimStart, List.dropWhile_cons, h, if_neg Bool.false_ne_true]

/-- A text without blanks is left as it is. -/
theorem trim_of_not_isBlank {text : List Char} (h : ∀ c ∈ text, isBlank c = false) :
    trim text = text := by
  have hstart : ∀ some : List Char, (∀ c ∈ some, isBlank c = false) →
      some.dropWhile isBlank = some := by
    intro some hsome
    cases some with
    | nil => rfl
    | cons c rest => exact trimStart_of_head (hsome c List.mem_cons_self)
  rw [trim, trimEnd, trimStart, hstart text h,
    hstart _ fun c hc => h c (List.mem_reverse.mp hc), List.reverse_reverse]

end RecordStore.Blank
