import Mathlib
import RecordStore.Text.Utf8

/-!
# Texts and their encodings

A text that is encoded and cut into chunks comes apart into its characters: the
first byte of a character says how many follow it, and every byte that follows
is in the range it allows.

`chunk_utf8EncodeChar` — a character is one chunk, whatever comes behind it;
`lossy_encode` — a text is read back from its encoding;
`encode_of_ascii` — the encoding of a text of ASCII characters.
-/

namespace RecordStore.Utf8

/-! ## Following bytes -/

/-- A byte that may follow in a character, made of six bits. -/
def tail (bits : Nat) : UInt8 :=
  UInt8.ofNat (bits % 64 + 128)

theorem toNat_tail (bits : Nat) : (tail bits).toNat = bits % 64 + 128 := by
  rw [tail, UInt8.toNat_ofNat']
  omega

theorem continuing_tails (tails : List Nat) (rest : List UInt8) :
    continuing tails.length 0x80 0xBF (tails.map tail ++ rest) = tails.length := by
  induction tails with
  | nil => rfl
  | cons bits tails ih =>
      have hrange : 0x80 ≤ tail bits ∧ tail bits ≤ 0xBF := by
        rw [UInt8.le_iff_toNat_le, UInt8.le_iff_toNat_le, toNat_tail]
        have hlow : (0x80 : UInt8).toNat = 128 := rfl
        have hhigh : (0xBF : UInt8).toNat = 191 := rfl
        omega
      rw [List.length_cons, List.map_cons, List.cons_append, continuing, if_pos hrange, ih,
        Nat.add_comm]

/-- A byte begins a character: it holds `bits` of it, so many bytes follow, and
the first of them may hold the six bits `second`. -/
def Begins (b : UInt8) (bits count second : Nat) : Prop :=
  ∃ lead, lead? b = some lead ∧ lead.bits = bits ∧ lead.follow = count ∧
    lead.low.toNat ≤ second % 64 + 128 ∧ second % 64 + 128 ≤ lead.high.toNat

theorem begins_two {n second : Nat} (hlow : 2 ≤ n) (hhigh : n < 32) :
    Begins (UInt8.ofNat (n + 192)) n 1 second := by
  have hbyte : (UInt8.ofNat (n + 192)).toNat = n + 192 := by
    rw [UInt8.toNat_ofNat']
    omega
  have htail := Nat.mod_lt second (by decide : 64 > 0)
  refine ⟨⟨1, 0x80, 0xBF, n⟩, ?_, rfl, rfl, Nat.le_add_left _ _, Nat.le_of_lt_succ
    (Nat.add_lt_add_right htail 128)⟩
  rw [lead?, hbyte, if_pos (by omega), Nat.add_sub_cancel]

/-- A second byte of few bits would spell a shorter character, and one of many
bits after 13 half of a surrogate pair. -/
theorem begins_three {n second : Nat} (hhigh : n < 16) (hfirst : n = 0 → 32 ≤ second % 64)
    (hsurrogate : n = 13 → second % 64 < 32) : Begins (UInt8.ofNat (n + 224)) n 2 second := by
  have hbyte : (UInt8.ofNat (n + 224)).toNat = n + 224 := by
    rw [UInt8.toNat_ofNat']
    omega
  have htail := Nat.mod_lt second (by decide : 64 > 0)
  unfold Begins
  rw [lead?, hbyte, if_neg (by omega : ¬ (0xC2 ≤ n + 224 ∧ n + 224 ≤ 0xDF)), Nat.add_sub_cancel]
  by_cases hzero : n = 0
  · rw [if_pos (by omega)]
    exact ⟨_, rfl, rfl, rfl, Nat.add_le_add_right (hfirst hzero) 128,
      Nat.le_of_lt_succ (Nat.add_lt_add_right htail 128)⟩
  rw [if_neg (by omega)]
  by_cases hhalf : n = 13
  · rw [if_pos (by omega)]
    exact ⟨_, rfl, rfl, rfl, Nat.le_add_left _ _,
      Nat.le_of_lt_succ (Nat.add_lt_add_right (hsurrogate hhalf) 128)⟩
  rw [if_neg (by omega), if_pos (by omega)]
  exact ⟨_, rfl, rfl, rfl, Nat.le_add_left _ _,
    Nat.le_of_lt_succ (Nat.add_lt_add_right htail 128)⟩

theorem begins_four {n second : Nat} (hhigh : n < 5) (hfirst : n = 0 → 16 ≤ second % 64)
    (hlast : n = 4 → second % 64 < 16) : Begins (UInt8.ofNat (n + 240)) n 3 second := by
  have hbyte : (UInt8.ofNat (n + 240)).toNat = n + 240 := by
    rw [UInt8.toNat_ofNat']
    omega
  have htail := Nat.mod_lt second (by decide : 64 > 0)
  unfold Begins
  rw [lead?, hbyte, if_neg (by omega : ¬ (0xC2 ≤ n + 240 ∧ n + 240 ≤ 0xDF)), if_neg (by omega),
    if_neg (by omega), if_neg (by omega), Nat.add_sub_cancel]
  by_cases hzero : n = 0
  · rw [if_pos (by omega)]
    exact ⟨_, rfl, rfl, rfl, Nat.add_le_add_right (hfirst hzero) 128,
      Nat.le_of_lt_succ (Nat.add_lt_add_right htail 128)⟩
  rw [if_neg (by omega)]
  by_cases hfour : n = 4
  · rw [if_pos (by omega)]
    exact ⟨_, rfl, rfl, rfl, Nat.le_add_left _ _,
      Nat.le_of_lt_succ (Nat.add_lt_add_right (hlast hfour) 128)⟩
  rw [if_neg (by omega), if_pos (by omega)]
  exact ⟨_, rfl, rfl, rfl, Nat.le_add_left _ _,
    Nat.le_of_lt_succ (Nat.add_lt_add_right htail 128)⟩

/-- **A character of more than one byte** is a chunk if its first byte begins
it. -/
theorem chunk_of_begins {c : Char} {b : UInt8} {bits second : Nat} (tails : List Nat)
    (h : Begins b bits (tails.length + 1) second) (hwide : 0x80 ≤ b.toNat)
    (hpoint : codePoint bits ((second :: tails).map tail) = c.toNat) (rest : List UInt8) :
    chunk b ((second :: tails).map tail ++ rest) = ⟨b :: (second :: tails).map tail, some c⟩ := by
  obtain ⟨lead, hlead, rfl, hcount, hlow, hhigh⟩ := h
  have hnarrow : ¬ b < 0x80 := by
    rw [UInt8.lt_iff_toNat_lt]
    exact Nat.not_lt.mpr hwide
  have hfirst : lead.low ≤ tail second ∧ tail second ≤ lead.high := by
    rw [UInt8.le_iff_toNat_le, UInt8.le_iff_toNat_le, toNat_tail]
    exact ⟨hlow, hhigh⟩
  have hcontinuing : continuing lead.follow lead.low lead.high
      ((second :: tails).map tail ++ rest) = ((second :: tails).map tail).length := by
    rw [hcount, List.map_cons, List.cons_append, continuing, if_pos hfirst, continuing_tails,
      List.length_cons, List.length_map, Nat.add_comm]
  have hall : ((second :: tails).map tail).length = lead.follow := by
    rw [hcount, List.length_map, List.length_cons]
  rw [chunk, if_neg hnarrow, hlead]
  simp only
  rw [hcontinuing, List.take_left, if_pos hall, hpoint, Char.ofNat_toNat]

theorem codePoint_tails (bits : Nat) (tails : List Nat) :
    codePoint bits (tails.map tail) = tails.foldl (fun value t => value * 64 + t % 64) bits := by
  rw [codePoint, List.foldl_map]
  have hstep : (fun (value : Nat) t => value * 64 + (tail t).toNat % 64) =
      fun value t => value * 64 + t % 64 := by
    funext value t
    rw [toNat_tail]
    omega
  rw [hstep]

/-! ## Characters -/

/-- **A character is one chunk**, whatever comes behind it. -/
theorem chunk_utf8EncodeChar (c : Char) : ∃ b follow, String.utf8EncodeChar c = b :: follow ∧
    ∀ rest, chunk b (follow ++ rest) = ⟨b :: follow, some c⟩ := by
  have hvalid : c.toNat < 0xD800 ∨ 0xDFFF < c.toNat ∧ c.toNat < 0x110000 := c.valid
  have hvalue : c.val.toNat = c.toNat := rfl
  rw [String.utf8EncodeChar.eq_1, hvalue]
  generalize hv : c.toNat = v at hvalid
  have hwide : ∀ n, 0x80 ≤ n → n < 256 → 0x80 ≤ (UInt8.ofNat n).toNat := by
    intro n hlow hhigh
    rw [UInt8.toNat_ofNat']
    omega
  by_cases hone : v ≤ 127
  · rw [if_pos hone]
    refine ⟨_, [], rfl, ?_⟩
    intro rest
    have hbyte : (UInt8.ofNat v).toNat = v := by
      rw [UInt8.toNat_ofNat']
      omega
    have hsmall : UInt8.ofNat v < 0x80 := by
      rw [UInt8.lt_iff_toNat_lt, hbyte]
      exact Nat.lt_succ_of_le hone
    rw [chunk, if_pos hsmall, hbyte, ← hv, Char.ofNat_toNat]
  rw [if_neg hone]
  by_cases htwo : v ≤ 2047
  · rw [if_pos htwo]
    refine ⟨_, [v].map tail, rfl, chunk_of_begins []
      (begins_two (by omega) (by omega)) (hwide _ (by omega) (by omega)) ?_⟩
    rw [codePoint_tails, hv]
    simp only [List.foldl_cons, List.foldl_nil]
    omega
  rw [if_neg htwo]
  by_cases hthree : v ≤ 65535
  · rw [if_pos hthree]
    refine ⟨_, [v / 64, v].map tail, rfl, chunk_of_begins [v]
      (begins_three (by omega) (by omega) (by omega)) (hwide _ (by omega) (by omega)) ?_⟩
    rw [codePoint_tails, hv]
    simp only [List.foldl_cons, List.foldl_nil]
    omega
  · rw [if_neg hthree]
    refine ⟨_, [v / 4096, v / 64, v].map tail, rfl, chunk_of_begins [v / 64, v]
      (begins_four (by omega) (by omega) (by omega)) (hwide _ (by omega) (by omega)) ?_⟩
    rw [codePoint_tails, hv]
    simp only [List.foldl_cons, List.foldl_nil]
    omega

theorem chunks_utf8EncodeChar_append (c : Char) (rest : List UInt8) :
    chunks (String.utf8EncodeChar c ++ rest) =
      ⟨String.utf8EncodeChar c, some c⟩ :: chunks rest := by
  obtain ⟨b, follow, hbytes, hchunk⟩ := chunk_utf8EncodeChar c
  rw [hbytes, List.cons_append, chunks, hchunk]
  simp only [List.length_cons, Nat.add_sub_cancel, List.drop_left]

/-! ## Texts -/

/-- The chunks of an encoding are the characters of the text. -/
theorem chunks_flatMap_utf8EncodeChar (text : List Char) :
    chunks (text.flatMap String.utf8EncodeChar) =
      text.map fun c => ⟨String.utf8EncodeChar c, some c⟩ := by
  induction text with
  | nil => rw [List.flatMap_nil, chunks, List.map_nil]
  | cons c rest ih => rw [List.flatMap_cons, chunks_utf8EncodeChar_append, ih, List.map_cons]

/-- **A text is read back from its encoding.** -/
theorem lossy_encode (text : String) : lossy (encode text) = text := by
  rw [lossy, encode, chunks_flatMap_utf8EncodeChar, List.map_map]
  exact (congrArg String.ofList (List.map_id _)).trans String.ofList_toList

theorem encode_injective : Function.Injective encode :=
  Function.LeftInverse.injective lossy_encode

theorem encode_cons (c : Char) (text : List Char) : encode (String.ofList (c :: text)) =
    String.utf8EncodeChar c ++ encode (String.ofList text) := by
  simp only [encode, String.toList_ofList, List.flatMap_cons]

theorem encode_append (front rest : List Char) : encode (String.ofList (front ++ rest)) =
    encode (String.ofList front) ++ encode (String.ofList rest) := by
  simp only [encode, String.toList_ofList, List.flatMap_append]

/-- An ASCII character is encoded as its code. -/
theorem utf8EncodeChar_of_ascii {c : Char} (h : c.toNat < 128) :
    String.utf8EncodeChar c = [UInt8.ofNat c.toNat] := by
  have hsmall : c.val.toNat ≤ 127 := Nat.le_of_lt_succ h
  rw [String.utf8EncodeChar.eq_1, if_pos hsmall]
  rfl

/-- A character that is not of ASCII begins with a byte that does not follow in
one. -/
theorem utf8EncodeChar_of_not_ascii {c : Char} (h : 128 ≤ c.toNat) :
    ∃ b follow, String.utf8EncodeChar c = b :: follow ∧ 0xC0 ≤ b.toNat := by
  have hvalid : c.toNat < 0xD800 ∨ 0xDFFF < c.toNat ∧ c.toNat < 0x110000 := c.valid
  have hvalue : c.val.toNat = c.toNat := rfl
  have hbyte : ∀ n, 0xC0 ≤ n → n < 256 → 0xC0 ≤ (UInt8.ofNat n).toNat := by
    intro n hlow hhigh
    rw [UInt8.toNat_ofNat']
    omega
  rw [String.utf8EncodeChar.eq_1, hvalue, if_neg (Nat.not_le.mpr h)]
  by_cases htwo : c.toNat ≤ 2047
  · rw [if_pos htwo]
    exact ⟨_, _, rfl, hbyte _ (by omega) (by omega)⟩
  · rw [if_neg htwo]
    by_cases hthree : c.toNat ≤ 65535
    · rw [if_pos hthree]
      exact ⟨_, _, rfl, hbyte _ (by omega) (by omega)⟩
    · rw [if_neg hthree]
      exact ⟨_, _, rfl, hbyte _ (by omega) (by omega)⟩

/-- The encoding of a text of ASCII characters. -/
theorem encode_of_ascii {text : List Char} (h : ∀ c ∈ text, c.toNat < 128) :
    encode (String.ofList text) = text.map fun c => UInt8.ofNat c.toNat := by
  rw [encode, String.toList_ofList]
  induction text with
  | nil => rfl
  | cons c rest ih =>
      rw [List.flatMap_cons, utf8EncodeChar_of_ascii (h c List.mem_cons_self),
        ih fun d hd => h d (List.mem_cons_of_mem c hd)]
      rfl

theorem lossy_of_ascii {text : List Char} (h : ∀ c ∈ text, c.toNat < 128) :
    lossy (text.map fun c => UInt8.ofNat c.toNat) = String.ofList text := by
  rw [← encode_of_ascii h, lossy_encode]

end RecordStore.Utf8
