/-!
# UTF-8

Stored text is bytes that should be UTF-8 and may not be.  `chunks` cuts
bytes into characters and **malformed stretches**: a stretch is as long as
some character's encoding could still have matched, and at least one byte.

* `flatMap_bytes_chunks` — the chunks put together are the bytes, so nothing
  is lost by the cutting;
* `longestValid` keeps the characters before the first malformed stretch,
  `lossy` puts U+FFFD in place of every stretch.
-/

namespace RecordStore.Utf8

/-- A character with its encoding, or a stretch that encodes none. -/
structure Chunk where
  /-- The bytes of the chunk. -/
  bytes : List UInt8
  /-- The character they encode, if they do. -/
  char? : Option Char
  deriving DecidableEq

/-- What may follow the first byte of a character. -/
structure Lead where
  /-- How many bytes follow. -/
  follow : Nat
  /-- Least value of the second byte. -/
  low : UInt8
  /-- Greatest value of the second byte. -/
  high : UInt8
  /-- The bits of the first byte that belong to the character. -/
  bits : Nat

/-- What may follow a byte that begins a character of more than one byte;
none if it begins none. -/
def lead? (b : UInt8) : Option Lead :=
  let n := b.toNat
  if 0xC2 ≤ n ∧ n ≤ 0xDF then some ⟨1, 0x80, 0xBF, n - 0xC0⟩
  else if n = 0xE0 then some ⟨2, 0xA0, 0xBF, n - 0xE0⟩
  else if n = 0xED then some ⟨2, 0x80, 0x9F, n - 0xE0⟩
  else if 0xE1 ≤ n ∧ n ≤ 0xEF then some ⟨2, 0x80, 0xBF, n - 0xE0⟩
  else if n = 0xF0 then some ⟨3, 0x90, 0xBF, n - 0xF0⟩
  else if n = 0xF4 then some ⟨3, 0x80, 0x8F, n - 0xF0⟩
  else if 0xF1 ≤ n ∧ n ≤ 0xF3 then some ⟨3, 0x80, 0xBF, n - 0xF0⟩
  else none

/-- How many of the next `count` bytes continue a character whose next byte
must lie between `low` and `high`. -/
def continuing : (count : Nat) → (low high : UInt8) → List UInt8 → Nat
  | 0, _, _, _ => 0
  | _ + 1, _, _, [] => 0
  | count + 1, low, high, b :: rest =>
    if low ≤ b ∧ b ≤ high then 1 + continuing count 0x80 0xBF rest else 0

/-- The code point of a character from the bits of its first byte and the
bytes that follow. -/
def codePoint (bits : Nat) (follow : List UInt8) : Nat :=
  follow.foldl (fun value b => value * 64 + b.toNat % 64) bits

/-- The chunk that begins with `b`. -/
def chunk (b : UInt8) (rest : List UInt8) : Chunk :=
  if b < 0x80 then ⟨[b], some (Char.ofNat b.toNat)⟩
  else
    match lead? b with
    | none => ⟨[b], none⟩
    | some lead =>
      let follow := rest.take (continuing lead.follow lead.low lead.high rest)
      if follow.length = lead.follow then
        ⟨b :: follow, some (Char.ofNat (codePoint lead.bits follow))⟩
      else ⟨b :: follow, none⟩

/-- A chunk is never empty: it begins with the byte it was asked for, and
goes on with some of the next bytes. -/
theorem chunk_bytes (b : UInt8) (rest : List UInt8) :
    ∃ n, (chunk b rest).bytes = b :: rest.take n := by
  unfold chunk
  split
  · exact ⟨0, by simp⟩
  · split
    · exact ⟨0, by simp⟩
    · simp only
      split <;> exact ⟨_, rfl⟩

/-- Bytes cut into characters and malformed stretches. -/
def chunks : List UInt8 → List Chunk
  | [] => []
  | b :: rest =>
    let first := chunk b rest
    first :: chunks (rest.drop (first.bytes.length - 1))
  termination_by bytes => bytes.length
  decreasing_by simp only [List.length_drop, List.length_cons]; omega

/-- **Cutting loses nothing.** -/
theorem flatMap_bytes_chunks (bytes : List UInt8) :
    (chunks bytes).flatMap Chunk.bytes = bytes := by
  fun_induction chunks bytes with
  | case1 => rfl
  | case2 b rest first ih =>
    obtain ⟨n, hn⟩ := chunk_bytes b rest
    have hfirst : first.bytes = b :: rest.take n := hn
    rw [List.flatMap_cons, ih, hfirst]
    have kept : (rest.take n).length = min n rest.length := List.length_take
    rw [List.length_cons, Nat.add_sub_cancel, kept, List.cons_append]
    congr 1
    rcases Nat.le_total n rest.length with h | h
    · rw [Nat.min_eq_left h, List.take_append_drop]
    · rw [Nat.min_eq_right h, List.take_of_length_le h, List.drop_length, List.append_nil]

/-- The longest front part that is UTF-8. -/
def longestValid (bytes : List UInt8) : List UInt8 :=
  ((chunks bytes).takeWhile (·.char?.isSome)).flatMap Chunk.bytes

/-- The characters that bytes encode; none if any byte is part of no
character. -/
def decode? (bytes : List UInt8) : Option (List Char) :=
  (chunks bytes).mapM Chunk.char?

/-- The characters that bytes encode, with U+FFFD for every malformed
stretch. -/
def lossy (bytes : List UInt8) : String :=
  String.ofList ((chunks bytes).map fun c => c.char?.getD '\uFFFD')

/-- The encoding of a text. -/
def encode (text : String) : List UInt8 :=
  text.toList.flatMap String.utf8EncodeChar

end RecordStore.Utf8
