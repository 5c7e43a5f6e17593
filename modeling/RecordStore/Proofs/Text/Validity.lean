import Mathlib
import RecordStore.Proofs.Text.Encoding

/-!
# Bytes that are UTF-8

A chunk that is a character is the encoding of that character
(`bytes_of_char?_chunk`), so bytes have a text exactly if they are its encoding
(`decode?_eq_some_iff`).  Of other bytes the longest front part that encodes a
text is kept (`longestValid_greatest`).
-/

namespace RecordStore.Utf8

variable {b first second third fourth : UInt8} {bits count : Nat} {rest bytes : List UInt8}
  {c : Char}

/-! ## Characters of several bytes -/

theorem val_ofNat {n : Nat} (h : n < 0xD800 ∨ 0xDFFF < n ∧ n < 0x110000) :
    (Char.ofNat n).val.toNat = n := by
  have hvalid : n.isValidChar := h
  have hchar := Char.toNat_ofNat n
  rwa [if_pos hvalid] at hchar

/-- A byte that can follow in a character. -/
def Follows (b : UInt8) : Prop :=
  128 ≤ b.toNat ∧ b.toNat < 192

theorem follows_of_le (hlow : 0x80 ≤ b) (hhigh : b ≤ 0xBF) : Follows b :=
  ⟨UInt8.le_iff_toNat_le.mp hlow, Nat.lt_succ_of_le (UInt8.le_iff_toNat_le.mp hhigh)⟩

theorem eq_ofNat {n : Nat} (h : b.toNat = n) : UInt8.ofNat n = b := by
  rw [← h, UInt8.ofNat_toNat]

theorem utf8EncodeChar_two (hfirst : first.toNat = bits + 192) (hlow : 2 ≤ bits)
    (hhigh : bits < 32) (hsecond : Follows second) :
    String.utf8EncodeChar (Char.ofNat (bits * 64 + second.toNat % 64)) = [first, second] := by
  obtain ⟨hsecond, hsecond'⟩ := hsecond
  rw [String.utf8EncodeChar.eq_1, val_ofNat (by omega), if_neg (by omega), if_pos (by omega),
    eq_ofNat (b := first) (by omega), eq_ofNat (b := second) (by omega)]

/-- The second byte keeps the character from being a shorter one, and from being
half of a surrogate pair. -/
theorem utf8EncodeChar_three (hfirst : first.toNat = bits + 224) (hhigh : bits < 16)
    (hshort : bits = 0 → 160 ≤ second.toNat) (hhalf : bits = 13 → second.toNat < 160)
    (hsecond : Follows second) (hthird : Follows third) :
    String.utf8EncodeChar
      (Char.ofNat ((bits * 64 + second.toNat % 64) * 64 + third.toNat % 64)) =
        [first, second, third] := by
  obtain ⟨hsecond, hsecond'⟩ := hsecond
  obtain ⟨hthird, hthird'⟩ := hthird
  rw [String.utf8EncodeChar.eq_1, val_ofNat (by omega), if_neg (by omega), if_neg (by omega),
    if_pos (by omega), eq_ofNat (b := first) (by omega), eq_ofNat (b := second) (by omega),
    eq_ofNat (b := third) (by omega)]

theorem utf8EncodeChar_four (hfirst : first.toNat = bits + 240) (hhigh : bits < 5)
    (hshort : bits = 0 → 144 ≤ second.toNat) (hlast : bits = 4 → second.toNat < 144)
    (hsecond : Follows second) (hthird : Follows third) (hfourth : Follows fourth) :
    String.utf8EncodeChar
      (Char.ofNat (((bits * 64 + second.toNat % 64) * 64 + third.toNat % 64) * 64 +
        fourth.toNat % 64)) = [first, second, third, fourth] := by
  obtain ⟨hsecond, hsecond'⟩ := hsecond
  obtain ⟨hthird, hthird'⟩ := hthird
  obtain ⟨hfourth, hfourth'⟩ := hfourth
  rw [String.utf8EncodeChar.eq_1, val_ofNat (by omega), if_neg (by omega), if_neg (by omega),
    if_neg (by omega), eq_ofNat (b := first) (by omega), eq_ofNat (b := second) (by omega),
    eq_ofNat (b := third) (by omega), eq_ofNat (b := fourth) (by omega)]

/-! ## Leads -/

/-- What a first byte says of a character: how many bytes follow, its bits, and
what the second byte may be.  Few bits ask for a second byte that makes up for
them, and many for one that does not go too far. -/
inductive Leads (b : UInt8) (lead : Lead) : Prop
  | two (hfollow : lead.follow = 1) (hbits : b.toNat = lead.bits + 192) (hlow : 2 ≤ lead.bits)
      (hhigh : lead.bits < 32)
  | three (hfollow : lead.follow = 2) (hbits : b.toNat = lead.bits + 224)
      (hhigh : lead.bits < 16) (hshort : lead.bits = 0 → 160 ≤ lead.low.toNat)
      (hhalf : lead.bits = 13 → lead.high.toNat < 160)
  | four (hfollow : lead.follow = 3) (hbits : b.toNat = lead.bits + 240) (hhigh : lead.bits < 5)
      (hshort : lead.bits = 0 → 144 ≤ lead.low.toNat)
      (hlast : lead.bits = 4 → lead.high.toNat < 144)

/-- The second byte is one that can follow, whatever the first says of it. -/
theorem leads_of_lead? {lead : Lead} (h : lead? b = some lead) :
    Leads b lead ∧ 128 ≤ lead.low.toNat ∧ lead.high.toNat < 192 := by
  unfold lead? at h
  simp only at h
  split_ifs at h
  all_goals
    obtain rfl := Option.some.inj h
    refine ⟨?_, by simp, by simp⟩
  · apply Leads.two rfl <;> simp only <;> omega
  all_goals first
    | apply Leads.three rfl <;> simp <;> omega
    | apply Leads.four rfl <;> simp <;> omega

theorem Leads.exists_follow {lead : Lead} (h : Leads b lead) :
    ∃ count, lead.follow = count + 1 := by
  cases h with
  | two hfollow | three hfollow | four hfollow => exact ⟨_, hfollow⟩

/-- The bytes of a character spell it. -/
theorem Leads.utf8EncodeChar {lead : Lead} {tails : List UInt8} (h : Leads b lead)
    (hcount : tails.length + 1 = lead.follow) (hlow : lead.low ≤ second)
    (hhigh : second ≤ lead.high) (hsecond : Follows second) (htails : ∀ t ∈ tails, Follows t) :
    String.utf8EncodeChar (Char.ofNat (codePoint lead.bits (second :: tails))) =
      b :: second :: tails := by
  rw [UInt8.le_iff_toNat_le] at hlow hhigh
  cases h with
  | two hfollow hbits hleast hmost =>
      obtain rfl := List.length_eq_zero_iff.mp (by omega : tails.length = 0)
      exact utf8EncodeChar_two hbits hleast hmost hsecond
  | three hfollow hbits hmost hshort hhalf =>
      obtain ⟨third, rfl⟩ := List.length_eq_one_iff.mp (by omega : tails.length = 1)
      exact utf8EncodeChar_three hbits hmost (by omega) (by omega) hsecond
        (htails third List.mem_cons_self)
  | four hfollow hbits hmost hshort hlast =>
      obtain ⟨third, fourth, rfl⟩ := List.length_eq_two.mp (by omega : tails.length = 2)
      exact utf8EncodeChar_four hbits hmost (by omega) (by omega) hsecond
        (htails third List.mem_cons_self)
        (htails fourth (List.mem_cons_of_mem third List.mem_cons_self))

/-! ## Chunks -/

/-- The bytes that continue a character are all of those that can follow. -/
theorem follows_of_mem_continuing (h : b ∈ rest.take (continuing count 0x80 0xBF rest)) :
    Follows b := by
  induction count generalizing rest with
  | zero => simp [continuing] at h
  | succ count ih =>
      cases rest with
      | nil => simp at h
      | cons next rest =>
          rw [continuing] at h
          split at h
          · next hnext =>
              rw [Nat.add_comm, List.take_succ_cons, List.mem_cons] at h
              rcases h with rfl | h
              · exact follows_of_le hnext.1 hnext.2
              · exact ih h
          · simp at h

/-- The bytes that continue a character, if all of them are there. -/
theorem exists_continuing {low high : UInt8} {all : List UInt8}
    (h : all = rest.take (continuing (count + 1) low high rest)) (hall : all.length = count + 1) :
    ∃ second tails, all = second :: tails ∧ (low ≤ second ∧ second ≤ high) ∧
      tails.length = count ∧ ∀ t ∈ tails, Follows t := by
  cases rest with
  | nil => simp [h] at hall
  | cons next rest =>
      rw [continuing] at h
      split at h
      · next hnext =>
          rw [Nat.add_comm, List.take_succ_cons] at h
          subst h
          exact ⟨next, _, rfl, hnext, Nat.succ.inj hall, fun t ht => follows_of_mem_continuing ht⟩
      · simp [h] at hall

/-- **A chunk that is a character is its encoding.** -/
theorem bytes_of_char?_chunk (h : (chunk b rest).char? = some c) :
    (chunk b rest).bytes = String.utf8EncodeChar c := by
  unfold chunk at h ⊢
  split at h
  · next hascii =>
      have hlt : b.toNat < 128 := UInt8.lt_iff_toNat_lt.mp hascii
      have hvalue : (Char.ofNat b.toNat).toNat = b.toNat := val_ofNat (Or.inl (by omega))
      obtain rfl := Option.some.inj h
      rw [if_pos hascii, utf8EncodeChar_of_ascii (hvalue.trans_lt hlt), hvalue, UInt8.ofNat_toNat]
  rw [if_neg ‹_›]
  cases hlead : lead? b with
  | none => rw [hlead] at h; cases h
  | some lead =>
      simp only [hlead] at h ⊢
      split at h
      · next hall =>
          rw [if_pos hall]
          obtain rfl := Option.some.inj h
          obtain ⟨hleads, hleast, hmost⟩ := leads_of_lead? hlead
          obtain ⟨count, hcount⟩ := hleads.exists_follow
          rw [hcount] at hall ⊢
          obtain ⟨second, tails, hbytes, ⟨hlow, hhigh⟩, hlength, htails⟩ :=
            exists_continuing rfl hall
          have hsecond : Follows second :=
            ⟨hleast.trans (UInt8.le_iff_toNat_le.mp hlow),
              (UInt8.le_iff_toNat_le.mp hhigh).trans_lt hmost⟩
          have hspelled := hleads.utf8EncodeChar (by omega) hlow hhigh hsecond htails
          rw [hbytes, hspelled]
      · cases h

theorem bytes_of_mem_chunks {k : Chunk} (hk : k ∈ chunks bytes) (h : k.char? = some c) :
    k.bytes = String.utf8EncodeChar c := by
  fun_induction chunks bytes with
  | case1 => cases hk
  | case2 b rest first ih =>
      rcases List.mem_cons.mp hk with rfl | hk
      · exact bytes_of_char?_chunk h
      · exact ih hk

/-! ## Texts -/

/-- A text is read back from its encoding as its characters. -/
theorem decode?_encode (text : String) : decode? (encode text) = some text.toList := by
  have hchars : ∀ chars : List Char,
      (chars.map fun c => (⟨String.utf8EncodeChar c, some c⟩ : Chunk)).mapM Chunk.char? =
        some chars := by
    intro chars
    induction chars with
    | nil => rfl
    | cons c rest ih => rw [List.map_cons, List.mapM_cons, ih]; rfl
  rw [decode?, encode, chunks_flatMap_utf8EncodeChar, hchars]

/-- Chunks that are all characters are the encoding of those. -/
theorem flatMap_bytes_eq_encode {parts : List Chunk}
    (h : ∀ part ∈ parts, ∀ c, part.char? = some c → part.bytes = String.utf8EncodeChar c)
    {text : List Char} (hchars : parts.mapM Chunk.char? = some text) :
    parts.flatMap Chunk.bytes = encode (String.ofList text) := by
  induction parts generalizing text with
  | nil =>
      obtain rfl := Option.some.inj hchars
      rfl
  | cons part parts ih =>
      rw [List.forall_mem_cons] at h
      rw [List.mapM_cons, Option.bind_eq_bind, Option.bind_eq_some_iff] at hchars
      obtain ⟨c, hc, hchars⟩ := hchars
      obtain ⟨rest, hrest, hsame⟩ := Option.bind_eq_some_iff.mp hchars
      obtain rfl := Option.some.inj hsame
      rw [List.flatMap_cons, ih h.2 hrest, h.1 c hc, encode_cons]

/-- **Bytes have a text exactly if they are its encoding.** -/
theorem decode?_eq_some_iff {text : List Char} :
    decode? bytes = some text ↔ bytes = encode (String.ofList text) := by
  constructor
  · intro h
    rw [← flatMap_bytes_chunks bytes]
    exact flatMap_bytes_eq_encode (fun part hpart c => bytes_of_mem_chunks hpart) h
  · rintro rfl
    rw [decode?_encode, String.toList_ofList]

/-- Characters are kept, and so is what is kept of the bytes behind them. -/
theorem longestValid_append (text : List Char) (rest : List UInt8) :
    longestValid (encode (String.ofList text) ++ rest) =
      encode (String.ofList text) ++ longestValid rest := by
  induction text with
  | nil => rfl
  | cons c text ih =>
      rw [encode_cons, List.append_assoc, longestValid, chunks_utf8EncodeChar_append,
        List.takeWhile_cons_of_pos rfl, List.flatMap_cons, ← longestValid, ih, List.append_assoc]

theorem mapM_char?_takeWhile (parts : List Chunk) :
    ∃ text, (parts.takeWhile (·.char?.isSome)).mapM Chunk.char? = some text := by
  induction parts with
  | nil => exact ⟨[], rfl⟩
  | cons part parts ih =>
      cases hchar : part.char? with
      | none =>
          rw [List.takeWhile_cons_of_neg (by rw [hchar]; decide)]
          exact ⟨[], rfl⟩
      | some c =>
          obtain ⟨text, htext⟩ := ih
          rw [List.takeWhile_cons_of_pos (by rw [hchar]; rfl), List.mapM_cons, hchar, htext]
          exact ⟨c :: text, rfl⟩

/-- **The longest front part that is UTF-8 is kept**: it encodes a text, and any
text whose encoding the bytes begin with is at the front of it. -/
theorem longestValid_greatest (bytes : List UInt8) :
    longestValid bytes <+: bytes ∧ (∃ text, longestValid bytes = encode text) ∧
      ∀ text, encode text <+: bytes → encode text <+: longestValid bytes := by
  refine ⟨?_, ?_, ?_⟩
  · conv_rhs => rw [← flatMap_bytes_chunks bytes]
    exact (List.takeWhile_prefix _).flatMap Chunk.bytes
  · obtain ⟨text, htext⟩ := mapM_char?_takeWhile (chunks bytes)
    refine ⟨String.ofList text, flatMap_bytes_eq_encode ?_ htext⟩
    intro part hpart c
    exact bytes_of_mem_chunks ((List.takeWhile_prefix _).subset hpart)
  · rintro text ⟨rest, rfl⟩
    rw [← String.ofList_toList (s := text), longestValid_append]
    exact List.prefix_append _ _

end RecordStore.Utf8
