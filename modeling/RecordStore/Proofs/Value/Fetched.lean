import Mathlib
import RecordStore.Proofs.Collection.Measuring
import RecordStore.Proofs.Index.Decoding
import RecordStore.Proofs.Writer.ReadBack

/-!
# What is fetched can be decoded

How long a record is and what it holds are worked out apart, by a sizing and by
a decoder.  Where they could differ is in how many bytes they take a record to
have: a record that measures itself (`Sizing.Measures`) has all the bytes that
its decoder looks for, and no others.

`Decoded` is what becomes of such a record for each type of value.  The one that
is refused is a text of length zero, which has no room for its terminator.
-/

namespace RecordStore

section

variable {record bytes whole : Bytes} {count width : Nat}

/-! ## Numbers -/

theorem Bytes.leading?_of_prefix {n : Nat} (hfront : bytes <+: whole)
    (h : Bytes.leading? width bytes = some n) : Bytes.leading? width whole = some n := by
  obtain ⟨⟨front, back⟩, hsplit, rfl⟩ := Option.map_eq_some_iff.mp h
  obtain ⟨more, hmore, -⟩ := Bytes.split?_of_prefix hfront hsplit
  rw [Bytes.leading?, hmore]
  rfl

/-- A number is there if its bytes are. -/
theorem StoredValue.exists_number (h : width ≤ record.length) :
    ∃ n, StoredValue.number width record = .ok n := by
  cases hleading : Bytes.leading? width record with
  | none =>
      rw [Bytes.leading?, Option.map_eq_none_iff, Bytes.split?_eq_none_iff] at hleading
      exact absurd hleading (by omega)
  | some n => exact ⟨n, by rw [StoredValue.number, hleading]⟩

/-- Every four bytes are a number. -/
theorem Bytes.length_words (h : bytes.length = 4 * count) : (Bytes.words bytes).length = count := by
  induction count generalizing bytes with
  | zero =>
      obtain rfl := List.length_eq_zero_iff.mp h
      rfl
  | succ count ih =>
      match bytes, h with
      | _ :: _ :: _ :: _ :: rest, h =>
          simp only [List.length_cons] at h
          rw [Bytes.words, List.length_cons, ih (by omega)]

/-! ## Sizings -/

theorem Sizing.covers_fixed (name : String) (size : UInt32) : (Sizing.fixed name size).Covers := by
  intro header word hword
  rw [← Except.ok.inj hword]

/-- A length before bytes counts what comes after it. -/
theorem Sizing.lengthPrefixed_eq_ok_iff {word : UInt32} :
    Sizing.lengthPrefixed bytes = .ok word ↔
      ∃ length : Nat, Sizing.int16 bytes = some (length : Int) ∧ word.toNat = 2 + length := by
  unfold Sizing.lengthPrefixed
  cases hlength : Sizing.int16 bytes with
  | none => simp
  | some length =>
      obtain ⟨n, -, rfl⟩ := Option.map_eq_some_iff.mp hlength
      have hle := (Int16.ofNat n).toInt_lt
      simp only [Option.some.injEq]
      split
      · next hnegative =>
          refine iff_of_false (fun h => nomatch h) ?_
          rintro ⟨length, hsame, -⟩
          omega
      · next hnonneg =>
          have hword : (UInt32.ofNat (2 + (Int16.ofNat n).toInt.toNat)).toNat =
              2 + (Int16.ofNat n).toInt.toNat :=
            UInt32.toNat_ofNat_of_lt' (by rw [UInt32.size]; omega)
          rw [Except.ok.injEq, ← UInt32.toNat_inj, hword]
          constructor
          · intro hsame
            exact ⟨_, (Int.toNat_of_nonneg (by omega)).symm, hsame.symm⟩
          · rintro ⟨length, hsame, htotal⟩
            omega

theorem Sizing.covers_prefixed (name : String) :
    (Sizing.headed name 2 Sizing.lengthPrefixed).Covers := by
  intro header word hword
  obtain ⟨length, -, hlength⟩ := Sizing.lengthPrefixed_eq_ok_iff.mp hword
  rw [hlength]
  exact Nat.le_add_right 2 length

/-- **No type of value** is sized by bytes that are not in the record. -/
theorem ValueType.covers {type : ValueType} {sizing : Sizing} (h : type.sizing = .ok sizing) :
    sizing.Covers := by
  cases type with
  | string | double | boolean | javascript | ipAddress | wkb =>
      rw [← Except.ok.inj h]
      exact Sizing.covers_prefixed _
  | integer | single | byte | declination | azimuth =>
      rw [← Except.ok.inj h]
      exact Sizing.covers_fixed _ _
  | coordinate | object => cases h

/-- A record whose sizing is not variable is as long as any other. -/
theorem Sizing.Measures.length_eq {sizing : Sizing} (h : sizing.Measures record)
    (hfixed : sizing.isVariable = false) : record.length = sizing.initialBytes.toNat := by
  have hnone : sizing.fullLength? = none := Option.not_isSome_iff_eq_none.mp (by
    rw [← isVariable, hfixed]
    exact Bool.false_ne_true)
  have hfull := h.full
  rw [fullLength, hnone] at hfull
  rw [Except.ok.inj hfull, h.toNat_length]

/-- **The sizing of a type is variable** exactly if its records are not all of
one length. -/
theorem ValueType.isVariable_iff {type : ValueType} {sizing : Sizing}
    (h : type.sizing = .ok sizing) : sizing.isVariable = true ↔
      ∃ record other, sizing.Measures record ∧ sizing.Measures other ∧
        record.length ≠ other.length := by
  constructor
  · intro hvariable
    cases type with
    | string | double | boolean | javascript | ipAddress | wkb =>
        rw [← Except.ok.inj h]
        have hempty : RecordWriter.prefixed [] = .ok [0, 0] := rfl
        have hbyte : RecordWriter.prefixed [0] = .ok [1, 0, 0] := rfl
        exact ⟨_, _, ⟨sizes_prefixed _ hempty, by decide⟩, ⟨sizes_prefixed _ hbyte, by decide⟩,
          by decide⟩
    | integer | single | byte | declination | azimuth =>
        rw [← Except.ok.inj h] at hvariable
        cases hvariable
    | coordinate | object => cases h
  · rintro ⟨record, other, hrecord, hother, hne⟩
    by_contra hfixed
    rw [Bool.not_eq_true] at hfixed
    exact hne ((hrecord.length_eq hfixed).trans (hother.length_eq hfixed).symm)

/-- **A profile is accepted** if its length is one of 32 bits. -/
theorem Profile.length_eq_ok_iff {size : UInt32} : Profile.length bytes = .ok size ↔
    ∃ profile, Profile.header bytes = .ok profile ∧
      size.toNat = Profile.headerLength + 4 * profile.valueCount.toNat := by
  have hsize := size.toNat_lt
  unfold Profile.length
  cases hheader : Profile.header bytes with
  | error e => simp [bind, Except.bind]
  | ok profile =>
      simp only [bind, Except.bind, Except.ok.injEq, exists_eq_left', pure, Except.pure]
      split
      · next hfits =>
          rw [Except.ok.injEq, ← UInt32.toNat_inj, UInt32.toNat_ofNat_of_lt' hfits, eq_comm]
      · next hfits =>
          refine iff_of_false (fun h => nomatch h) ?_
          intro hlength
          exact hfits (hlength ▸ hsize)

theorem Profile.covers_sizing : Profile.sizing.Covers := by
  intro header word hword
  obtain ⟨profile, -, hlength⟩ := Profile.length_eq_ok_iff.mp hword
  rw [hlength]
  exact Nat.le_add_right 9 _

/-! ## Decoding -/

/-- What comes after the length of a record is as long as it says, and is what
the record holds. -/
theorem Sizing.Measures.payload {name : String}
    (h : (Sizing.headed name 2 Sizing.lengthPrefixed).Measures record) :
    Sizing.int16 record = some ((record.drop 2).length : Int) ∧
      StoredValue.payload record = .ok (record.drop 2) := by
  have hword := h.toNat_length
  obtain ⟨length, hint, hlength⟩ := Sizing.lengthPrefixed_eq_ok_iff.mp h.full
  obtain ⟨n, hn, hvalue⟩ := Option.map_eq_some_iff.mp hint
  have hwhole : Sizing.int16 record = some (length : Int) := by
    rw [Sizing.int16, Bytes.leading?_of_prefix (List.take_prefix ..) hn, Option.map_some, hvalue]
  have hrest : (record.drop 2).length = length := by
    rw [List.length_drop]
    omega
  have hfull : Sizing.lengthPrefixed record = .ok (UInt32.ofNat record.length) :=
    Sizing.lengthPrefixed_eq_ok_iff.mpr ⟨length, hwhole, hlength⟩
  refine ⟨by rw [hwhole, hrest], ?_⟩
  unfold StoredValue.payload
  rw [hfull]
  simp only [bind, Except.bind, hword, le_refl, if_true, pure, Except.pure, List.take_length]

/-- The types that are stored as text with a terminator. -/
def ValueType.IsText (type : ValueType) : Prop :=
  type ∈ [ValueType.string, .double, .boolean, .javascript]

/-- The types that are stored as a number of so many bytes. -/
def ValueType.IsNumber (type : ValueType) : Prop :=
  type ∈ [ValueType.integer, .single, .byte, .azimuth, .declination]

/-- What a fetched record comes to when it is read as a type.  The length of a
text, an address or a geometry stands in two bytes before it. -/
inductive Decoded (record : Bytes) : ValueType → Except StoreError StoredValue → Prop
  /-- A text stands between its length and its terminator. -/
  | text {type : ValueType} {start text : Bytes} {terminator : UInt8} (htype : type.IsText)
      (hstart : start.length = 2) (hlength : Sizing.int16 record = some (text.length + 1 : Int))
      (hrecord : record = start ++ text ++ [terminator]) : Decoded record type (.ok (.text text))
  /-- A text of length zero is without a terminator. -/
  | unterminated {type : ValueType} (htype : type.IsText)
      (hlength : Sizing.int16 record = some 0) :
      Decoded record type (.error (.corrupt .noTerminator))
  | ipAddress {start octets : Bytes} (hstart : start.length = 2)
      (hlength : Sizing.int16 record = some (octets.length : Int))
      (hrecord : record = start ++ octets) : Decoded record .ipAddress (.ok (.ipAddress octets))
  | wkb {start bytes : Bytes} (hstart : start.length = 2)
      (hlength : Sizing.int16 record = some (bytes.length : Int))
      (hrecord : record = start ++ bytes) : Decoded record .wkb (.ok (.wkb bytes))
  /-- A number is never refused. -/
  | number {type : ValueType} {value : StoredValue} (htype : type.IsNumber) :
      Decoded record type (.ok value)

/-- A text that measures itself lacks its terminator or ends with it. -/
theorem Decoded.of_text {type : ValueType} (htype : type.IsText)
    (h : Sizing.string.Measures record) :
    Decoded record type (.text <$> StoredValue.terminated record) := by
  obtain ⟨hint, hpayload⟩ := h.payload
  unfold StoredValue.terminated
  rw [hpayload]
  simp only [bind, Except.bind, pure, Except.pure]
  rcases List.eq_nil_or_concat (record.drop 2) with hnil | ⟨text, terminator, htext⟩
  · rw [if_pos hnil]
    refine .unterminated htype ?_
    rw [hint, hnil]
    rfl
  · rw [if_neg (by simp [htext]), htext]
    have hrecord := List.take_append_drop 2 record
    have hstart : (record.take 2).length = 2 := List.length_take_of_le h.initial
    rw [htext, List.concat_eq_append] at hint hrecord
    rw [List.concat_eq_append, List.dropLast_concat]
    refine .text htype hstart ?_ (by rw [List.append_assoc, hrecord])
    rw [hint, List.length_append, List.length_singleton, Nat.cast_succ]

/-- **A record that measures itself is decoded**, whatever its type. -/
theorem StoredValue.decoded {type : ValueType} {sizing : Sizing}
    (hsizing : type.sizing = .ok sizing) (h : sizing.Measures record) :
    Decoded record type (StoredValue.decode record type) := by
  have hrecord := (List.take_append_drop 2 record).symm
  cases type with
  | string | double | boolean | javascript =>
      obtain rfl := Except.ok.inj hsizing
      exact .of_text (by simp [ValueType.IsText]) h
  | ipAddress =>
      obtain rfl := Except.ok.inj hsizing
      obtain ⟨hint, hpayload⟩ := h.payload
      simp only [decode, hpayload]
      exact .ipAddress (List.length_take_of_le h.initial) hint hrecord
  | wkb =>
      obtain rfl := Except.ok.inj hsizing
      obtain ⟨hint, hpayload⟩ := h.payload
      simp only [decode, hpayload]
      exact .wkb (List.length_take_of_le h.initial) hint hrecord
  | integer | single =>
      obtain rfl := Except.ok.inj hsizing
      obtain ⟨n, hn⟩ := exists_number (show 4 ≤ record.length from h.initial)
      simp only [decode, hn]
      exact .number (by simp [ValueType.IsNumber])
  | azimuth | declination =>
      obtain rfl := Except.ok.inj hsizing
      obtain ⟨n, hn⟩ := exists_number (show 2 ≤ record.length from h.initial)
      simp only [decode, hn]
      exact .number (by simp [ValueType.IsNumber])
  | byte =>
      obtain rfl := Except.ok.inj hsizing
      cases record with
      | nil => exact absurd h.initial (by decide)
      | cons b rest => exact .number (by simp [ValueType.IsNumber])
  | coordinate | object => cases hsizing

/-- **A profile that measures itself** has all of its values. -/
theorem Profile.decode_of_measures (h : Profile.sizing.Measures record) : ∃ profile,
    Profile.decode record = .ok profile ∧
      profile.values.length = profile.valueCount.toNat := by
  have hword := h.toNat_length
  obtain ⟨profile, hheader, hlength⟩ := Profile.length_eq_ok_iff.mp h.full
  have hwhole := Profile.header_of_prefix (List.take_prefix ..) hheader
  have hneeded := Profile.length_eq_ok_iff.mpr ⟨profile, hwhole, hlength⟩
  refine ⟨{ profile with values := Bytes.words (record.drop Profile.headerLength) }, ?_, ?_⟩
  · unfold Profile.decode
    rw [hwhole, hneeded]
    simp only [bind, Except.bind, hword, le_refl, if_true, pure, Except.pure, List.take_length]
  · refine Bytes.length_words ?_
    show (record.drop Profile.headerLength).length = 4 * profile.valueCount.toNat
    rw [List.length_drop]
    omega

end

/-- **Sizing and decoding agree.**  A collection of records that differ in
length, without a cache, was made of arbitrary bytes, and storage may have become
anything since.  Whatever is fetched from it as a value of a type is decoded as
that type, except for a text of length zero, and whatever is fetched as a profile
has the number of values that it says, which is one whose length fits. -/
theorem Created.fetched_decodes {data : Bytes} {header : Header} {c : Collection}
    {start now : Storage} (hcreated : Created data header c start)
    (hvariable : c.layout.isFixed = false) (hcache : c.cacheId? = none) :
    (∀ offset type item, ((c.value offset type).run now).1 = .ok (some item) →
      Decoded item.bytes type (StoredValue.decode item.bytes type)) ∧
    (∀ offset item, ((c.get ⟨offset, Profile.sizing⟩).run now).1 = .ok (some item) →
      ∃ profile, Profile.decode item.bytes = .ok profile ∧
        profile.values.length = profile.valueCount.toNat) ∧
    ∀ bytes size, Profile.length bytes = .ok size ↔ ∃ profile,
      Profile.header bytes = .ok profile ∧
        size.toNat = Profile.headerLength + 4 * profile.valueCount.toNat := by
  refine ⟨?_, ?_, fun bytes size => Profile.length_eq_ok_iff⟩
  · intro offset type item hitem
    cases hsizing : type.sizing with
    | error e =>
        unfold Collection.value at hitem
        rw [hsizing] at hitem
        cases hitem
    | ok sizing =>
        rw [run_value hsizing] at hitem
        exact StoredValue.decoded hsizing
          (hcreated.measures_of_get hvariable hcache (ValueType.covers hsizing) hitem)
  · intro offset item hitem
    exact Profile.decode_of_measures
      (hcreated.measures_of_get hvariable hcache Profile.covers_sizing hitem)

/-- A text, and after it one that has no room for its terminator. -/
theorem Created.fetched_decodes_text : ∃ c rest,
    Collection.ofReader ⟨[3, 0, 97, 98, 0, 0, 0], 0⟩ ⟨0, 7, 0⟩ = .ok (c, rest) ∧
      c.layout.isFixed = false ∧ c.cacheId? = none ∧ ∀ now,
        ((c.value 0 .string).run now).1 = .ok (some ⟨[3, 0, 97, 98, 0], none⟩) ∧
        Decoded [3, 0, 97, 98, 0] .string (.ok (.text [97, 98])) ∧
        ((c.value 5 .string).run now).1 = .ok (some ⟨[0, 0], none⟩) ∧
        Decoded [0, 0] .string (.error (.corrupt .noTerminator)) := by
  refine ⟨_, _, rfl, by decide, rfl, ?_⟩
  intro now
  have hopen : Collection.ofReader ⟨[3, 0, 97, 98, 0, 0, 0], 0⟩ ⟨0, 7, 0⟩ = .ok _ := rfl
  obtain ⟨hvalues, -, -⟩ := @Created.fetched_decodes _ _ _ now now
    (.ofReader rfl (Nat.zero_le _) hopen now) (by decide) rfl
  exact ⟨rfl, hvalues 0 .string _ rfl, rfl, hvalues 5 .string _ rfl⟩

end RecordStore
