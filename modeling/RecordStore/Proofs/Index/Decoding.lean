import Mathlib
import RecordStore.Index.Record
import RecordStore.Proofs.Collection.Streaming

/-!
# Records of a data set, and what comes after them

Decoding a record looks at the bytes it needs and at none after them.  So it
does not matter how many bytes more are fetched: what a prefix decodes to, the
whole decodes to (`ProfileOffset.decode_of_prefix`, `Profile.decode_of_prefix`,
`ValueRecord.decode_of_prefix`).
-/

namespace RecordStore

section

variable {bytes whole : Bytes} {count : Nat}

theorem Bytes.split?_of_prefix {front back : Bytes} (hfront : bytes <+: whole)
    (h : Bytes.split? count bytes = some (front, back)) :
    ∃ more, Bytes.split? count whole = some (front, more) ∧ back <+: more := by
  obtain ⟨rest, rfl⟩ := hfront
  obtain ⟨rfl, hlength⟩ := Bytes.split?_eq_some_iff.mp h
  refine ⟨back ++ rest, Bytes.split?_eq_some_iff.mpr ⟨?_, hlength⟩, List.prefix_append ..⟩
  rw [List.append_assoc]

/-- **Fields are read from the front.** -/
theorem Bytes.fields?_of_prefix {widths numbers : List Nat} (hfront : bytes <+: whole)
    (h : Bytes.fields? widths bytes = some numbers) :
    Bytes.fields? widths whole = some numbers := by
  induction widths generalizing bytes whole numbers with
  | nil => exact h
  | cons width widths ih =>
      obtain ⟨⟨front, back⟩, hsplit, hrest⟩ := Option.bind_eq_some_iff.mp h
      obtain ⟨tail, htail, hsame⟩ := Option.bind_eq_some_iff.mp hrest
      obtain ⟨more, hmore, hback⟩ := Bytes.split?_of_prefix hfront hsplit
      refine Option.bind_eq_some_iff.mpr ⟨(front, more), hmore, ?_⟩
      exact Option.bind_eq_some_iff.mpr ⟨tail, ih hback htail, hsame⟩

/-- What is decoded from fields alone. -/
theorem Bytes.decoded_of_prefix {α : Type} {decode : Bytes → Except StoreError α}
    {a : α} (widths : List Nat) (hfront : bytes <+: whole)
    (hfields : Bytes.fields? widths bytes = Bytes.fields? widths whole →
      decode bytes = decode whole)
    (hnone : Bytes.fields? widths bytes = none → decode bytes ≠ .ok a)
    (h : decode bytes = .ok a) : decode whole = .ok a := by
  cases hnumbers : Bytes.fields? widths bytes with
  | none => exact absurd h (hnone hnumbers)
  | some numbers =>
      rw [← hfields (hnumbers.trans (Bytes.fields?_of_prefix hfront hnumbers).symm)]
      exact h

theorem ProfileOffset.decode_of_prefix {offset : ProfileOffset} (hfront : bytes <+: whole)
    (h : ProfileOffset.decode bytes = .ok offset) : ProfileOffset.decode whole = .ok offset := by
  refine Bytes.decoded_of_prefix [4, 4] hfront ?_ ?_ h
  · intro hfields
    rw [decode, hfields, ← decode]
  · intro hnone
    rw [decode, hnone]
    exact fun h => nomatch h

theorem ValueRecord.decode_of_prefix {value : ValueRecord} (hfront : bytes <+: whole)
    (h : ValueRecord.decode bytes = .ok value) : ValueRecord.decode whole = .ok value := by
  refine Bytes.decoded_of_prefix [2, 4, 4, 4] hfront ?_ ?_ h
  · intro hfields
    rw [decode, hfields, ← decode]
  · intro hnone
    rw [decode, hnone]
    exact fun h => nomatch h

theorem Profile.header_of_prefix {profile : Profile} (hfront : bytes <+: whole)
    (h : Profile.header bytes = .ok profile) : Profile.header whole = .ok profile := by
  refine Bytes.decoded_of_prefix [1, 4, 4] hfront ?_ ?_ h
  · intro hfields
    rw [header, hfields, ← header]
  · intro hnone
    rw [header, hnone]
    exact fun h => nomatch h

/-- **A profile** has as many values as it says, whatever follows them. -/
theorem Profile.decode_of_prefix {profile : Profile} (hfront : bytes <+: whole)
    (h : Profile.decode bytes = .ok profile) : Profile.decode whole = .ok profile := by
  obtain ⟨first, hheader, hrest⟩ := bind_eq_ok_iff.mp h
  obtain ⟨needed, hneeded, hrest⟩ := bind_eq_ok_iff.mp hrest
  have hwhole := Profile.header_of_prefix hfront hheader
  have hlength : Profile.length whole = .ok needed := by
    unfold Profile.length at hneeded ⊢
    rw [hheader] at hneeded
    rw [hwhole]
    exact hneeded
  have henough : needed.toNat ≤ bytes.length := by
    by_contra hshort
    rw [if_neg hshort] at hrest
    cases hrest
  obtain ⟨rest, rfl⟩ := hfront
  refine bind_eq_ok_iff.mpr ⟨first, hwhole, bind_eq_ok_iff.mpr ⟨needed, hlength, ?_⟩⟩
  rw [if_pos henough] at hrest
  rw [if_pos (henough.trans (by simp)), List.take_append_of_le_length henough]
  exact hrest

end

end RecordStore
