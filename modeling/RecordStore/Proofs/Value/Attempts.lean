import Mathlib
import RecordStore.Proofs.Text.Bounded
import RecordStore.Shell.Command

/-!
# Rendering in two attempts

A text of unknown length is first put into a buffer that holds most texts.  If
it does not fit, what was counted is the size of a second buffer, and the text
is rendered again.

`textBytes_eq`, `geometryText_eq` — the text that comes of it is the whole one,
whether there was a second attempt or not;
`Geometry.convert_eq_ok` — what a conversion reports depends on its buffer in
one thing only, whether the buffer is too small.
-/

namespace RecordStore

/-- The text of a rendering without any bound, if the rendering succeeds. -/
def Piece.wholeText (rendering : List Piece × Except StoreError Unit) : Except StoreError Bytes :=
  rendering.2.map fun _ => textOf rendering.1

/-! ## One attempt -/

namespace Builder

/-- Pieces put into a buffer, with a terminator. -/
theorem completes_addAll (buffer : Array UInt8) (pieces : List Piece) :
    Renders buffer (Piece.textOf pieces) 1 ((Builder.over buffer).addAll pieces).complete := by
  have h := ((renders_over buffer).addAll pieces).complete
  rwa [List.nil_append] at h

/-- An attempt counts the whole text and its terminator, whatever the buffer. -/
theorem added_completed (buffer : Array UInt8) (pieces : List Piece) :
    ((Builder.over buffer).addAll pieces).complete.added = (Piece.textOf pieces).length + 1 :=
  (completes_addAll buffer pieces).added

/-- An attempt drops something exactly if the buffer is shorter than that. -/
theorem full_completed_iff (buffer : Array UInt8) (pieces : List Piece) :
    ((Builder.over buffer).addAll pieces).complete.full = true ↔
      buffer.size < (Piece.textOf pieces).length + 1 := by
  have h := (completes_addAll buffer pieces).full_iff
  rw [← Bool.not_eq_false, h]
  omega

/-- An attempt that drops nothing leaves the text, and its terminator behind
it. -/
theorem take_completed {buffer : Array UInt8} {pieces : List Piece}
    (hfull : ((Builder.over buffer).addAll pieces).complete.full = false) :
    ((Builder.over buffer).addAll pieces).complete.buffer.toList.take
      ((Piece.textOf pieces).length + 1) = Piece.textOf pieces ++ [0] := by
  have h := (renders_over buffer).addAll pieces
  rw [List.nil_append] at h
  obtain ⟨htext, hlast⟩ := h.terminated hfull
  have hlength := h.complete.length_eq hfull
  rw [Builder.text, hlength] at htext
  rw [← Array.getElem?_toList] at hlast
  obtain ⟨hbound, hbyte⟩ := List.getElem?_eq_some_iff.mp hlast
  rw [← List.take_append_getElem hbound, htext, hbyte]

/-- An attempt with as many bytes as an earlier one has counted drops nothing. -/
theorem full_completed_replicate (first : Array UInt8) (pieces : List Piece) :
    ((Builder.over (.replicate ((Builder.over first).addAll pieces).complete.added 0)).addAll
      pieces).complete.full = false := by
  rw [← Bool.not_eq_true, full_completed_iff, Array.size_replicate, added_completed]
  exact Nat.lt_irrefl _

end Builder

/-! ## Stored values -/

/-- **The text of a value is whole**, however long it is. -/
theorem StoredValue.textBytes_eq (value : StoredValue) (places : Nat) :
    value.textBytes places = Piece.wholeText (value.pieces places) := by
  unfold textBytes writeTo buffer Piece.wholeText
  rcases value.pieces places with ⟨pieces, e | _⟩
  · rfl
  show (if !((Builder.over (.replicate usualLength 0)).addAll pieces).complete.full then
      Except.ok ((Builder.over (.replicate usualLength 0)).addAll pieces).complete.text
    else .ok ((Builder.over (.replicate ((Builder.over (.replicate usualLength 0)).addAll
      pieces).complete.added 0)).addAll pieces).complete.text) = .ok (Piece.textOf pieces)
  cases hfull : ((Builder.over (.replicate usualLength 0)).addAll pieces).complete.full with
  | false =>
      rw [Bool.not_false, if_pos rfl]
      exact congrArg _ ((Builder.completes_addAll _ pieces).text_eq hfull)
  | true =>
      rw [Bool.not_true, if_neg Bool.false_ne_true]
      exact congrArg _ ((Builder.completes_addAll _ pieces).text_eq
        (Builder.full_completed_replicate _ pieces))

theorem StoredValue.toText_eq (value : StoredValue) (places : Nat) :
    value.toText places = (Piece.wholeText (value.pieces places)).map Utf8.lossy := by
  rw [toText, textBytes_eq]
  rfl

/-! ## Geometries -/

namespace Geometry

/-- A conversion fails as the rendering does. -/
theorem convert_eq_error {wkb : Bytes} {places : Nat} {e : StoreError}
    (h : (pieces wkb places).2 = .error e) (buffer : Array UInt8) :
    (convert wkb buffer places).2 = .error e := by
  unfold convert
  generalize pieces wkb places = rendering at h ⊢
  obtain ⟨written, result⟩ := rendering
  obtain rfl : result = .error e := h
  rfl

/-- **A conversion** reports the size of the whole text, and whether its buffer
is shorter than that. -/
theorem convert_eq_ok {wkb : Bytes} {places : Nat} (h : (pieces wkb places).2 = .ok ())
    (buffer : Array UInt8) :
    convert wkb buffer places =
      (((Builder.over buffer).addAll (pieces wkb places).1).complete,
        .ok ⟨(Piece.textOf (pieces wkb places).1).length + 1,
          decide (buffer.size < (Piece.textOf (pieces wkb places).1).length + 1)⟩) := by
  unfold convert
  generalize pieces wkb places = rendering at h ⊢
  obtain ⟨written, result⟩ := rendering
  obtain rfl : result = .ok () := h
  dsimp only
  rw [Builder.added_completed]
  congr 3
  rw [Bool.eq_iff_iff, Builder.full_completed_iff, decide_eq_true_iff]

end Geometry

/-- **The text of a geometry is whole**, however long it is. -/
theorem Shell.geometryText_eq (wkb : Bytes) (places : Nat) :
    geometryText wkb places = Piece.wholeText (Geometry.pieces wkb places) := by
  unfold geometryText
  cases hresult : (Geometry.pieces wkb places).2 with
  | error e =>
      have hfirst := Geometry.convert_eq_error hresult (.replicate StoredValue.usualLength 0)
      rw [Piece.wholeText, hresult]
      simp only [hfirst]
      rfl
  | ok _ =>
      rw [Piece.wholeText, hresult]
      have hwhole : ∀ buffer : Array UInt8,
          ¬ buffer.size < (Piece.textOf (Geometry.pieces wkb places).1).length + 1 →
          ((Builder.over buffer).addAll (Geometry.pieces wkb places).1).complete.buffer.toList.take
              ((Piece.textOf (Geometry.pieces wkb places).1).length + 1 - 1) =
            Piece.textOf (Geometry.pieces wkb places).1 := by
        intro buffer hroom
        have hfull : ((Builder.over buffer).addAll (Geometry.pieces wkb places).1).complete.full =
            false := by
          rwa [← Bool.not_eq_true, Builder.full_completed_iff]
        have htake := congrArg (List.take ((Piece.textOf (Geometry.pieces wkb places).1).length))
          (Builder.take_completed hfull)
        rw [List.take_take, List.take_left] at htake
        rwa [Nat.min_eq_left (Nat.le_succ _)] at htake
      simp only [Geometry.convert_eq_ok hresult]
      by_cases hsmall : (Array.replicate StoredValue.usualLength (0 : UInt8)).size <
          (Piece.textOf (Geometry.pieces wkb places).1).length + 1
      · rw [decide_eq_true hsmall]
        exact congrArg Except.ok (hwhole _ (by rw [Array.size_replicate]; exact Nat.lt_irrefl _))
      · rw [decide_eq_false hsmall]
        exact congrArg Except.ok (hwhole _ hsmall)

/-! ## What the attempts come to -/

/-- **Nobody sees the attempts.**  The text of a value is what a builder with
room for all of it is given.  A conversion fails alike or reports the same size
whatever its buffer, says that the buffer is too small exactly if it is shorter
than that, and otherwise leaves the whole text in it, terminated.  A geometry
is shown with its whole text. -/
theorem attempts_unseen :
    (∀ (value : StoredValue) (places : Nat), ∃ size, ∀ buffer : Array UInt8, size ≤ buffer.size →
      (value.writeTo (.over buffer) places).1.full = false ∧
        value.toText places = (value.writeTo (.over buffer) places).2.map fun _ =>
          Utf8.lossy (value.writeTo (.over buffer) places).1.text) ∧
    (∀ (wkb : Bytes) (places : Nat),
      (∃ e, Piece.wholeText (Geometry.pieces wkb places) = .error e ∧
        ∀ buffer, (Geometry.convert wkb buffer places).2 = .error e) ∨
      ∃ text, Piece.wholeText (Geometry.pieces wkb places) = .ok text ∧
        ∀ buffer, ∃ tooSmall,
          (Geometry.convert wkb buffer places).2 = .ok ⟨text.length + 1, tooSmall⟩ ∧
          (tooSmall = true ↔ buffer.size < text.length + 1) ∧
          (tooSmall = false →
            (Geometry.convert wkb buffer places).1.buffer.toList.take (text.length + 1) =
              text ++ [0])) ∧
    ∀ (hex : String) (places? : Option Nat) (store : Shell.Store),
      (Shell.Command.wkt hex places?).run store =
        (.ofLine (do
          let wkb ← Shell.bytesOf hex
          let text ← (Piece.wholeText (Geometry.pieces wkb
            (places?.getD FixedPoint.maxPlaces))).mapError .ofStore
          return Utf8.lossy text), store) := by
  refine ⟨?_, ?_, ?_⟩
  · intro value places
    refine ⟨(Piece.textOf (value.pieces places).1).length + 1, ?_⟩
    intro buffer hroom
    obtain ⟨htext, hfull⟩ := Builder.over_addAll_of_fits hroom
    refine ⟨hfull, ?_⟩
    show _ = (value.pieces places).2.map fun _ =>
      Utf8.lossy ((Builder.over buffer).addAll (value.pieces places).1).text
    rw [value.toText_eq, Piece.wholeText, htext]
    cases (value.pieces places).2 <;> rfl
  · intro wkb places
    cases hresult : (Geometry.pieces wkb places).2 with
    | error e =>
        exact .inl ⟨e, by rw [Piece.wholeText, hresult]; rfl, Geometry.convert_eq_error hresult⟩
    | ok _ =>
        refine .inr ⟨_, by rw [Piece.wholeText, hresult]; rfl, ?_⟩
        intro buffer
        rw [Geometry.convert_eq_ok hresult buffer]
        refine ⟨_, rfl, decide_eq_true_iff, ?_⟩
        intro hroom
        apply Builder.take_completed
        rw [← Bool.not_eq_true, Builder.full_completed_iff]
        exact of_decide_eq_false hroom
  · intro hex places? store
    show (Shell.Reply.ofLine (Shell.geometryLine hex _), store) = _
    unfold Shell.geometryLine
    simp only [Shell.geometryText_eq]

/-- A text of as many bytes as the first buffer has leaves no room there for its
terminator, and is whole all the same. -/
example : (StoredValue.text (.replicate 128 97)).textBytes 0 = .ok (.replicate 128 97) := by
  rw [StoredValue.textBytes_eq]
  rfl

end RecordStore
