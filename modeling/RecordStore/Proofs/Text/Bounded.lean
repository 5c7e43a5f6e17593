import Mathlib
import RecordStore.Numeric.FixedPoint
import RecordStore.Proofs.Text.Roomy
import RecordStore.Text.Utf8

/-!
# What a bounded buffer holds

A builder is asked for characters, runs, texts and numbers, and may be
completed at any time.  Whatever does not fit is dropped, and what comes after
it may fit again, so the text of a builder that has dropped something need not
be the front of what was asked for.

`Renders` says what is true all the same: the count is that of the whole text,
a builder drops something exactly if the whole text does not fit, and it
touches no byte behind its text but that of the terminator.  Each piece keeps
it (`Renders.add`), and so does completing (`Renders.complete`).
-/

namespace RecordStore.Builder

/-! ## Requests -/

/-- What a builder may be asked for. -/
inductive Request
  | character (c : UInt8)
  | characters (bytes : Bytes)
  | string (text : String)
  /-- A formatted text, which comes in parts. -/
  | formatted (parts : List String)
  | integer (value : Int64)
  | double (value : Binary.Datum) (places : UInt8)
  | complete

namespace Request

/-- The pieces that a request adds. -/
def pieces : Request → List Piece
  | .character c => [.char c]
  | .characters bytes => [.run bytes]
  | .string text => [.run (Utf8.encode text)]
  | .formatted parts => parts.map fun part => .run (Utf8.encode part)
  | .integer value => Decimal.pieces value.toInt
  | .double value places => FixedPoint.pieces value places.toNat
  | .complete => []

/-- Is the terminator to be written? -/
def completes : Request → Bool
  | .complete => true
  | _ => false

/-- The text of requests without any bound. -/
def textOf (requests : List Request) : Bytes :=
  Piece.textOf (requests.flatMap pieces)

/-- How often the terminator is to be written. -/
def completions (requests : List Request) : Nat :=
  requests.countP completes

theorem textOf_cons (request : Request) (rest : List Request) :
    textOf (request :: rest) = Piece.textOf request.pieces ++ textOf rest := by
  simp [textOf, Piece.textOf]

end Request

/-- Does what a request asks for. -/
def perform (b : Builder) (request : Request) : Builder :=
  if request.completes then b.complete else b.addAll request.pieces

/-- Does what some requests ask for, one after another. -/
def performAll (b : Builder) (requests : List Request) : Builder :=
  requests.foldl perform b

/-! ## The law -/

/-- A builder over `buffer` that was asked for `text` and completed as often as
`completions` says. -/
structure Renders (buffer : Array UInt8) (text : Bytes) (completions : Nat) (b : Builder) :
    Prop where
  size : b.buffer.size = buffer.size
  added : b.added = text.length + completions
  length_le : b.length ≤ buffer.size - 1
  full_iff : b.full = false ↔
    text.length ≤ buffer.size - 1 ∧ ¬ (buffer.size = 0 ∧ 0 < completions)
  text_eq : b.full = false → b.text = text
  behind : ∀ place, b.length < place → b.buffer[place]? = buffer[place]?
  terminator : b.buffer[b.length]? = buffer[b.length]? ∨
    0 < completions ∧ b.buffer[b.length]? = some 0

section

variable {buffer : Array UInt8} {text : Bytes} {completions : Nat} {b : Builder}

theorem renders_over (buffer : Array UInt8) : Renders buffer [] 0 (.over buffer) := by
  refine ⟨rfl, rfl, Nat.zero_le _, ?_, ?_, ?_, .inl rfl⟩
  · simp [Builder.over]
  · intro _
    simp [Builder.over, Builder.text]
  · intro place _
    rfl

theorem Renders.length_text (h : Renders buffer text completions b) : b.text.length = b.length := by
  have hsize := h.size
  have hlength := h.length_le
  rw [Builder.text, List.length_take, Array.length_toList]
  omega

/-- Nothing was dropped, so all of the text is there. -/
theorem Renders.length_eq (h : Renders buffer text completions b) (hfull : b.full = false) :
    b.length = text.length := by
  rw [← h.length_text, h.text_eq hfull]

/-- **A piece** is written or dropped. -/
theorem Renders.add (h : Renders buffer text completions b) (piece : Piece) :
    Renders buffer (text ++ piece.text) completions (b.add piece) := by
  have hsize := h.size
  have hlength := h.length_le
  have hadded : (b.add piece).added = (text ++ piece.text).length + completions := by
    rw [added_add, h.added, List.length_append]
    omega
  by_cases hfits : piece.text.length ≤ b.remaining
  · have hroom : b.length + piece.text.length ≤ buffer.size - 1 := by
      unfold remaining at hfits
      omega
    have hinside : b.length + piece.text.length ≤ b.buffer.size := by omega
    obtain ⟨htext, hnow, hfull⟩ := add_of_le hfits hinside
    have hbehind : ∀ place, b.length + piece.text.length ≤ place →
        (b.add piece).buffer[place]? = b.buffer[place]? := by
      intro place hplace
      rw [Builder.add, if_pos hfits]
      exact getElem?_overwrite_of_outside (.inr hplace)
    refine ⟨(size_buffer_add b piece).trans hsize, hadded, by omega, ?_, ?_, ?_, ?_⟩
    · rw [hfull, h.full_iff, List.length_append]
      constructor
      · intro hkept
        have heq := h.length_eq (h.full_iff.mpr hkept)
        exact ⟨by omega, hkept.2⟩
      · intro hkept
        exact ⟨by omega, hkept.2⟩
    · intro hkept
      rw [htext, h.text_eq (hfull ▸ hkept)]
    · intro place hplace
      rw [hbehind place (by omega), h.behind place (by omega)]
    · rw [hnow, hbehind _ (Nat.le_refl _)]
      rcases Nat.eq_zero_or_pos piece.text.length with hempty | hsome
      · rw [hempty]
        exact h.terminator
      · exact .inl (h.behind _ (by omega))
  · have hdropped : b.add piece =
        { b with added := b.added + piece.text.length, full := true } := by
      rw [Builder.add, if_neg hfits]
    rw [hdropped] at hadded ⊢
    refine ⟨hsize, hadded, hlength, ?_, ?_, h.behind, h.terminator⟩
    · -- had nothing been dropped before, the piece would end behind the buffer
      simp only [Bool.true_eq_false, false_iff, List.length_append]
      intro hkept
      have heq := h.length_eq (h.full_iff.mpr ⟨by omega, hkept.2⟩)
      unfold remaining at hfits
      omega
    · intro hkept
      cases hkept

theorem Renders.addAll (h : Renders buffer text completions b) (pieces : List Piece) :
    Renders buffer (text ++ Piece.textOf pieces) completions (b.addAll pieces) := by
  induction pieces generalizing text b with
  | nil => simpa [Piece.textOf, Builder.addAll] using h
  | cons piece rest ih =>
      have hrest := ih (h.add piece)
      rwa [List.append_assoc] at hrest

/-- **Completing** writes the byte behind the text, if there is one. -/
theorem Renders.complete (h : Renders buffer text completions b) :
    Renders buffer text (completions + 1) b.complete := by
  have hsize := h.size
  have hlength := h.length_le
  by_cases hroom : b.length < b.buffer.size
  · have hcomplete : b.complete =
        { b with buffer := b.buffer.setIfInBounds b.length 0, added := b.added + 1 } := by
      rw [Builder.complete, if_pos hroom]
    rw [hcomplete]
    refine ⟨?_, ?_, hlength, ?_, ?_, ?_, ?_⟩
    · rw [Array.size_setIfInBounds]
      exact hsize
    · show b.added + 1 = _
      rw [h.added, Nat.add_assoc]
    · show b.full = false ↔ _
      rw [h.full_iff]
      constructor
      · intro hkept
        exact ⟨hkept.1, by omega⟩
      · intro hkept
        exact ⟨hkept.1, by omega⟩
    · intro hkept
      rw [← h.text_eq hkept]
      show (b.buffer.setIfInBounds b.length 0).toList.take b.length = b.buffer.toList.take b.length
      rw [Array.toList_setIfInBounds, List.take_set_of_le (Nat.le_refl _)]
    · intro place hplace
      show (b.buffer.setIfInBounds b.length 0)[place]? = _
      rw [Array.getElem?_setIfInBounds_ne (Nat.ne_of_lt hplace), h.behind place hplace]
    · exact .inr ⟨Nat.succ_pos _, Array.getElem?_setIfInBounds_self_of_lt hroom⟩
  · have hcomplete : b.complete = { b with added := b.added + 1, full := true } := by
      rw [Builder.complete, if_neg hroom]
    rw [hcomplete]
    refine ⟨hsize, ?_, hlength, ?_, ?_, h.behind, ?_⟩
    · show b.added + 1 = _
      rw [h.added, Nat.add_assoc]
    · simp only [Bool.true_eq_false, false_iff]
      intro hkept
      omega
    · intro hkept
      cases hkept
    · exact h.terminator.imp_right fun hwritten => ⟨Nat.succ_pos _, hwritten.2⟩

/-- **A request** keeps the law, for the text it adds. -/
theorem Renders.perform (h : Renders buffer text completions b) (request : Request) :
    Renders buffer (text ++ Piece.textOf request.pieces)
      (completions + if request.completes then 1 else 0) (b.perform request) := by
  unfold Builder.perform
  cases request with
  | complete => simpa [Request.completes, Request.pieces, Piece.textOf] using h.complete
  | _ => exact h.addAll _

theorem Renders.performAll (h : Renders buffer text completions b) (requests : List Request) :
    Renders buffer (text ++ Request.textOf requests)
      (completions + Request.completions requests) (b.performAll requests) := by
  induction requests generalizing text completions b with
  | nil => simpa [Request.textOf, Request.completions, Piece.textOf, Builder.performAll] using h
  | cons request rest ih =>
      have hrest := ih (h.perform request)
      rw [Request.textOf_cons, ← List.append_assoc, Request.completions, List.countP_cons,
        Nat.add_comm (rest.countP _), ← Nat.add_assoc]
      exact hrest

/-- Where a completed builder has dropped nothing, the terminator is right
behind the text. -/
theorem Renders.terminated (h : Renders buffer text completions b)
    (hfull : b.complete.full = false) :
    b.complete.text = text ∧ b.complete.buffer[text.length]? = some 0 := by
  refine ⟨h.complete.text_eq hfull, ?_⟩
  have hroom : b.length < b.buffer.size := by
    apply Nat.lt_of_not_le
    intro hle
    rw [Builder.complete, if_neg (Nat.not_lt.mpr hle)] at hfull
    cases hfull
  have hlength : b.complete.length = b.length := by
    rw [Builder.complete, if_pos hroom]
  rw [← h.complete.length_eq hfull, hlength, Builder.complete, if_pos hroom]
  exact Array.getElem?_setIfInBounds_self_of_lt hroom

end

/-! ## Any requests -/

/-- A buffer with room for the text and the terminators holds both. -/
theorem performAll_of_room {again : Array UInt8} {requests : List Request}
    (hroom : again.size = (Request.textOf requests).length + Request.completions requests + 1) :
    ((Builder.over again).performAll requests).complete.full = false ∧
      ((Builder.over again).performAll requests).complete.text = Request.textOf requests ∧
      (Request.completions requests = 0 →
        ((Builder.over again).performAll requests).complete.buffer.toList =
          Request.textOf requests ++ [0]) := by
  have h := (renders_over again).performAll requests
  rw [List.nil_append, Nat.zero_add] at h
  have hfull : ((Builder.over again).performAll requests).complete.full = false := by
    rw [h.complete.full_iff]
    omega
  obtain ⟨htext, hlast⟩ := h.terminated hfull
  refine ⟨hfull, htext, ?_⟩
  intro hnone
  have hsize := h.complete.size
  have hlength := h.complete.length_eq hfull
  rw [← htext, Builder.text, hlength]
  rw [← Array.getElem?_toList] at hlast
  obtain ⟨hbound, hbyte⟩ := List.getElem?_eq_some_iff.mp hlast
  have hend : (Request.textOf requests).length + 1 =
      ((Builder.over again).performAll requests).complete.buffer.toList.length := by
    have hcount : ((Builder.over again).performAll requests).complete.buffer.toList.length =
        ((Builder.over again).performAll requests).complete.buffer.size := Array.length_toList
    omega
  rw [← hbyte, List.take_append_getElem hbound, hend, List.take_length]

/-- **What a bounded buffer holds**, whatever it is asked for.  A second buffer
of as many bytes as the first attempt has counted, the terminator included,
has room for everything, and no byte to spare if the terminator is written
once. -/
theorem performAll_renders (buffer : Array UInt8) (requests : List Request) :
    Renders buffer (Request.textOf requests) (Request.completions requests)
        ((Builder.over buffer).performAll requests) ∧
      ((Builder.over buffer).performAll requests).text.length =
        ((Builder.over buffer).performAll requests).length ∧
      (((Builder.over buffer).performAll requests).complete.full = false →
        ((Builder.over buffer).performAll requests).complete.text = Request.textOf requests ∧
          ((Builder.over buffer).performAll requests).complete.buffer[
            (Request.textOf requests).length]? = some 0) ∧
      ∀ again : Array UInt8,
        again.size = ((Builder.over buffer).performAll requests).complete.added →
          ((Builder.over again).performAll requests).complete.full = false ∧
          ((Builder.over again).performAll requests).complete.text = Request.textOf requests ∧
          (Request.completions requests = 0 →
            ((Builder.over again).performAll requests).complete.buffer.toList =
              Request.textOf requests ++ [0]) := by
  have h := (renders_over buffer).performAll requests
  rw [List.nil_append, Nat.zero_add] at h
  refine ⟨h, h.length_text, h.terminated, ?_⟩
  intro again hagain
  rw [h.complete.added] at hagain
  exact performAll_of_room hagain

/-- A run that does not fit is dropped and counted, and what comes after it
fits again. -/
example : ((Builder.over (.replicate 4 0)).performAll
    [.characters [97, 98], .characters [99, 100], .character 101, .complete]).buffer.toList =
      [97, 98, 101, 0] := by
  rfl

end RecordStore.Builder
