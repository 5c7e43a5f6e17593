import Mathlib
import RecordStore.Proofs.Geometry.Tree

/-!
# What a scan reads and which text it writes

A successful scan is told by four things: the text of what it wrote, its
value, the bytes it read and where it stands afterwards.  `Scan.Yields` ties
them together, and each step of a scan has one rule for it.

`Scan.Renders` compares a scan with a family of things that have binary forms
and a text: the scan succeeds exactly on a binary form of one of them, reads
no more than it, and writes its text.  Lists of such things are again such
things (`Renders.separated`, `Renders.counted`).
-/

namespace RecordStore.Geometry

/-- One cursor is another one moved past some bytes. -/
def Cursor.Advances (cursor after : Cursor) (front : Bytes) : Prop :=
  cursor.rest = front ++ after.rest ∧ after.position = cursor.position + front.length

theorem Cursor.advances_nil_iff {cursor after : Cursor} :
    cursor.Advances after [] ↔ after = cursor := by
  cases cursor
  cases after
  simp [Advances, eq_comm]

/-- Moving past two runs of bytes is moving past one and then the other. -/
theorem Cursor.advances_append_iff {cursor after : Cursor} {front back : Bytes} :
    cursor.Advances after (front ++ back) ↔
      ∃ middle, cursor.Advances middle front ∧ middle.Advances after back := by
  constructor
  · intro h
    obtain ⟨hrest, hposition⟩ := h
    refine ⟨⟨back ++ after.rest, cursor.position + front.length⟩, ?_, ?_⟩
    · exact ⟨by simpa using hrest, rfl⟩
    · exact ⟨rfl, by simpa [Nat.add_assoc] using hposition⟩
  · intro h
    obtain ⟨middle, ⟨hfront, hmiddle⟩, ⟨hback, hafter⟩⟩ := h
    refine ⟨by rw [hfront, hback, List.append_assoc], ?_⟩
    rw [hafter, hmiddle, List.length_append]
    omega

namespace Scan

variable {α β : Type} {places : Nat} {cursor after : Cursor} {text : Bytes}

theorem bind_assoc {γ : Type} (scan : Scan α) (f : α → Scan β) (g : β → Scan γ) :
    scan >>= f >>= g = scan >>= fun value => f value >>= g := by
  funext start
  simp only [bind_apply]
  rcases scan start with ⟨written, e | ⟨value, middle⟩⟩
  · rfl
  · dsimp only
    rcases f value middle with ⟨more, e | ⟨next, last⟩⟩
    · rfl
    · simp

/-- A scan succeeds with a value, stands at `after`, and what it wrote has
this text. -/
def Yields (places : Nat) (scan : Scan α) (cursor : Cursor) (text : Bytes) (value : α)
    (after : Cursor) : Prop :=
  ∃ written, scan cursor = (written, .ok (value, after)) ∧
    Piece.textOf (written.flatMap (Token.pieces places)) = text

theorem yields_pure_iff {value result : α} :
    (pure value : Scan α).Yields places cursor text result after ↔
      text = [] ∧ result = value ∧ after = cursor := by
  constructor
  · intro h
    obtain ⟨written, h, rfl⟩ := h
    cases h
    exact ⟨rfl, rfl, rfl⟩
  · intro h
    obtain ⟨rfl, rfl, rfl⟩ := h
    exact ⟨[], rfl, rfl⟩

/-- **Sequencing.**  The texts of two scans, one after the other, follow each
other. -/
theorem yields_bind_iff {first : Scan α} {next : α → Scan β} {result : β} :
    (first >>= next).Yields places cursor text result after ↔
      ∃ front back value middle, first.Yields places cursor front value middle ∧
        (next value).Yields places middle back result after ∧ text = front ++ back := by
  constructor
  · intro h
    obtain ⟨written, h, rfl⟩ := h
    rw [bind_apply] at h
    split at h
    · rename_i early value middle hfirst
      obtain ⟨rfl, hnext⟩ := Prod.mk.inj h
      refine ⟨_, _, value, middle, ⟨early, hfirst, rfl⟩,
        ⟨(next value middle).1, Prod.ext rfl hnext, rfl⟩, ?_⟩
      simp [Piece.textOf]
    · cases h
  · intro h
    obtain ⟨front, back, value, middle, ⟨early, hfirst, rfl⟩, ⟨late, hnext, rfl⟩, rfl⟩ := h
    refine ⟨early ++ late, ?_, by simp [Piece.textOf]⟩
    rw [bind_apply, hfirst]
    simp only [hnext]

theorem yields_emit_iff {token : Token} {result : Unit} :
    (emit token).Yields places cursor text result after ↔
      text = Piece.textOf (token.pieces places) ∧ after = cursor := by
  constructor
  · intro h
    obtain ⟨written, h, rfl⟩ := h
    cases h
    simp
  · intro h
    obtain ⟨rfl, rfl⟩ := h
    exact ⟨[token], rfl, by simp⟩

theorem yields_take_iff {count : Nat} {front : Bytes} :
    (take count).Yields places cursor text front after ↔
      text = [] ∧ front.length = count ∧ cursor.Advances after front := by
  constructor
  · intro h
    obtain ⟨written, h, rfl⟩ := h
    obtain ⟨rfl, hrest, hlength, hposition⟩ := take_ok_iff.mp h
    exact ⟨rfl, hlength, hrest, by rw [hposition, hlength]⟩
  · intro h
    obtain ⟨rfl, hlength, hrest, hposition⟩ := h
    exact ⟨[], take_ok_iff.mpr ⟨rfl, hrest, hlength, by rw [hposition, hlength]⟩, rfl⟩

theorem not_yields_fail {e : StoreError} {result : α} :
    ¬ (fail e : Scan α).Yields places cursor text result after := by
  intro h
  obtain ⟨written, h, -⟩ := h
  cases h

theorem yields_require_iff {value : Option α} {why : Refusal} {result : α} :
    (require value why).Yields places cursor text result after ↔
      text = [] ∧ value = some result ∧ after = cursor := by
  cases value with
  | none =>
      simp only [reduceCtorEq, false_and, and_false, iff_false]
      exact not_yields_fail
  | some value =>
      rw [Option.some.injEq, eq_comm (a := value)]
      exact yields_pure_iff

/-- A scan succeeds exactly on the binary forms, as `code` has them, of some
things, reads no more than the form, and writes the text of the thing. -/
def Renders {X : Type} (places : Nat) (scan : Scan Unit) (code : X → Bytes → Prop)
    (text : X → Bytes) : Prop :=
  ∀ cursor written value after, scan.Yields places cursor written value after ↔
    ∃ x front, code x front ∧ cursor.Advances after front ∧ written = text x

/-- Bytes are the binary forms of some things, one after another. -/
def Each {X : Type} (code : X → Bytes → Prop) (things : List X) (bytes : Bytes) : Prop :=
  ∃ parts, List.Forall₂ code things parts ∧ bytes = parts.flatten

section

variable {X Y : Type} {scan item : Scan Unit} {code : X → Bytes → Prop} {shown : X → Bytes}

/-- The same binary forms with the same texts may belong to other things. -/
theorem Renders.congr {code' : Y → Bytes → Prop} {shown' : Y → Bytes}
    (h : scan.Renders places code shown)
    (same : ∀ front text, (∃ x, code x front ∧ text = shown x) ↔
      ∃ y, code' y front ∧ text = shown' y) :
    scan.Renders places code' shown' := by
  intro cursor written value after
  rw [h]
  constructor
  · intro h
    obtain ⟨x, front, hx, hmove, hshown⟩ := h
    obtain ⟨y, hy, htext⟩ := (same front written).mp ⟨x, hx, hshown⟩
    exact ⟨y, front, hy, hmove, htext⟩
  · intro h
    obtain ⟨y, front, hy, hmove, hshown⟩ := h
    obtain ⟨x, hx, htext⟩ := (same front written).mpr ⟨y, hy, hshown⟩
    exact ⟨x, front, hx, hmove, htext⟩

theorem each_nil_iff {bytes : Bytes} : Each code [] bytes ↔ bytes = [] := by
  simp [Each]

theorem each_cons_iff {x : X} {rest : List X} {bytes : Bytes} :
    Each code (x :: rest) bytes ↔
      ∃ front back, code x front ∧ Each code rest back ∧ bytes = front ++ back := by
  constructor
  · intro h
    obtain ⟨parts, h, rfl⟩ := h
    cases h with
    | cons hx hrest => exact ⟨_, _, hx, ⟨_, hrest, rfl⟩, by simp⟩
  · intro h
    obtain ⟨front, back, hx, ⟨parts, hrest, rfl⟩, rfl⟩ := h
    exact ⟨front :: parts, .cons hx hrest, by simp⟩

/-- Where the binary form is a function, so is that of a list. -/
theorem forall₂_eq_map_iff {form : X → Bytes} {things : List X} {parts : List Bytes} :
    List.Forall₂ (fun x front => front = form x) things parts ↔ parts = things.map form := by
  induction things generalizing parts with
  | nil => simp
  | cons x rest ih => cases parts <;> simp [ih]

theorem renders_emit (token : Token) :
    (emit token).Renders places (fun (_ : Unit) bytes => bytes = [])
      (fun _ => Piece.textOf (token.pieces places)) := by
  intro cursor written value after
  rw [yields_emit_iff]
  constructor
  · intro h
    obtain ⟨rfl, rfl⟩ := h
    exact ⟨(), [], rfl, Cursor.advances_nil_iff.mpr rfl, rfl⟩
  · intro h
    obtain ⟨-, -, rfl, hmove, rfl⟩ := h
    exact ⟨rfl, Cursor.advances_nil_iff.mp hmove⟩

/-- One scan after another renders pairs. -/
theorem Renders.seq {next : Scan Unit} {code' : Y → Bytes → Prop} {shown' : Y → Bytes}
    (h : scan.Renders places code shown) (h' : next.Renders places code' shown') :
    (scan >>= fun _ => next).Renders places
      (fun (pair : X × Y) bytes =>
        ∃ front back, code pair.1 front ∧ code' pair.2 back ∧ bytes = front ++ back)
      (fun pair => shown pair.1 ++ shown' pair.2) := by
  intro cursor written value after
  rw [yields_bind_iff]
  constructor
  · intro h
    obtain ⟨_, _, _, middle, hfirst, hnext, rfl⟩ := h
    obtain ⟨x, front, hx, hmove, rfl⟩ := (h _ _ _ _).mp hfirst
    obtain ⟨y, back, hy, hmove', rfl⟩ := (h' _ _ _ _).mp hnext
    exact ⟨(x, y), front ++ back, ⟨front, back, hx, hy, rfl⟩,
      Cursor.advances_append_iff.mpr ⟨middle, hmove, hmove'⟩, rfl⟩
  · intro h
    obtain ⟨⟨x, y⟩, _, ⟨front, back, hx, hy, rfl⟩, hmove, rfl⟩ := h
    obtain ⟨middle, hfirst, hnext⟩ := Cursor.advances_append_iff.mp hmove
    exact ⟨_, _, (), middle, (h _ _ _ _).mpr ⟨x, front, hx, hfirst, rfl⟩,
      (h' _ _ _ _).mpr ⟨y, back, hy, hnext, rfl⟩, rfl⟩

/-- A scan that does nothing renders the empty list. -/
theorem renders_pure {shownAll : List X → Bytes} (hnone : shownAll [] = []) :
    (Scan.pure ()).Renders places
      (fun things bytes => things.length = 0 ∧ Each code things bytes) shownAll := by
  intro cursor written value after
  refine yields_pure_iff.trans ?_
  constructor
  · intro h
    obtain ⟨rfl, -, rfl⟩ := h
    exact ⟨[], [], ⟨rfl, each_nil_iff.mpr rfl⟩, Cursor.advances_nil_iff.mpr rfl, hnone.symm⟩
  · intro h
    obtain ⟨things, front, ⟨hlength, heach⟩, hmove, rfl⟩ := h
    obtain rfl := List.eq_nil_of_length_eq_zero hlength
    obtain rfl := each_nil_iff.mp heach
    exact ⟨hnone, rfl, Cursor.advances_nil_iff.mp hmove⟩

/-- A scan of one item and then of a list renders the longer list. -/
theorem Renders.cons {count : Nat} {next : Scan Unit} {shownRest shownAll : List X → Bytes}
    (h : item.Renders places code shown)
    (hnext : next.Renders places
      (fun things bytes => things.length = count ∧ Each code things bytes) shownRest)
    (hcons : ∀ x rest, shownAll (x :: rest) = shown x ++ shownRest rest) :
    (item >>= fun _ => next).Renders places
      (fun things bytes => things.length = count + 1 ∧ Each code things bytes) shownAll := by
  refine (h.seq hnext).congr ?_
  intro bytes text
  constructor
  · intro h
    obtain ⟨⟨x, rest⟩, ⟨front, back, hx, ⟨hlength, hrest⟩, rfl⟩, rfl⟩ := h
    exact ⟨x :: rest, ⟨by simpa using hlength, each_cons_iff.mpr ⟨front, back, hx, hrest, rfl⟩⟩,
      (hcons x rest).symm⟩
  · intro h
    obtain ⟨things, ⟨hlength, heach⟩, rfl⟩ := h
    obtain ⟨x, rest, rfl⟩ := List.exists_cons_of_length_eq_add_one hlength
    obtain ⟨front, back, hx, hrest, rfl⟩ := each_cons_iff.mp heach
    exact ⟨(x, rest), ⟨front, back, hx, ⟨by simpa using hlength, hrest⟩, rfl⟩, hcons x rest⟩

/-- Writing before and after a scan changes its text only. -/
theorem Renders.wrapped (before behind : Token) (h : scan.Renders places code shown) :
    (emit before >>= fun _ => scan >>= fun _ => emit behind).Renders places code
      (fun x => Piece.textOf (before.pieces places) ++ shown x ++
        Piece.textOf (behind.pieces places)) := by
  refine ((renders_emit before).seq (h.seq (renders_emit behind))).congr ?_
  intro bytes text
  constructor
  · intro h
    obtain ⟨⟨_, x, _⟩, ⟨_, _, rfl, ⟨_, _, hx, rfl, rfl⟩, rfl⟩, rfl⟩ := h
    exact ⟨x, by simpa using hx, by simp⟩
  · intro h
    obtain ⟨x, hx, rfl⟩ := h
    exact ⟨((), x, ()), ⟨[], bytes, rfl, ⟨bytes, [], hx, rfl, by simp⟩, rfl⟩, by simp⟩

/-- Writing before a scan changes its text only. -/
theorem Renders.preceded (before : Token) (h : scan.Renders places code shown) :
    (emit before >>= fun _ => scan).Renders places code
      (fun x => Piece.textOf (before.pieces places) ++ shown x) := by
  refine ((renders_emit before).seq h).congr ?_
  intro bytes text
  constructor
  · intro h
    obtain ⟨⟨_, x⟩, ⟨_, _, rfl, hx, rfl⟩, rfl⟩ := h
    exact ⟨x, hx, rfl⟩
  · intro h
    obtain ⟨x, hx, rfl⟩ := h
    exact ⟨((), x), ⟨[], bytes, rfl, hx, rfl⟩, rfl⟩

/-- Items with a separator before each. -/
theorem Renders.following (separator : Token) (h : item.Renders places code shown) (count : Nat) :
    (following separator item count).Renders places
      (fun things bytes => things.length = count ∧ Each code things bytes)
      (fun things => things.flatMap fun x =>
        Piece.textOf (separator.pieces places) ++ shown x) := by
  induction count with
  | zero => exact renders_pure rfl
  | succ count ih =>
      rw [Scan.following, ← bind_assoc]
      exact (h.preceded separator).cons ih (fun x rest => by simp)

theorem intercalate_cons (separator x : Bytes) (rest : List Bytes) :
    separator.intercalate (x :: rest) = x ++ rest.flatMap (separator ++ ·) := by
  induction rest generalizing x with
  | nil => simp [List.intercalate]
  | cons y rest ih =>
      have hnext := ih y
      simp only [List.intercalate, List.intersperse, List.flatten_cons] at hnext ⊢
      simp [hnext]

/-- Items with separators between them. -/
theorem Renders.separated (separator : Token) (h : item.Renders places code shown) (count : Nat) :
    (separated separator item count).Renders places
      (fun things bytes => things.length = count ∧ Each code things bytes)
      (fun things => (Piece.textOf (separator.pieces places)).intercalate (things.map shown)) := by
  cases count with
  | zero => exact renders_pure rfl
  | succ count =>
      refine h.cons (h.following separator count) ?_
      intro x rest
      rw [List.map_cons, intercalate_cons, List.flatMap_map]

/-- Items in parentheses. -/
theorem Renders.parenthesized (h : item.Renders places code shown) (count : Nat) :
    (parenthesized item count).Renders places
      (fun things bytes => things.length = count ∧ Each code things bytes)
      (fun things => enclosed (things.map shown)) :=
  (h.separated .comma count).wrapped .openParen .closeParen

end

end Scan

end RecordStore.Geometry
