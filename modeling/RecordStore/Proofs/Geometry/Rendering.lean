import Mathlib
import RecordStore.Proofs.Geometry.Yields

/-!
# Rendering is exact

The scan of a geometry accepts the binary forms of proper trees that are not
nested too deeply, and nothing else; what it writes is the text of the tree
(`renders_geometry`).  The order of bytes and the mode of a geometry are
handed down, so nothing of a member is left behind for what follows it.
-/

namespace RecordStore.Geometry

/-- A code is that of a kind exactly if it is the kind's. -/
theorem Kind.ofCode?_eq_some_iff {code : Nat} {kind : Kind} :
    Kind.ofCode? code = some kind ↔ code = kind.code := by
  constructor
  · intro h
    have hlt : code < Kind.all.length := (List.getElem?_eq_some_iff.mp h).1
    have hcode : code < 18 := hlt
    interval_cases code <;> cases h <;> rfl
  · rintro rfl
    exact Kind.ofCode?_code kind

/-- A digit is that of a mode exactly if it is the mode's. -/
theorem Mode.ofDigit?_eq_some_iff {digit : Nat} {mode : Mode} :
    Mode.ofDigit? digit = some mode ↔ digit = mode.digit := by
  constructor
  · intro h
    have hlt : digit < Mode.all.length := (List.getElem?_eq_some_iff.mp h).1
    have hdigit : digit < 4 := hlt
    interval_cases digit <;> cases h <;> rfl
  · rintro rfl
    exact Mode.ofDigit?_digit mode

theorem Kind.code_lt (kind : Kind) : kind.code < 18 := by
  cases kind <;> decide

theorem Mode.digit_lt (mode : Mode) : mode.digit < 4 := by
  cases mode <;> decide

/-! ## Codes, names and numbers are those of trees -/

theorem Mode.arity_eq (mode : Mode) : mode.arity = mode.dimensions := by
  cases mode <;> rfl

theorem Mode.thousands_eq (mode : Mode) : mode.thousands = 1000 * mode.digit := by
  cases mode <;> rfl

theorem Tree.code_eq (t : Tree) : t.code = t.kind.code := by
  cases t with
  | ringed kind => cases kind <;> rfl
  | group kind => cases kind <;> rfl
  | _ => rfl

theorem Tree.name_eq (t : Tree) : t.name = t.kind.name := by
  cases t with
  | ringed kind => cases kind <;> rfl
  | group kind => cases kind <;> rfl
  | _ => rfl

/-- The name that is written is that of the tree, and so is the tag. -/
theorem textOf_name (places : Nat) (t : Tree) :
    Piece.textOf ((Token.name t.kind t.mode).pieces places) = t.title := by
  have hword : (Piece.word t.kind.name).text = spell t.name := by
    rw [t.name_eq]
    rfl
  rw [Tree.title, Token.pieces, Piece.textOf, List.flatMap_cons, hword]
  congr 1
  cases t.mode <;> rfl

/-- The number that is written is that of the position. -/
theorem textOf_coordinate (places : Nat) (number : UInt64) :
    Piece.textOf ((Token.coordinate number.toNat).pieces places) =
      coordinateText places number := by
  unfold Token.pieces FixedPoint.pieces coordinateText
  simp only
  cases hvalue : Binary.double.ofBits number.toNat with
  | nan _ => rfl
  | infinite negative => cases negative <;> rfl
  | finite negative units =>
      exact FixedPoint.textOf_finitePieces (FixedPoint.below_of_ofBits hvalue) _ negative

namespace Scan

variable {places : Nat} {cursor after : Cursor} {text : Bytes}

/-- Reading a number consumes its bytes. -/
theorem yields_word_iff {order : ByteOrder} {n : Nat} :
    (word order).Yields places cursor text n after ↔
      text = [] ∧ n < countLimit ∧ cursor.Advances after (order.bytes 4 n) := by
  rw [word, yields_bind_iff]
  constructor
  · intro h
    obtain ⟨_, _, front, middle, htake, hpure, rfl⟩ := h
    obtain ⟨rfl, hlength, hmove⟩ := yields_take_iff.mp htake
    obtain ⟨rfl, rfl, rfl⟩ := yields_pure_iff.mp hpure
    have hlt := order.number_lt front
    have hform := order.eq_bytes_of_number front
    rw [hlength] at hlt hform
    exact ⟨rfl, hlt, hform ▸ hmove⟩
  · intro h
    obtain ⟨rfl, hlt, hmove⟩ := h
    refine ⟨[], [], order.bytes 4 n, after, ?_, ?_, rfl⟩
    · exact yields_take_iff.mpr ⟨rfl, order.length_bytes 4 n, hmove⟩
    · exact yields_pure_iff.mpr ⟨rfl, (order.number_bytes hlt).symm, rfl⟩

/-- Reading a byte order consumes its flag. -/
theorem yields_byteOrder_iff {order : ByteOrder} :
    byteOrder.Yields places cursor text order after ↔
      text = [] ∧ cursor.Advances after [order.flag] := by
  rw [byteOrder, yields_bind_iff]
  constructor
  · intro h
    obtain ⟨_, _, front, middle, htake, hrequire, rfl⟩ := h
    obtain ⟨rfl, hlength, hmove⟩ := yields_take_iff.mp htake
    obtain ⟨rfl, hflag, rfl⟩ := yields_require_iff.mp hrequire
    obtain ⟨flag, rfl⟩ := List.length_eq_one_iff.mp hlength
    have hsame : flag = order.flag := ByteOrder.ofFlag?_eq_some_iff.mp hflag
    exact ⟨rfl, hsame ▸ hmove⟩
  · intro h
    obtain ⟨rfl, hmove⟩ := h
    refine ⟨[], [], [order.flag], after, ?_, ?_, rfl⟩
    · exact yields_take_iff.mpr ⟨rfl, rfl, hmove⟩
    · exact yields_require_iff.mpr ⟨rfl, ByteOrder.ofFlag?_eq_some_iff.mpr rfl, rfl⟩

/-- A number of a position is read from its bytes. -/
theorem renders_coordinate (order : ByteOrder) :
    (coordinate order).Renders places (fun number bytes => bytes = order.coordinate number)
      (coordinateText places) := by
  intro cursor written value after
  rw [coordinate, yields_bind_iff]
  constructor
  · intro h
    obtain ⟨_, _, front, middle, htake, hemit, rfl⟩ := h
    obtain ⟨rfl, hlength, hmove⟩ := yields_take_iff.mp htake
    obtain ⟨rfl, rfl⟩ := yields_emit_iff.mp hemit
    have hlt := order.number_lt front
    have hform := order.eq_bytes_of_number front
    rw [hlength] at hlt hform
    have hnumber : (UInt64.ofNat (order.number front)).toNat = order.number front :=
      UInt64.toNat_ofNat_of_lt hlt
    refine ⟨UInt64.ofNat (order.number front), front, ?_, hmove, ?_⟩
    · show front = order.bytes 8 _
      rw [hnumber]
      exact hform
    · rw [← textOf_coordinate, hnumber]
      rfl
  · intro h
    obtain ⟨number, _, rfl, hmove, rfl⟩ := h
    refine ⟨[], _, order.coordinate number, after, ?_, ?_, rfl⟩
    · exact yields_take_iff.mpr ⟨rfl, order.length_bytes 8 number.toNat, hmove⟩
    · refine yields_emit_iff.mpr ⟨?_, rfl⟩
      have hnumber : order.number (order.coordinate number) = number.toNat :=
        order.number_bytes number.toNat_lt
      rw [hnumber, textOf_coordinate]
      rfl

/-- The binary form of a list whose items have one form each. -/
theorem each_form_iff {X : Type} {form : X → Bytes} {things : List X} {bytes : Bytes} :
    Each (fun x front => front = form x) things bytes ↔ bytes = (things.map form).flatten := by
  constructor
  · intro h
    obtain ⟨parts, hparts, rfl⟩ := h
    rw [forall₂_eq_map_iff.mp hparts]
  · rintro rfl
    exact ⟨things.map form, forall₂_eq_map_iff.mpr rfl, rfl⟩

/-- A position is read number by number. -/
theorem renders_position (order : ByteOrder) (mode : Mode) :
    (position order mode).Renders places
      (fun (p : Position mode) bytes => bytes = p.bytes order) (Position.text places) := by
  refine ((renders_coordinate order).separated .blank mode.dimensions).congr ?_
  intro bytes text
  constructor
  · intro h
    obtain ⟨numbers, ⟨hlength, heach⟩, rfl⟩ := h
    exact ⟨⟨numbers, hlength.trans mode.arity_eq.symm⟩, each_form_iff.mp heach, rfl⟩
  · intro h
    obtain ⟨p, hp, rfl⟩ := h
    exact ⟨p.numbers, ⟨p.length_numbers.trans mode.arity_eq, each_form_iff.mpr hp⟩, rfl⟩

theorem listed_of_ne_nil {named : Bool} {items : List Bytes} (h : items ≠ []) :
    listed named items = enclosed items := by
  cases items with
  | nil => exact absurd rfl h
  | cons _ _ => rfl

section

variable {X : Type} {item : Scan Unit} {code : X → Bytes → Prop} {shown : X → Bytes}

/-- A counted list is read as its count says, and written as empty if that is
zero. -/
theorem Renders.counted (h : item.Renders places code shown) (order : ByteOrder) (named : Bool) :
    (counted order named item).Renders places
      (fun things bytes => things.length < countLimit ∧
        ∃ parts, List.Forall₂ code things parts ∧ bytes = order.counted parts)
      (fun things => listed named (things.map shown)) := by
  intro cursor written value after
  rw [Scan.counted]
  simp only [yields_bind_iff, yields_emit_iff, yields_word_iff]
  constructor
  · intro h
    obtain ⟨_, _, _, _, ⟨rfl, rfl⟩, ⟨_, _, count, middle, ⟨rfl, hlt, hcount⟩, hitems, rfl⟩, rfl⟩ := h
    split at hitems
    · rename_i hzero
      subst hzero
      obtain ⟨rfl, rfl⟩ := yields_emit_iff.mp hitems
      refine ⟨[], order.counted [], ⟨hlt, [], .nil, rfl⟩, ?_, ?_⟩
      · simpa [ByteOrder.counted] using hcount
      · cases named <;> rfl
    · rename_i hpos
      obtain ⟨things, front, ⟨rfl, parts, hparts, rfl⟩, hmove, rfl⟩ :=
        (h.parenthesized count _ _ _ _).mp hitems
      refine ⟨things, order.counted parts, ⟨hlt, parts, hparts, rfl⟩, ?_, ?_⟩
      · rw [hparts.length_eq] at hcount
        exact Cursor.advances_append_iff.mpr ⟨middle, hcount, hmove⟩
      · have hne : things.map shown ≠ [] := by
          intro hnil
          exact hpos (by rw [List.map_eq_nil_iff.mp hnil, List.length_nil])
        rw [listed_of_ne_nil hne]
  · intro h
    obtain ⟨things, _, ⟨hlt, parts, hparts, rfl⟩, hmove, rfl⟩ := h
    obtain ⟨middle, hcount, hitems⟩ := Cursor.advances_append_iff.mp hmove
    rw [← hparts.length_eq] at hcount
    refine ⟨_, _, (), cursor, ⟨rfl, rfl⟩,
      ⟨_, _, things.length, middle, ⟨rfl, hlt, hcount⟩, ?_, rfl⟩, rfl⟩
    cases things with
    | nil =>
        cases hparts
        refine yields_emit_iff.mpr ⟨?_, Cursor.advances_nil_iff.mp hitems⟩
        cases named <;> rfl
    | cons x rest =>
        exact (h.parenthesized _ _ _ _ _).mpr
          ⟨x :: rest, parts.flatten, ⟨rfl, parts, hparts, rfl⟩, hitems, rfl⟩

/-- One thing in parentheses. -/
theorem Renders.single (h : item.Renders places code shown) :
    (Scan.parenthesized item 1).Renders places code (fun x => enclosed [shown x]) := by
  refine (h.parenthesized 1).congr ?_
  intro bytes text
  constructor
  · intro h
    obtain ⟨things, ⟨hlength, heach⟩, rfl⟩ := h
    obtain ⟨x, rfl⟩ := List.length_eq_one_iff.mp hlength
    obtain ⟨front, back, hx, hnil, rfl⟩ := each_cons_iff.mp heach
    obtain rfl := each_nil_iff.mp hnil
    exact ⟨x, by simpa using hx, rfl⟩
  · intro h
    obtain ⟨x, hx, rfl⟩ := h
    exact ⟨[x], ⟨rfl, each_cons_iff.mpr ⟨bytes, [], hx, each_nil_iff.mpr rfl, by simp⟩⟩, rfl⟩

/-- A counted list of things with one form each. -/
theorem Renders.counted_form {form : X → Bytes}
    (h : item.Renders places (fun x bytes => bytes = form x) shown) (order : ByteOrder)
    (named : Bool) :
    (Scan.counted order named item).Renders places
      (fun (things : List X) bytes =>
        things.length < countLimit ∧ bytes = order.counted (things.map form))
      (fun things => listed named (things.map shown)) := by
  refine (h.counted order named).congr ?_
  intro bytes text
  constructor
  · intro h
    obtain ⟨things, ⟨hlt, parts, hparts, rfl⟩, rfl⟩ := h
    exact ⟨things, ⟨hlt, by rw [forall₂_eq_map_iff.mp hparts]⟩, rfl⟩
  · intro h
    obtain ⟨things, ⟨hlt, rfl⟩, rfl⟩ := h
    exact ⟨things, ⟨hlt, _, forall₂_eq_map_iff.mpr rfl, rfl⟩, rfl⟩

end

/-- A ring is a counted list of positions. -/
theorem renders_ring (order : ByteOrder) (mode : Mode) :
    (ring order mode).Renders places
      (fun (r : List (Position mode)) bytes =>
        r.length < countLimit ∧ bytes = order.counted (r.map (Position.bytes order)))
      (fun r => listed false (r.map (Position.text places))) :=
  (renders_position order mode).counted_form order false

/-- A tree is what a scan to a depth looks for: a proper one of the expected
kind, if any is expected. -/
def Admits (depth : Nat) (expected : Option Kind) (t : Tree) : Prop :=
  (∀ required ∈ expected, t.kind = required) ∧ t.Proper ∧ t.depth ≤ depth

/-- Bytes hold what a tree of a kind and mode is made of, and its members can
be read to a depth. -/
def Fills (order : ByteOrder) (kind : Kind) (mode : Mode) (depth : Nat) (t : Tree)
    (body : Bytes) : Prop :=
  t.kind = kind ∧ t.mode = mode ∧ t.Proper ∧ t.depth ≤ depth + 1 ∧ t.Contents order body

section

variable {order : ByteOrder} {mode : Mode} {named : Bool} {depth : Nat}
  {member : Option Kind → Scan Unit}

theorem renders_abstract :
    (content order mode named member .geometry).Renders places (Fills order .geometry mode depth)
      (Tree.contentText places named) := by
  refine (renders_emit (.empty false)).single.congr ?_
  intro bytes text
  constructor
  · intro h
    obtain ⟨-, rfl, rfl⟩ := h
    exact ⟨.abstract mode, ⟨rfl, rfl, trivial, by simp [Tree.depth], .abstract⟩, rfl⟩
  · intro h
    obtain ⟨t, ⟨hkind, rfl, -, -, hcontents⟩, rfl⟩ := h
    obtain ⟨mode, rfl⟩ := Tree.eq_abstract_of_kind hkind
    cases hcontents
    exact ⟨(), rfl, rfl⟩

theorem renders_point :
    (content order mode named member .point).Renders places (Fills order .point mode depth)
      (Tree.contentText places named) := by
  refine (renders_position order mode).single.congr ?_
  intro bytes text
  constructor
  · intro h
    obtain ⟨p, rfl, rfl⟩ := h
    exact ⟨.point mode p, ⟨rfl, rfl, trivial, by simp [Tree.depth], .point⟩, rfl⟩
  · intro h
    obtain ⟨t, ⟨hkind, rfl, -, -, hcontents⟩, rfl⟩ := h
    obtain ⟨mode, p, rfl⟩ := Tree.eq_point_of_kind hkind
    cases hcontents
    exact ⟨p, rfl, rfl⟩

theorem renders_lineString :
    (content order mode named member .lineString).Renders places
      (Fills order .lineString mode depth) (Tree.contentText places named) := by
  refine ((renders_position order mode).counted_form order named).congr ?_
  intro bytes text
  constructor
  · intro h
    obtain ⟨positions, ⟨few, rfl⟩, rfl⟩ := h
    exact ⟨.lineString mode positions,
      ⟨rfl, rfl, trivial, by simp [Tree.depth], .lineString few⟩, rfl⟩
  · intro h
    obtain ⟨t, ⟨hkind, rfl, -, -, hcontents⟩, rfl⟩ := h
    obtain ⟨mode, positions, rfl⟩ := Tree.eq_lineString_of_kind hkind
    cases hcontents with
    | lineString few => exact ⟨positions, ⟨few, rfl⟩, rfl⟩

theorem renders_ringed (kind : RingKind) :
    (Scan.counted order named (ring order mode)).Renders places
      (Fills order kind.kind mode depth) (Tree.contentText places named) := by
  refine ((renders_ring order mode).counted order named).congr ?_
  intro bytes text
  constructor
  · intro h
    obtain ⟨rings, ⟨few, parts, hparts, rfl⟩, rfl⟩ := h
    obtain ⟨short, hforms⟩ := (List.forall₂_and_left _ _).mp hparts
    rw [forall₂_eq_map_iff.mp hforms]
    exact ⟨.ringed kind mode rings,
      ⟨rfl, rfl, trivial, by simp [Tree.depth], .ringed few short⟩, rfl⟩
  · intro h
    obtain ⟨t, ⟨hkind, rfl, -, -, hcontents⟩, rfl⟩ := h
    obtain ⟨mode, rings, rfl⟩ := Tree.eq_ringed_of_kind hkind
    cases hcontents with
    | ringed few short =>
        exact ⟨rings, ⟨few, _,
          (List.forall₂_and_left _ _).mpr ⟨short, forall₂_eq_map_iff.mpr rfl⟩, rfl⟩, rfl⟩

/-- A group is read by its members, each of which is admitted as the group
asks. -/
theorem renders_group (kind : GroupKind)
    (hmember : ∀ expected, (member expected).Renders places
      (fun t bytes => Admits depth expected t ∧ t.EncodedAs bytes)
      (Tree.text places expected.isNone)) :
    (Scan.counted order named (member kind.member?)).Renders places
      (Fills order kind.kind mode depth) (Tree.contentText places named) := by
  refine ((hmember kind.member?).counted order named).congr ?_
  intro bytes text
  constructor
  · intro h
    obtain ⟨members, ⟨few, parts, hparts, rfl⟩, rfl⟩ := h
    obtain ⟨hadmits, hforms⟩ := (List.forall₂_and_left _ _).mp hparts
    have hproper : (Tree.group kind mode members).Proper :=
      ⟨fun t ht => (hadmits t ht).1, Tree.allProper_iff.mpr fun t ht => (hadmits t ht).2.1⟩
    have hdepth : (Tree.group kind mode members).depth ≤ depth + 1 :=
      Nat.succ_le_succ (Tree.depthAll_le_iff.mpr fun t ht => (hadmits t ht).2.2)
    refine ⟨.group kind mode members, ⟨rfl, rfl, hproper, hdepth, .group few hforms⟩, ?_⟩
    rw [Tree.contentText, Tree.memberTexts_eq_map]
  · intro h
    obtain ⟨t, ⟨hkind, rfl, hproper, hdepth, hcontents⟩, rfl⟩ := h
    obtain ⟨mode, members, rfl⟩ := Tree.eq_group_of_kind hkind
    have hall := Tree.allProper_iff.mp hproper.2
    have hshallow := Tree.depthAll_le_iff.mp (Nat.le_of_succ_le_succ hdepth)
    cases hcontents with
    | group few hforms =>
        refine ⟨members, ⟨few, _, (List.forall₂_and_left _ _).mpr ⟨?_, hforms⟩, rfl⟩, ?_⟩
        · intro t ht
          exact ⟨hproper.1 t ht, hall t ht, hshallow t ht⟩
        · rw [Tree.contentText, Tree.memberTexts_eq_map]

/-- What has no text form is refused. -/
theorem renders_reserved {kind : Kind} (h : kind.content = .reserved) :
    (content order mode named member kind).Renders places (Fills order kind mode depth)
      (Tree.contentText places named) := by
  intro cursor written value after
  rw [content, h]
  constructor
  · intro hyields
    exact absurd hyields not_yields_fail
  · intro h
    obtain ⟨t, -, ⟨rfl, -⟩, -⟩ := h
    exact absurd h t.content_kind_ne_reserved

/-- **What a geometry is made of is read exactly**, if its members are. -/
theorem renders_content (kind : Kind)
    (hmember : ∀ expected, (member expected).Renders places
      (fun t bytes => Admits depth expected t ∧ t.EncodedAs bytes)
      (Tree.text places expected.isNone)) :
    (content order mode named member kind).Renders places (Fills order kind mode depth)
      (Tree.contentText places named) := by
  cases kind with
  | geometry => exact renders_abstract
  | point => exact renders_point
  | lineString => exact renders_lineString
  | polygon => exact renders_ringed .polygon
  | triangle => exact renders_ringed .triangle
  | multiPoint => exact renders_group .multiPoint hmember
  | multiLineString => exact renders_group .multiLineString hmember
  | multiPolygon => exact renders_group .multiPolygon hmember
  | polyhedralSurface => exact renders_group .polyhedralSurface hmember
  | tin => exact renders_group .tin hmember
  | geometryCollection => exact renders_group .geometryCollection hmember
  | _ => exact renders_reserved rfl

end

/-- A name is written where no kind is expected; an expected kind has to be
met. -/
theorem yields_heading_iff {kind : Kind} {mode : Mode} {expected : Option Kind} {result : Unit} :
    (heading kind mode expected).Yields places cursor text result after ↔
      (∀ required ∈ expected, kind = required) ∧
        text = (if expected.isNone then Piece.textOf ((Token.name kind mode).pieces places)
          else []) ∧ after = cursor := by
  cases expected with
  | none =>
      refine yields_emit_iff.trans ?_
      simp
  | some required =>
      rw [heading]
      split
      · rename_i hsame
        refine yields_pure_iff.trans ?_
        simp [hsame]
      · rename_i hother
        constructor
        · intro hyields
          exact absurd hyields not_yields_fail
        · intro h
          obtain ⟨hsame, -⟩ := h
          exact absurd (hsame required rfl).symm hother

/-- **A geometry is read exactly.**  A scan to a depth succeeds on the binary
forms of the trees it admits, and writes their text. -/
theorem renders_geometry (depth : Nat) (expected : Option Kind) :
    (geometry depth expected).Renders places
      (fun t bytes => Admits depth expected t ∧ t.EncodedAs bytes)
      (Tree.text places expected.isNone) := by
  induction depth generalizing expected with
  | zero =>
      intro cursor written value after
      constructor
      · intro hyields
        exact absurd hyields not_yields_fail
      · intro h
        obtain ⟨t, -, ⟨⟨-, -, hdepth⟩, -⟩, -⟩ := h
        exact absurd hdepth (Nat.not_le.mpr t.depth_pos)
  | succ depth ih =>
      intro cursor written value after
      simp only [geometry, yields_bind_iff, yields_emit_iff, yields_byteOrder_iff,
        yields_word_iff, yields_require_iff, yields_heading_iff]
      constructor
      · rintro ⟨_, _, _, _, ⟨rfl, rfl⟩, ⟨_, _, order, flagged, ⟨rfl, hflag⟩,
          ⟨_, _, code, coded, ⟨rfl, -, hcode⟩, ⟨_, _, mode, _, ⟨rfl, hmode, rfl⟩,
          ⟨_, _, kind, _, ⟨rfl, hkind, rfl⟩, ⟨_, _, _, _, ⟨hexpected, rfl, rfl⟩,
          ⟨_, _, _, _, hcontent, ⟨rfl, rfl⟩, rfl⟩, rfl⟩, rfl⟩, rfl⟩, rfl⟩, rfl⟩, rfl⟩
        obtain ⟨t, body, ⟨rfl, rfl, hproper, hdepth, hbody⟩, hmove, rfl⟩ :=
          (renders_content kind ih _ _ _ _).mp hcontent
        have hwhole : code = t.mode.thousands + t.code := by
          have hdigit := Mode.ofDigit?_eq_some_iff.mp hmode
          have hrest := Kind.ofCode?_eq_some_iff.mp hkind
          rw [t.mode.thousands_eq, t.code_eq]
          omega
        rw [hwhole] at hcode
        refine ⟨t, t.header order ++ body,
          ⟨⟨hexpected, hproper, hdepth⟩, .intro order hbody⟩, ?_, ?_⟩
        · exact Cursor.advances_append_iff.mpr ⟨_,
            Cursor.advances_append_iff.mpr ⟨flagged, hflag, hcode⟩, hmove⟩
        · rw [textOf_name]
          simp [Tree.text, Tree.heading, Token.pieces, Piece.textOf]
      · intro h
        obtain ⟨t, _, ⟨⟨hexpected, hproper, hdepth⟩, ⟨order, hbody⟩⟩, hmove, rfl⟩ := h
        obtain ⟨coded, hheader, hmove⟩ := Cursor.advances_append_iff.mp hmove
        have hparts : cursor.Advances coded ([order.flag] ++
            order.bytes 4 (t.mode.thousands + t.code)) := hheader
        obtain ⟨flagged, hflag, hcode⟩ := Cursor.advances_append_iff.mp hparts
        have hdigit := t.mode.digit_lt
        have hcodes := t.kind.code_lt
        rw [t.mode.thousands_eq, t.code_eq] at hcode
        have hmode : Mode.ofDigit? ((1000 * t.mode.digit + t.kind.code) / 1000) = some t.mode :=
          Mode.ofDigit?_eq_some_iff.mpr (by omega)
        have hkind : Kind.ofCode? ((1000 * t.mode.digit + t.kind.code) % 1000) = some t.kind :=
          Kind.ofCode?_eq_some_iff.mpr (by omega)
        have hfits : 1000 * t.mode.digit + t.kind.code < countLimit := by
          unfold countLimit
          omega
        have hcontent : (content order t.mode expected.isNone (geometry depth) t.kind).Yields
            places coded (t.contentText places expected.isNone) () after :=
          (renders_content t.kind ih _ _ _ _).mpr
            ⟨t, _, ⟨rfl, rfl, hproper, hdepth, hbody⟩, hmove, rfl⟩
        refine ⟨_, _, (), cursor, ⟨rfl, rfl⟩, ⟨_, _, order, flagged, ⟨rfl, hflag⟩,
          ⟨_, _, _, coded, ⟨rfl, hfits, hcode⟩, ⟨_, _, t.mode, coded, ⟨rfl, hmode, rfl⟩,
          ⟨_, _, t.kind, coded, ⟨rfl, hkind, rfl⟩, ⟨_, _, (), coded, ⟨hexpected, rfl, rfl⟩,
          ⟨_, _, (), after, hcontent, ⟨rfl, rfl⟩, rfl⟩, rfl⟩, rfl⟩, rfl⟩, rfl⟩, rfl⟩, ?_⟩
        rw [textOf_name]
        simp [Tree.text, Tree.heading, Token.pieces, Piece.textOf]

end Scan

end RecordStore.Geometry
