import Mathlib
import RecordStore.Proofs.Geometry.Building
import RecordStore.Proofs.Geometry.Rendering
import RecordStore.Proofs.Text.Roomy

/-!
# From binary form to text

`pieces` turns bytes into the text of a geometry exactly if they begin with a
binary form of a proper tree that is nested at most 64 deep, and then the text
is that of the tree (`pieces_exact`).  Any other bytes are refused, as too
short or as not acceptable.
-/

namespace RecordStore.Geometry

/-- What can be wrong with a geometry: it ends too early, or it says something
that is not acceptable. -/
def IsFault (e : StoreError) : Prop :=
  (∃ length needed position, e = .corrupt (.geometryEnds length needed position)) ∨
    ∃ why, e = .invalid why

namespace Scan

variable {α β : Type}

/-- A scan fails by a fault of the geometry only. -/
def Faults (scan : Scan α) : Prop :=
  ∀ cursor written e, scan cursor = (written, .error e) → IsFault e

theorem faults_bind {first : Scan α} {next : α → Scan β} (hfirst : first.Faults)
    (hnext : ∀ value, (next value).Faults) : (first >>= next).Faults := by
  intro cursor written e h
  rw [bind_apply] at h
  split at h
  · rename_i early value middle _
    exact hnext value middle _ e (Prod.ext rfl (Prod.mk.inj h).2)
  · rename_i early fault heq
    cases h
    exact hfirst cursor _ e heq

theorem faults_pure (value : α) : (Scan.pure value).Faults := by
  intro cursor written e h
  cases h

theorem faults_emit (token : Token) : (emit token).Faults := by
  intro cursor written e h
  cases h

theorem faults_refuse (why : Refusal) : (fail (.invalid why) : Scan α).Faults := by
  intro cursor written e h
  cases h
  exact Or.inr ⟨why, rfl⟩

theorem faults_take (count : Nat) : (take count).Faults := by
  intro cursor written e h
  unfold take at h
  split at h
  · cases h
  · cases h
    exact Or.inl ⟨_, _, _, rfl⟩

/-- Whatever is built of single steps fails for want of bytes, or refuses. -/
theorem Built.faults {scan : Scan α} (h : Built scan) : scan.Faults := by
  induction h with
  | pure value => exact faults_pure value
  | emit token => exact faults_emit token
  | take count => exact faults_take count
  | refuse why => exact faults_refuse why
  | bind _ _ hfirst hnext => exact faults_bind hfirst hnext

/-- Reading a geometry fails for want of bytes, or refuses. -/
theorem faults_geometry (depth : Nat) (expected : Option Kind) :
    (geometry depth expected).Faults :=
  (built_geometry depth expected).faults

end Scan

/-- Rendering succeeds with a text exactly if reading yields it. -/
theorem pieces_ok_iff {wkb text : Bytes} {places : Nat} :
    ((pieces wkb places).2 = .ok () ∧ Piece.textOf (pieces wkb places).1 = text) ↔
      ∃ after, (Scan.geometry maxDepth none).Yields places ⟨wkb, 0⟩ text () after := by
  unfold pieces scan Scan.Yields
  rcases Scan.geometry maxDepth none ⟨wkb, 0⟩ with ⟨tokens, e | ⟨value, after⟩⟩
  · simp [Except.map]
  · simp [Except.map]

/-- A tree can be rendered, and bytes begin with a binary form of it. -/
def Tree.Begins (t : Tree) (wkb : Bytes) : Prop :=
  ∃ front, front <+: wkb ∧ t.EncodedAs front ∧ t.depth ≤ 64 ∧ t.Proper

theorem pieces_ok_iff_begins {wkb text : Bytes} {places : Nat} :
    ((pieces wkb places).2 = .ok () ∧ Piece.textOf (pieces wkb places).1 = text) ↔
      ∃ t : Tree, t.Begins wkb ∧ text = t.text places true := by
  rw [pieces_ok_iff]
  constructor
  · intro h
    obtain ⟨after, h⟩ := h
    obtain ⟨t, front, ⟨⟨-, hproper, hdepth⟩, hform⟩, hmove, rfl⟩ :=
      (Scan.renders_geometry maxDepth none _ _ _ _).mp h
    exact ⟨t, ⟨front, ⟨after.rest, hmove.1.symm⟩, hform, hdepth, hproper⟩, rfl⟩
  · intro h
    obtain ⟨t, ⟨front, ⟨rest, rfl⟩, hform, hdepth, hproper⟩, rfl⟩ := h
    refine ⟨⟨rest, front.length⟩, (Scan.renders_geometry maxDepth none _ _ _ _).mpr
      ⟨t, front, ⟨⟨by simp, hproper, hdepth⟩, hform⟩, ⟨rfl, by simp⟩, rfl⟩⟩

/-- **Rendering is exact.**  Bytes render as a text exactly if they begin with
a binary form of a proper tree, nested at most 64 deep, whose text it is; all
others are refused with a fault of the geometry.  A buffer longer than the
text holds all of it. -/
theorem pieces_exact (wkb : Bytes) (places : Nat) :
    (∀ text, (pieces wkb places).2 = .ok () ∧ Piece.textOf (pieces wkb places).1 = text ↔
      ∃ t : Tree, t.Begins wkb ∧ text = t.text places true) ∧
    ((∃ e, (pieces wkb places).2 = .error e ∧ IsFault e) ↔ ¬ ∃ t : Tree, t.Begins wkb) ∧
    ∀ buffer : Array UInt8, (Piece.textOf (pieces wkb places).1).length < buffer.size →
      ((Builder.over buffer).addAll (pieces wkb places).1).text =
        Piece.textOf (pieces wkb places).1 := by
  refine ⟨fun text => pieces_ok_iff_begins, ?_, fun buffer hroom =>
    (Builder.over_addAll_of_fits hroom).1⟩
  constructor
  · rintro ⟨e, he, -⟩ ⟨t, ht⟩
    have hok := (pieces_ok_iff_begins.mpr ⟨t, ht, rfl⟩ : _ ∧ _ = t.text places true).1
    rw [he] at hok
    cases hok
  · intro hnone
    cases hresult : (pieces wkb places).2 with
    | ok value =>
        obtain ⟨t, ht, -⟩ := pieces_ok_iff_begins.mp ⟨hresult, rfl⟩
        exact absurd ⟨t, ht⟩ hnone
    | error e =>
        refine ⟨e, rfl, ?_⟩
        unfold pieces scan at hresult
        rcases hscan : Scan.geometry maxDepth none ⟨wkb, 0⟩ with ⟨tokens, fault | value⟩
        · rw [hscan] at hresult
          cases hresult
          exact Scan.faults_geometry maxDepth none _ _ _ hscan
        · rw [hscan] at hresult
          cases hresult

/-- A point with decimal places. -/
def Tree.samplePoint : Tree :=
  .point .xy ⟨[0x4031400000000000, 0x408BE0C000000000], rfl⟩

/-- Its binary form with the greatest byte first. -/
def samplePointBytes : Bytes :=
  [0, 0, 0, 0, 1, 0x40, 0x31, 0x40, 0, 0, 0, 0, 0, 0x40, 0x8B, 0xE0, 0xC0, 0, 0, 0, 0]

/-- A collection whose members are of all kinds of modes, and one of which is
empty. -/
def Tree.sampleCollection : Tree :=
  .group .geometryCollection .xyzm
    [.point .xyz ⟨[0x3FF0000000000000, 0x4000000000000000, 0x4008000000000000], rfl⟩,
      .group .multiPoint .xym
        [.point .xym ⟨[0x4010000000000000, 0x4014000000000000, 0x4018000000000000], rfl⟩],
      .lineString .xy []]

/-- A binary form of it, in which the order of bytes changes from one geometry to
the next. -/
def sampleCollectionBytes : Bytes :=
  [1, 0xBF, 0x0B, 0, 0, 3, 0, 0, 0] ++
    [0, 0, 0, 0x03, 0xE9, 0x3F, 0xF0, 0, 0, 0, 0, 0, 0, 0x40, 0, 0, 0, 0, 0, 0, 0,
      0x40, 0x08, 0, 0, 0, 0, 0, 0] ++
    [1, 0xD4, 0x07, 0, 0, 1, 0, 0, 0] ++
    [0, 0, 0, 0x07, 0xD1, 0x40, 0x10, 0, 0, 0, 0, 0, 0, 0x40, 0x14, 0, 0, 0, 0, 0, 0,
      0x40, 0x18, 0, 0, 0, 0, 0, 0] ++
    [0, 0, 0, 0, 2, 0, 0, 0, 0]

theorem Tree.encodedAs_samplePoint : samplePoint.EncodedAs samplePointBytes := by
  have hform : samplePoint.EncodedAs (samplePoint.header .big ++ _) := .intro .big .point
  convert hform using 1
  decide +kernel

theorem Tree.encodedAs_sampleCollection : sampleCollection.EncodedAs sampleCollectionBytes := by
  have hform : sampleCollection.EncodedAs (sampleCollection.header .little ++ _) :=
    .intro .little (.group (by decide)
      (.cons (.intro .big .point)
        (.cons (.intro .little (.group (by decide) (.cons (.intro .big .point) .nil)))
          (.cons (.intro .big (.lineString (by decide))) .nil))))
  convert hform using 1
  decide +kernel

/-- The texts of both. -/
theorem pieces_exact_samples :
    ((pieces samplePointBytes 15).2 = .ok () ∧
      Piece.textOf (pieces samplePointBytes 15).1 = spell "POINT(17.25 892.09375)") ∧
    (pieces sampleCollectionBytes 15).2 = .ok () ∧
      Piece.textOf (pieces sampleCollectionBytes 15).1 =
        spell ("GEOMETRYCOLLECTION ZM(POINT Z(1 2 3),MULTIPOINT M((4 5 6))," ++
          "LINESTRING EMPTY)") := by
  constructor
  · refine ((pieces_exact samplePointBytes 15).1 _).mpr
      ⟨.samplePoint, ⟨_, List.prefix_rfl, Tree.encodedAs_samplePoint, ?_, trivial⟩, ?_⟩
    · decide
    · decide +kernel
  · refine ((pieces_exact sampleCollectionBytes 15).1 _).mpr
      ⟨.sampleCollection, ⟨_, List.prefix_rfl, Tree.encodedAs_sampleCollection, ?_, ?_⟩, ?_⟩
    · decide
    · simp [Tree.sampleCollection, Tree.Proper, Tree.AllProper, GroupKind.member?, Tree.kind]
    · decide +kernel

end RecordStore.Geometry
