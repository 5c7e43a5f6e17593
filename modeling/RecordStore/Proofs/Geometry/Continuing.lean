import Mathlib
import RecordStore.Proofs.Geometry.Building
import RecordStore.Proofs.Geometry.Tree
import RecordStore.Proofs.Text.Roomy

/-!
# Geometries that go on

What a rendering has done with some bytes it does also if more bytes follow them.
One that succeeded or refused is not changed by them; one that ran out of bytes
goes on from where it stopped, and what it had written stays in front of the rest
(`Scan.Continues`, `pieces_append`).

Two runs are compared, and what keeps them in step is that a scan sees nothing of
what it has not read: a read that the shorter bytes can satisfy comes to the same
with the longer ones, and the first that they cannot ends the shorter run.
-/

namespace RecordStore.Geometry

/-- A cursor with more bytes after those that are left. -/
def Cursor.followedBy (cursor : Cursor) (more : Bytes) : Cursor :=
  ⟨cursor.rest ++ more, cursor.position⟩

namespace Scan

variable {α β : Type}

/-- A scan that is given more bytes does what it did without them, as far as it
came: to the end, to a refusal, or to a failure. -/
structure Continues (scan : Scan α) : Prop where
  completes : ∀ {cursor written value after}, scan cursor = (written, .ok (value, after)) →
    ∀ more, scan (cursor.followedBy more) = (written, .ok (value, after.followedBy more))
  refuses : ∀ {cursor written why}, scan cursor = (written, .error (.invalid why)) →
    ∀ more, scan (cursor.followedBy more) = (written, .error (.invalid why))
  stops : ∀ {cursor written e}, scan cursor = (written, .error e) →
    ∀ more, written <+: (scan (cursor.followedBy more)).1

theorem continues_pure (value : α) : (Scan.pure value).Continues where
  completes h more := by
    cases h
    rfl
  refuses h := by cases h
  stops h := by cases h

theorem continues_emit (token : Token) : (emit token).Continues where
  completes h more := by
    cases h
    rfl
  refuses h := by cases h
  stops h := by cases h

theorem continues_refuse (why : Refusal) : (fail (.invalid why) : Scan α).Continues where
  completes h := by cases h
  refuses h more := by
    cases h
    rfl
  stops h more := by
    cases h
    exact List.nil_prefix

/-- Bytes that are there are read, whatever follows them. -/
theorem continues_take (count : Nat) : (take count).Continues where
  completes h more := by
    obtain ⟨rfl, hrest, hlength, hposition⟩ := take_ok_iff.mp h
    refine take_ok_iff.mpr ⟨rfl, ?_, hlength, hposition⟩
    rw [Cursor.followedBy, hrest, List.append_assoc]
    rfl
  refuses h := by
    unfold take at h
    split at h <;> cases h
  stops h more := by
    unfold take at h
    split at h
    · cases h
    · cases h
      exact List.nil_prefix

/-- What a scan wrote stays in front of what is written after it. -/
theorem prefix_bind (first : Scan α) (next : α → Scan β) (cursor : Cursor) :
    (first cursor).1 <+: ((first >>= next) cursor).1 := by
  rw [bind_apply]
  split
  · rename_i heq
    rw [heq]
    exact List.prefix_append _ _
  · rename_i heq
    rw [heq]

/-- The two runs of the second scan start in step if those of the first end so. -/
theorem continues_bind {first : Scan α} {next : α → Scan β} (hfirst : first.Continues)
    (hnext : ∀ value, (next value).Continues) : (first >>= next).Continues where
  completes {cursor written value after} h more := by
    rw [bind_apply] at h
    split at h
    · rename_i early found middle heq
      obtain ⟨rfl, hresult⟩ := Prod.mk.inj h
      have hlate := (hnext found).completes (Prod.ext rfl hresult) more
      rw [bind_apply, hfirst.completes heq more]
      simp only [hlate]
    · cases h
  refuses {cursor written why} h more := by
    rw [bind_apply] at h
    split at h
    · rename_i early found middle heq
      obtain ⟨rfl, hresult⟩ := Prod.mk.inj h
      have hlate := (hnext found).refuses (Prod.ext rfl hresult) more
      rw [bind_apply, hfirst.completes heq more]
      simp only [hlate]
    · rename_i early fault heq
      cases h
      rw [bind_apply, hfirst.refuses heq more]
  stops {cursor written e} h more := by
    rw [bind_apply] at h
    split at h
    · rename_i early found middle heq
      obtain ⟨rfl, hresult⟩ := Prod.mk.inj h
      have hlate := (hnext found).stops (Prod.ext rfl hresult) more
      rw [bind_apply, hfirst.completes heq more]
      exact (List.prefix_append_right_inj early).mpr hlate
    · rename_i early fault heq
      cases h
      exact (hfirst.stops heq more).trans (prefix_bind first next _)

/-- **In step.**  Whatever is built of single steps continues. -/
theorem Built.continues {scan : Scan α} (h : Built scan) : scan.Continues := by
  induction h with
  | pure value => exact continues_pure value
  | emit token => exact continues_emit token
  | take count => exact continues_take count
  | refuse why => exact continues_refuse why
  | bind _ _ hfirst hnext => exact continues_bind hfirst hnext

end Scan

/-! ## Texts -/

/-- A rendering was settled by bytes: it succeeded, or what they say is not
acceptable. -/
def Settled (result : Except StoreError Unit) : Prop :=
  result = .ok () ∨ ∃ why, result = .error (.invalid why)

section

variable {front : Bytes} {places : Nat}

theorem scan_append_of_settled (h : Settled (scan front).2) (back : Bytes) :
    scan (front ++ back) = scan front := by
  have hcontinues := (Scan.built_geometry maxDepth none).continues
  unfold scan at h ⊢
  have hcursor : (⟨front ++ back, 0⟩ : Cursor) = Cursor.followedBy ⟨front, 0⟩ back := rfl
  rw [hcursor]
  rcases hscan : Scan.geometry maxDepth none ⟨front, 0⟩ with ⟨tokens, e | ⟨value, after⟩⟩
  · rw [hscan] at h
    rcases h with h | ⟨why, h⟩
    · cases h
    · cases h
      simp only [hcontinues.refuses hscan back]
  · simp only [hcontinues.completes hscan back]
    rfl

theorem prefix_scan_append (front back : Bytes) :
    (scan front).1 <+: (scan (front ++ back)).1 := by
  have hcontinues := (Scan.built_geometry maxDepth none).continues
  unfold scan
  have hcursor : (⟨front ++ back, 0⟩ : Cursor) = Cursor.followedBy ⟨front, 0⟩ back := rfl
  rw [hcursor]
  rcases hscan : Scan.geometry maxDepth none ⟨front, 0⟩ with ⟨tokens, e | ⟨value, after⟩⟩
  · exact hcontinues.stops hscan back
  · rw [hcontinues.completes hscan back]

theorem prefix_pieces_append (front back : Bytes) (places : Nat) :
    (pieces front places).1 <+: (pieces (front ++ back) places).1 :=
  (prefix_scan_append front back).flatMap _

/-- **More bytes after a geometry** do not change what it is rendered as: not if it
was complete, and not if it was refused.  If it was cut short, its text is the front
of what it is rendered as with them.  A buffer that has room for the longer of the
two texts holds either of them. -/
theorem pieces_append (front back : Bytes) (places : Nat) :
    (Settled (pieces front places).2 →
      pieces (front ++ back) places = pieces front places) ∧
    (∀ what, (pieces front places).2 = .error (.corrupt what) →
      Piece.textOf (pieces front places).1 <+: Piece.textOf (pieces (front ++ back) places).1) ∧
    ∀ buffer : Array UInt8,
      (Piece.textOf (pieces (front ++ back) places).1).length < buffer.size →
        ((Builder.over buffer).addAll (pieces front places).1).text =
            Piece.textOf (pieces front places).1 ∧
          ((Builder.over buffer).addAll (pieces (front ++ back) places).1).text =
            Piece.textOf (pieces (front ++ back) places).1 := by
  have hfront : Piece.textOf (pieces front places).1 <+:
      Piece.textOf (pieces (front ++ back) places).1 :=
    (prefix_pieces_append front back places).flatMap _
  refine ⟨?_, fun _ _ => hfront, ?_⟩
  · intro hsettled
    unfold pieces at hsettled ⊢
    rw [scan_append_of_settled hsettled]
  · intro buffer hroom
    exact ⟨(Builder.over_addAll_of_fits (hfront.length_le.trans_lt hroom)).1,
      (Builder.over_addAll_of_fits hroom).1⟩

end

/-- A position that is cut after its first number, and a geometry that is whole. -/
theorem pieces_append_position :
    (pieces [0, 0, 0, 0, 1, 64, 0, 0, 0, 0, 0, 0, 0] 1).2 =
        .error (.corrupt (.geometryEnds 13 8 13)) ∧
      Piece.textOf (pieces [0, 0, 0, 0, 1, 64, 0, 0, 0, 0, 0, 0, 0] 1).1 = spell "POINT(2 " ∧
      spell "POINT(2 " <+: Piece.textOf (pieces
        ([0, 0, 0, 0, 1, 64, 0, 0, 0, 0, 0, 0, 0] ++ [0, 0, 0, 0, 0, 0, 0, 0]) 1).1 ∧
      Settled (pieces [0, 0, 0, 0, 2, 0, 0, 0, 0] 1).2 ∧
      pieces ([0, 0, 0, 0, 2, 0, 0, 0, 0] ++ [7]) 1 = pieces [0, 0, 0, 0, 2, 0, 0, 0, 0] 1 := by
  have hcut : (pieces [0, 0, 0, 0, 1, 64, 0, 0, 0, 0, 0, 0, 0] 1).2 =
      .error (.corrupt (.geometryEnds 13 8 13)) := by rfl
  have htext : Piece.textOf (pieces [0, 0, 0, 0, 1, 64, 0, 0, 0, 0, 0, 0, 0] 1).1 =
      spell "POINT(2 " := by decide +kernel
  have hwhole : Settled (pieces [0, 0, 0, 0, 2, 0, 0, 0, 0] 1).2 := .inl rfl
  refine ⟨hcut, htext, ?_, hwhole, (pieces_append _ [7] 1).1 hwhole⟩
  rw [← htext]
  exact (pieces_append _ [0, 0, 0, 0, 0, 0, 0, 0] 1).2.1 _ hcut

end RecordStore.Geometry
