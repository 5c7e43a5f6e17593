import Mathlib
import RecordStore.Geometry.Render

/-!
# What a scan of a geometry is built of

However deep a geometry is, its scan is built of five things: it yields a value,
writes a token, reads some bytes, refuses, or goes on after another scan
(`Scan.Built`, `Scan.built_geometry`).  What holds of the five, and is kept by
going on, holds of every scan of a geometry, by induction on how it is built.
-/

namespace RecordStore.Geometry.Scan

/-- A scan is built of single steps, one after another.  No step fails but for
want of bytes, or to refuse. -/
inductive Built : {α : Type} → Scan α → Prop
  | pure {α : Type} (value : α) : Built (Scan.pure value)
  | emit (token : Token) : Built (Scan.emit token)
  | take (count : Nat) : Built (Scan.take count)
  | refuse {α : Type} (why : Refusal) : Built (Scan.fail (.invalid why) : Scan α)
  | bind {α β : Type} {first : Scan α} {next : α → Scan β} (hfirst : Built first)
      (hnext : ∀ value, Built (next value)) : Built (first >>= next)

variable {α : Type} {item : Scan Unit}

theorem built_require (value : Option α) (why : Refusal) : Built (require value why) := by
  cases value with
  | none => exact .refuse why
  | some value => exact .pure value

theorem built_byteOrder : Built byteOrder :=
  .bind (.take 1) fun _ => built_require _ _

theorem built_word (order : ByteOrder) : Built (word order) :=
  .bind (.take 4) fun _ => .pure _

theorem built_coordinate (order : ByteOrder) : Built (coordinate order) :=
  .bind (.take 8) fun _ => .emit _

theorem built_following (separator : Token) (h : Built item) (count : Nat) :
    Built (following separator item count) := by
  induction count with
  | zero => exact .pure ()
  | succ count ih => exact .bind (.emit separator) fun _ => .bind h fun _ => ih

theorem built_separated (separator : Token) (h : Built item) (count : Nat) :
    Built (separated separator item count) := by
  cases count with
  | zero => exact .pure ()
  | succ count => exact .bind h fun _ => built_following separator h count

theorem built_position (order : ByteOrder) (mode : Mode) : Built (position order mode) :=
  built_separated .blank (built_coordinate order) mode.dimensions

theorem built_parenthesized (h : Built item) (count : Nat) : Built (parenthesized item count) :=
  .bind (.emit .openParen) fun _ => .bind (built_separated .comma h count) fun _ =>
    .emit .closeParen

theorem built_counted (order : ByteOrder) (afterName : Bool) (h : Built item) :
    Built (counted order afterName item) := by
  refine .bind (.emit .list) fun _ => .bind (built_word order) fun count => ?_
  split
  · exact .emit _
  · exact built_parenthesized h count

theorem built_content (order : ByteOrder) (mode : Mode) (afterName : Bool)
    {member : Option Kind → Scan Unit} (h : ∀ expected, Built (member expected)) (kind : Kind) :
    Built (content order mode afterName member kind) := by
  have hposition := built_position order mode
  unfold content
  cases kind.content with
  | nothing => exact built_parenthesized (.emit _) 1
  | position => exact built_parenthesized hposition 1
  | positions => exact built_counted order afterName hposition
  | rings => exact built_counted order afterName (built_counted order false hposition)
  | members inner => exact built_counted order afterName (h (some inner))
  | collection => exact built_counted order afterName (h none)
  | reserved => exact .refuse _

theorem built_heading (kind : Kind) (mode : Mode) (expected : Option Kind) :
    Built (heading kind mode expected) := by
  cases expected with
  | none => exact .emit _
  | some required =>
      rw [heading]
      split
      · exact .pure ()
      · exact .refuse _

/-- **The scan of a geometry** is built of single steps, however deep it goes. -/
theorem built_geometry (depth : Nat) (expected : Option Kind) :
    Built (geometry depth expected) := by
  induction depth generalizing expected with
  | zero => exact .refuse _
  | succ depth ih =>
      refine .bind (.emit .enter) fun _ => ?_
      refine .bind built_byteOrder fun order => ?_
      refine .bind (built_word order) fun code => ?_
      refine .bind (built_require _ _) fun mode => ?_
      refine .bind (built_require _ _) fun kind => ?_
      refine .bind (built_heading kind mode expected) fun _ => ?_
      exact .bind (built_content order mode expected.isNone ih kind) fun _ => .emit .leave

end RecordStore.Geometry.Scan
