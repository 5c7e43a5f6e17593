import Mathlib
import RecordStore.Proofs.Geometry.Spending

/-!
# A rendering that keeps books

A scan is handed what is left to read and how deep it may go.  Here the same
rendering is run with one position and one depth counter that every part of it
shares, as a program has them, and with a ledger of what it reads and writes.
The counter is counted up where a geometry begins and down where it ends,
however it ends; the recursion is on a number of its own, which the counter
never lets run out.

* `Metered.Follows` ties a metered rendering to a scan, and has one rule for
  each step;
* `Progress.Orderly` is what every step preserves: the bytes read so far are
  those before the position, each once and in order;
* `Metered.rendering_bounded` — the two agree on every input, and the ledger
  is bounded by the number of bytes, whatever they claim.
-/

namespace RecordStore.Geometry

/-- An entry of the ledger. -/
inductive Act
  /-- Bytes are read: so many, from a position on. -/
  | read (position count : Nat)
  /-- A token is written. -/
  | write (token : Token)
  deriving DecidableEq, Repr

namespace Act

/-- The token an act writes. -/
def token? : Act → Option Token
  | .read _ _ => none
  | .write token => some token

/-- The positions of the bytes an act reads, in order. -/
def positions : Act → List Nat
  | .read position count => List.range' position count
  | .write _ => []

end Act

/-- The state of a rendering, and its ledger. -/
structure Progress where
  /-- Where the next byte is read. -/
  position : Nat
  /-- The geometries that are being rendered. -/
  depth : Nat
  /-- The most geometries that were being rendered at once. -/
  deepest : Nat
  /-- What was done, in order. -/
  acts : List Act
  deriving DecidableEq, Repr

namespace Progress

/-- Nothing is done yet. -/
def start : Progress := ⟨0, 0, 0, []⟩

/-- The tokens written, in order. -/
def tokens (progress : Progress) : List Token :=
  progress.acts.filterMap Act.token?

/-- The positions of the bytes read, in order. -/
def positions (progress : Progress) : List Nat :=
  progress.acts.flatMap Act.positions

/-- One more token is written. -/
def wrote (progress : Progress) (token : Token) : Progress :=
  { progress with acts := progress.acts ++ [.write token] }

/-- The next bytes are read. -/
def consumed (progress : Progress) (count : Nat) : Progress :=
  { progress with
    position := progress.position + count
    acts := progress.acts ++ [.read progress.position count] }

/-- One more geometry is being rendered. -/
def deeper (progress : Progress) : Progress :=
  { progress with
    depth := progress.depth + 1
    deepest := max progress.deepest (progress.depth + 1) }

/-- One geometry less is being rendered. -/
def shallower (progress : Progress) : Progress :=
  { progress with depth := progress.depth - 1 }

/-- **What every step preserves.**  The bytes before the position were read,
each once and in order, and no others; each act read a byte or wrote a token;
and the depth never exceeded the limit. -/
structure Orderly (progress : Progress) (wkb : Bytes) : Prop where
  positions_eq : progress.positions = List.range progress.position
  position_le : progress.position ≤ wkb.length
  acts_le : progress.acts.length ≤ progress.tokens.length + progress.position
  depth_le : progress.depth ≤ maxDepth
  deepest_le : progress.deepest ≤ maxDepth

/-- What a scan has before it where the rendering is. -/
def cursor (progress : Progress) (wkb : Bytes) : Cursor :=
  ⟨wkb.drop progress.position, progress.position⟩

variable {progress : Progress} {wkb : Bytes}

theorem orderly_start : start.Orderly wkb :=
  ⟨rfl, Nat.zero_le _, Nat.zero_le _, Nat.zero_le _, Nat.zero_le _⟩

@[simp] theorem tokens_wrote (token : Token) :
    (progress.wrote token).tokens = progress.tokens ++ [token] := by
  simp [tokens, wrote, Act.token?]

@[simp] theorem tokens_consumed (count : Nat) :
    (progress.consumed count).tokens = progress.tokens := by
  simp [tokens, consumed, Act.token?]

@[simp] theorem tokens_deeper : progress.deeper.tokens = progress.tokens := rfl

@[simp] theorem tokens_shallower : progress.shallower.tokens = progress.tokens := rfl

@[simp] theorem cursor_deeper : progress.deeper.cursor wkb = progress.cursor wkb := rfl

@[simp] theorem cursor_shallower : progress.shallower.cursor wkb = progress.cursor wkb := rfl

theorem Orderly.wrote (h : progress.Orderly wkb) (token : Token) :
    (progress.wrote token).Orderly wkb where
  positions_eq := by simpa [positions, Progress.wrote, Act.positions] using h.positions_eq
  position_le := h.position_le
  acts_le := by
    have hacts := h.acts_le
    rw [tokens_wrote]
    simp only [Progress.wrote, List.length_append, List.length_singleton]
    omega
  depth_le := h.depth_le
  deepest_le := h.deepest_le

/-- Reading takes up where reading left off. -/
theorem Orderly.consumed (h : progress.Orderly wkb) {count : Nat} (hsome : 0 < count)
    (hinside : progress.position + count ≤ wkb.length) :
    (progress.consumed count).Orderly wkb where
  positions_eq := by
    have hbefore := h.positions_eq
    simp only [positions, Progress.consumed, List.flatMap_append, List.flatMap_singleton,
      Act.positions] at hbefore ⊢
    rw [hbefore, List.range_add, List.range'_eq_map_range]
  position_le := hinside
  acts_le := by
    have hacts := h.acts_le
    rw [tokens_consumed]
    simp only [Progress.consumed, List.length_append, List.length_singleton]
    omega
  depth_le := h.depth_le
  deepest_le := h.deepest_le

theorem Orderly.deeper (h : progress.Orderly wkb) (hroom : progress.depth ≠ maxDepth) :
    progress.deeper.Orderly wkb where
  positions_eq := h.positions_eq
  position_le := h.position_le
  acts_le := h.acts_le
  depth_le := Nat.lt_of_le_of_ne h.depth_le hroom
  deepest_le := Nat.max_le.mpr ⟨h.deepest_le, Nat.lt_of_le_of_ne h.depth_le hroom⟩

theorem Orderly.shallower (h : progress.Orderly wkb) : progress.shallower.Orderly wkb where
  positions_eq := h.positions_eq
  position_le := h.position_le
  acts_le := h.acts_le
  depth_le := (Nat.sub_le _ _).trans h.depth_le
  deepest_le := h.deepest_le

end Progress

/-- A part of a rendering that keeps books. -/
def Metered (α : Type) : Type :=
  Progress → Except StoreError α × Progress

namespace Metered

variable {α β : Type}

/-- Does nothing. -/
def pure (value : α) : Metered α :=
  fun progress => (.ok value, progress)

/-- Goes on with `next` after `first`; a failure of `first` is final. -/
def bind (first : Metered α) (next : α → Metered β) : Metered β :=
  fun progress =>
    match first progress with
    | (.ok value, progress) => next value progress
    | (.error e, progress) => (.error e, progress)

instance : Monad Metered where
  pure := Metered.pure
  bind := Metered.bind

/-- Fails and does nothing else. -/
def fail (e : StoreError) : Metered α :=
  fun progress => (.error e, progress)

/-- Writes a token. -/
def write (token : Token) : Metered Unit :=
  fun progress => (.ok (), progress.wrote token)

/-- A value where there is one, or a refusal. -/
def require (value : Option α) (why : Refusal) : Metered α :=
  match value with
  | some value => pure value
  | none => fail (.invalid why)

/-- Renders a geometry: counts it while `inner` renders what it is, and no
longer, also if that fails.  A geometry that is nested too deeply is refused. -/
def entered (inner : Metered Unit) : Metered Unit :=
  fun progress =>
    if progress.depth = maxDepth then (.error (.invalid (.nesting maxDepth)), progress)
    else
      let (result, after) := inner progress.deeper
      (result, after.shallower)

section

variable (wkb : Bytes)

/-- Reads the bytes at the position. -/
def read (count : Nat) : Metered Bytes :=
  fun progress =>
    match Bytes.window? wkb progress.position count with
    | some bytes => (.ok bytes, progress.consumed count)
    | none => (.error (.corrupt (.geometryEnds wkb.length count progress.position)), progress)

/-- Reads a byte order flag. -/
def byteOrder : Metered ByteOrder := do
  let flag ← read wkb 1
  let flag := Bytes.ofLittleEndian flag
  require (ByteOrder.ofFlag? flag) (.byteOrder flag)

/-- Reads a number of four bytes. -/
def word (order : ByteOrder) : Metered Nat := do
  let bytes ← read wkb 4
  return order.number bytes

/-- Reads a number of a position and writes it. -/
def coordinate (order : ByteOrder) : Metered Unit := do
  let bytes ← read wkb 8
  write (.coordinate (order.number bytes))

/-- As many more items as `count` says, each with a separator before it. -/
def following (separator : Token) (item : Metered Unit) : (count : Nat) → Metered Unit
  | 0 => pure ()
  | count + 1 => do
    write separator
    item
    following separator item count

/-- As many items as `count` says, with separators between them. -/
def separated (separator : Token) (item : Metered Unit) : (count : Nat) → Metered Unit
  | 0 => pure ()
  | count + 1 => do
    item
    following separator item count

/-- The numbers of a position. -/
def position (order : ByteOrder) (mode : Mode) : Metered Unit :=
  separated .blank (coordinate wkb order) mode.dimensions

/-- As many items as `count` says, in parentheses. -/
def parenthesized (item : Metered Unit) (count : Nat) : Metered Unit := do
  write .openParen
  separated .comma item count
  write .closeParen

/-- A list that starts with the number of its items. -/
def counted (order : ByteOrder) (afterName : Bool) (item : Metered Unit) : Metered Unit := do
  write .list
  let count ← word wkb order
  if count = 0 then write (.empty afterName) else parenthesized item count

/-- What a geometry is made of. -/
def content (order : ByteOrder) (mode : Mode) (afterName : Bool)
    (member : Option Kind → Metered Unit) (kind : Kind) : Metered Unit :=
  match kind.content with
  | .nothing => parenthesized (write (.empty false)) 1
  | .position => parenthesized (position wkb order mode) 1
  | .positions => counted wkb order afterName (position wkb order mode)
  | .rings => counted wkb order afterName (counted wkb order false (position wkb order mode))
  | .members kind => counted wkb order afterName (member (some kind))
  | .collection => counted wkb order afterName (member none)
  | .reserved => fail (.invalid (.reservedKind kind))

/-- The name of a geometry of any kind, or a check of its kind. -/
def heading (kind : Kind) (mode : Mode) : (expected : Option Kind) → Metered Unit
  | none => write (.name kind mode)
  | some expected =>
    if expected = kind then pure () else fail (.invalid (.unexpectedKind expected kind))

/-- A geometry.  The number that the recursion is on does not refuse anything:
the counter does. -/
def geometry : (fuel : Nat) → (expected : Option Kind) → Metered Unit
  | 0, _ => entered (fail (.invalid (.nesting maxDepth)))
  | fuel + 1, expected => entered do
    write .enter
    let order ← byteOrder wkb
    let code ← word wkb order
    let mode ← require (Mode.ofDigit? (code / 1000)) (.coordinateType (code / 1000))
    let kind ← require (Kind.ofCode? (code % 1000)) (.geometryCode (code % 1000))
    heading kind mode expected
    content wkb order mode expected.isNone (geometry fuel) kind
    write .leave

/-- Renders a geometry from its first byte on. -/
def rendering : Except StoreError Unit × Progress :=
  geometry wkb maxDepth none .start

end

theorem bind_apply (first : Metered α) (next : α → Metered β) (progress : Progress) :
    (first >>= next) progress =
      match first progress with
      | (.ok value, progress) => next value progress
      | (.error e, progress) => (.error e, progress) :=
  rfl

/-- A metered rendering does what a scan does that may go as much deeper as
the counter allows; it leaves the counter as it was and the ledger orderly. -/
structure Follows (wkb : Bytes) (deeper : Nat) (metered : Metered α) (scan : Scan α) :
    Prop where
  restores : ∀ before, (metered before).2.depth = before.depth
  orderly : ∀ {before : Progress}, before.Orderly wkb → (metered before).2.Orderly wkb
  tokens : ∀ {before : Progress}, before.Orderly wkb → before.depth + deeper = maxDepth →
    (metered before).2.tokens = before.tokens ++ (scan (before.cursor wkb)).1
  result : ∀ {before : Progress}, before.Orderly wkb → before.depth + deeper = maxDepth →
    (scan (before.cursor wkb)).2 =
      (metered before).1.map fun value => (value, (metered before).2.cursor wkb)

variable {wkb : Bytes} {deeper : Nat} {item : Metered Unit} {scanned : Scan Unit}

theorem follows_pure (value : α) : Follows wkb deeper (pure value) (Scan.pure value) where
  restores _ := rfl
  orderly h := h
  tokens _ _ := (List.append_nil _).symm
  result _ _ := rfl

theorem follows_fail (e : StoreError) :
    Follows wkb deeper (fail e : Metered α) (Scan.fail e) where
  restores _ := rfl
  orderly h := h
  tokens _ _ := (List.append_nil _).symm
  result _ _ := rfl

theorem follows_require (value : Option α) (why : Refusal) :
    Follows wkb deeper (require value why) (Scan.require value why) := by
  cases value with
  | none => exact follows_fail _
  | some value => exact follows_pure value

theorem follows_write (token : Token) :
    Follows wkb deeper (write token) (Scan.emit token) where
  restores _ := rfl
  orderly h := h.wrote token
  tokens _ _ := Progress.tokens_wrote token
  result _ _ := rfl

theorem follows_bind {first : Metered α} {next : α → Metered β} {scan : Scan α}
    {scanNext : α → Scan β} (hfirst : Follows wkb deeper first scan)
    (hnext : ∀ value, Follows wkb deeper (next value) (scanNext value)) :
    Follows wkb deeper (first >>= next) (scan >>= scanNext) where
  restores before := by
    have hdepth := hfirst.restores before
    rw [bind_apply]
    rcases hrun : first before with ⟨_ | value, middle⟩
    · rwa [hrun] at hdepth
    · rw [hrun] at hdepth
      exact ((hnext value).restores middle).trans hdepth
  orderly {before} h := by
    have hearly := hfirst.orderly h
    rw [bind_apply]
    rcases hrun : first before with ⟨_ | value, middle⟩
    · rwa [hrun] at hearly
    · rw [hrun] at hearly
      exact (hnext value).orderly hearly
  tokens {before} h hdeeper := by
    have hdepth := hfirst.restores before
    have hearly := hfirst.orderly h
    have htokens := hfirst.tokens h hdeeper
    have hresult := hfirst.result h hdeeper
    rw [bind_apply, Scan.bind_apply]
    rcases hscan : scan (before.cursor wkb) with ⟨written, ended⟩
    rcases hrun : first before with ⟨e | value, middle⟩
    · rw [hrun, hscan] at htokens hresult
      obtain rfl : ended = .error e := hresult
      exact htokens
    · rw [hrun] at hdepth hearly
      rw [hrun, hscan] at htokens hresult
      obtain rfl : ended = .ok (value, middle.cursor wkb) := hresult
      have hlate := (hnext value).tokens hearly (hdepth ▸ hdeeper)
      rw [hlate, htokens, List.append_assoc]
  result {before} h hdeeper := by
    have hdepth := hfirst.restores before
    have hearly := hfirst.orderly h
    have hresult := hfirst.result h hdeeper
    rw [bind_apply, Scan.bind_apply]
    rcases hscan : scan (before.cursor wkb) with ⟨written, ended⟩
    rcases hrun : first before with ⟨e | value, middle⟩
    · rw [hrun, hscan] at hresult
      obtain rfl : ended = .error e := hresult
      rfl
    · rw [hrun] at hdepth hearly
      rw [hrun, hscan] at hresult
      obtain rfl : ended = .ok (value, middle.cursor wkb) := hresult
      exact (hnext value).result hearly (hdepth ▸ hdeeper)

/-- Reading at the position is reading from the front of what is left. -/
theorem take_cursor {before : Progress} {count : Nat} (h : before.position ≤ wkb.length) :
    Scan.take count (before.cursor wkb) =
      ([], (read wkb count before).1.map fun bytes =>
        (bytes, (read wkb count before).2.cursor wkb)) := by
  unfold Scan.take read Bytes.window? Progress.cursor
  dsimp only
  rcases hsplit : Bytes.split? count (wkb.drop before.position) with _ | ⟨front, rest⟩
  · have hshort := Bytes.split?_eq_none_iff.mp hsplit
    rw [List.length_drop] at hshort
    rw [if_neg (by omega), List.length_drop, Nat.add_sub_cancel' h]
    rfl
  · obtain ⟨hwhole, hlength⟩ := Bytes.split?_eq_some_iff.mp hsplit
    have hfits := congrArg List.length hwhole
    rw [List.length_drop, List.length_append, hlength] at hfits
    have hfront : (wkb.drop before.position).take count = front := by
      rw [hwhole, ← hlength, List.take_left]
    have hrest : wkb.drop (before.position + count) = rest := by
      rw [← List.drop_drop, hwhole, ← hlength, List.drop_left]
    rw [if_pos (by omega), hfront, ← hrest]
    rfl

theorem follows_read {count : Nat} (hsome : 0 < count) :
    Follows wkb deeper (read wkb count) (Scan.take count) where
  restores before := by
    unfold read
    split <;> rfl
  orderly {before} h := by
    unfold read Bytes.window?
    split
    · rename_i bytes hwindow
      split at hwindow
      · rename_i hinside
        exact h.consumed hsome hinside
      · cases hwindow
    · exact h
  tokens h _ := by
    rw [take_cursor h.position_le, List.append_nil]
    unfold read
    split
    · exact Progress.tokens_consumed count
    · rfl
  result h _ := by rw [take_cursor h.position_le]

theorem follows_byteOrder : Follows wkb deeper (byteOrder wkb) Scan.byteOrder :=
  follows_bind (follows_read (by decide)) fun _ => follows_require _ _

theorem follows_word (order : ByteOrder) :
    Follows wkb deeper (word wkb order) (Scan.word order) :=
  follows_bind (follows_read (by decide)) fun _ => follows_pure _

theorem follows_coordinate (order : ByteOrder) :
    Follows wkb deeper (coordinate wkb order) (Scan.coordinate order) :=
  follows_bind (follows_read (by decide)) fun _ => follows_write _

theorem follows_following (separator : Token) (h : Follows wkb deeper item scanned)
    (count : Nat) :
    Follows wkb deeper (following separator item count)
      (Scan.following separator scanned count) := by
  induction count with
  | zero => exact follows_pure ()
  | succ count ih =>
      exact follows_bind (follows_write separator) fun _ => follows_bind h fun _ => ih

theorem follows_separated (separator : Token) (h : Follows wkb deeper item scanned)
    (count : Nat) :
    Follows wkb deeper (separated separator item count)
      (Scan.separated separator scanned count) := by
  cases count with
  | zero => exact follows_pure ()
  | succ count => exact follows_bind h fun _ => follows_following separator h count

theorem follows_position (order : ByteOrder) (mode : Mode) :
    Follows wkb deeper (position wkb order mode) (Scan.position order mode) :=
  follows_separated .blank (follows_coordinate order) _

theorem follows_parenthesized (h : Follows wkb deeper item scanned) (count : Nat) :
    Follows wkb deeper (parenthesized item count) (Scan.parenthesized scanned count) :=
  follows_bind (follows_write _) fun _ => follows_bind (follows_separated .comma h count) fun _ =>
    follows_write _

theorem follows_counted (order : ByteOrder) (afterName : Bool)
    (h : Follows wkb deeper item scanned) :
    Follows wkb deeper (counted wkb order afterName item)
      (Scan.counted order afterName scanned) := by
  refine follows_bind (follows_write _) fun _ => follows_bind (follows_word order) fun count => ?_
  split
  · exact follows_write _
  · exact follows_parenthesized h count

theorem follows_content (order : ByteOrder) (mode : Mode) (afterName : Bool) (kind : Kind)
    {member : Option Kind → Metered Unit} {scannedMember : Option Kind → Scan Unit}
    (hmember : ∀ expected, Follows wkb deeper (member expected) (scannedMember expected)) :
    Follows wkb deeper (content wkb order mode afterName member kind)
      (Scan.content order mode afterName scannedMember kind) := by
  unfold content Scan.content
  cases kind.content with
  | nothing => exact follows_parenthesized (follows_write _) 1
  | position => exact follows_parenthesized (follows_position order mode) 1
  | positions => exact follows_counted order afterName (follows_position order mode)
  | rings =>
      exact follows_counted order afterName
        (follows_counted order false (follows_position order mode))
  | members inner => exact follows_counted order afterName (hmember (some inner))
  | collection => exact follows_counted order afterName (hmember none)
  | reserved => exact follows_fail _

theorem follows_heading (kind : Kind) (mode : Mode) (expected : Option Kind) :
    Follows wkb deeper (heading kind mode expected) (Scan.heading kind mode expected) := by
  cases expected with
  | none => exact follows_write _
  | some required =>
      rw [heading, Scan.heading]
      split
      · exact follows_pure ()
      · exact follows_fail _

theorem entered_eq_of_full {before : Progress} (hfull : before.depth = maxDepth) :
    entered item before = (.error (.invalid (.nesting maxDepth)), before) :=
  if_pos hfull

theorem entered_eq_of_room {before : Progress} (hroom : before.depth ≠ maxDepth) :
    entered item before =
      ((item before.deeper).1, (item before.deeper).2.shallower) :=
  if_neg hroom

/-- The counter is as before, whether the geometry is refused, fails or is
rendered. -/
theorem depth_entered (hrestores : ∀ before, (item before).2.depth = before.depth)
    (before : Progress) : (entered item before).2.depth = before.depth := by
  by_cases hfull : before.depth = maxDepth
  · rw [entered_eq_of_full hfull]
  · rw [entered_eq_of_room hfull]
    calc (item before.deeper).2.shallower.depth
        = (item before.deeper).2.depth - 1 := rfl
      _ = before.deeper.depth - 1 := by rw [hrestores]
      _ = before.depth := rfl

theorem orderly_entered
    (horderly : ∀ {before : Progress}, before.Orderly wkb → (item before).2.Orderly wkb)
    {before : Progress} (h : before.Orderly wkb) : (entered item before).2.Orderly wkb := by
  by_cases hfull : before.depth = maxDepth
  · rw [entered_eq_of_full hfull]
    exact h
  · rw [entered_eq_of_room hfull]
    exact (horderly (h.deeper hfull)).shallower

/-- The counter refuses a geometry exactly where the scan has no depth left. -/
theorem follows_entered_zero (h : Follows wkb 0 item scanned) :
    Follows wkb 0 (entered item) (Scan.fail (.invalid (.nesting maxDepth))) where
  restores := depth_entered h.restores
  orderly := orderly_entered h.orderly
  tokens {before} _ hfull := by
    rw [entered_eq_of_full hfull]
    exact (List.append_nil _).symm
  result {before} _ hfull := by
    rw [entered_eq_of_full hfull]
    rfl

theorem follows_entered_succ (h : Follows wkb deeper item scanned) :
    Follows wkb (deeper + 1) (entered item) scanned where
  restores := depth_entered h.restores
  orderly := orderly_entered h.orderly
  tokens {before} hbefore hdeeper := by
    have hroom : before.depth ≠ maxDepth := by omega
    have hinner : before.deeper.depth + deeper = maxDepth :=
      (Nat.succ_add_eq_add_succ _ _).trans hdeeper
    have htokens := h.tokens (hbefore.deeper hroom) hinner
    rw [entered_eq_of_room hroom]
    simpa using htokens
  result {before} hbefore hdeeper := by
    have hroom : before.depth ≠ maxDepth := by omega
    have hinner : before.deeper.depth + deeper = maxDepth :=
      (Nat.succ_add_eq_add_succ _ _).trans hdeeper
    have hresult := h.result (hbefore.deeper hroom) hinner
    rw [entered_eq_of_room hroom]
    simpa using hresult

/-- **One counter or a depth handed down**: the renderings are the same. -/
theorem follows_geometry (wkb : Bytes) (depth : Nat) (expected : Option Kind) :
    Follows wkb depth (geometry wkb depth expected) (Scan.geometry depth expected) := by
  induction depth generalizing expected with
  | zero => exact follows_entered_zero (follows_fail (.invalid (.nesting maxDepth)))
  | succ depth ih =>
      refine follows_entered_succ ?_
      refine follows_bind (follows_write _) fun _ => ?_
      refine follows_bind follows_byteOrder fun order => ?_
      refine follows_bind (follows_word order) fun code => ?_
      refine follows_bind (follows_require _ _) fun mode => ?_
      refine follows_bind (follows_require _ _) fun kind => ?_
      refine follows_bind (follows_heading kind mode expected) fun _ => ?_
      refine follows_bind (follows_content order mode expected.isNone kind ih) fun _ => ?_
      exact follows_write _

/-- On every input the metered rendering is the rendering. -/
theorem scan_eq_rendering (wkb : Bytes) :
    scan wkb = ((rendering wkb).2.tokens, (rendering wkb).1) := by
  have hfollows := follows_geometry wkb maxDepth none
  have htokens := hfollows.tokens Progress.orderly_start rfl
  have hresult := hfollows.result Progress.orderly_start rfl
  have hcursor : Progress.start.cursor wkb = ⟨wkb, 0⟩ := rfl
  rw [hcursor] at htokens hresult
  refine Prod.ext htokens.symm ?_
  unfold scan rendering
  simp only [hresult]
  rcases (geometry wkb maxDepth none .start).1 with e | value <;> rfl

/-- **Claimed counts do not make rendering longer.**  The rendering ends after at
most three acts for each byte, and one; it reads the bytes before its last
position, each once and in order, and none past the end; what it writes and
enters is bounded by the number of bytes; it is never more than 64 geometries
deep, and every geometry leaves the depth counter as it found it. -/
theorem rendering_bounded (wkb : Bytes) :
    scan wkb = ((rendering wkb).2.tokens, (rendering wkb).1) ∧
      (rendering wkb).2.acts.length ≤ 3 * wkb.length + 1 ∧
      (rendering wkb).2.positions = List.range (rendering wkb).2.position ∧
      (rendering wkb).2.position ≤ wkb.length ∧
      coordinatesOf (rendering wkb).2.tokens ≤ wkb.length / 8 ∧
      geometriesOf (rendering wkb).2.tokens ≤ wkb.length / 5 + 1 ∧
      listsOf (rendering wkb).2.tokens ≤ wkb.length / 4 + 1 ∧
      (rendering wkb).2.deepest ≤ 64 ∧
      (rendering wkb).2.depth = 0 ∧
      ∀ fuel expected before,
        (geometry wkb fuel expected before).2.depth = before.depth := by
  have horderly : (rendering wkb).2.Orderly wkb :=
    (follows_geometry wkb maxDepth none).orderly Progress.orderly_start
  have hscan := scan_eq_rendering wkb
  have htokens : (rendering wkb).2.tokens = (scan wkb).1 := by rw [hscan]
  have hacts := horderly.acts_le
  have hinside := horderly.position_le
  have hlength := length_scan_le wkb
  have hextent := extent_scan_le wkb
  have hentered := geometriesOf_scan_pos wkb
  rw [← htokens] at hlength hextent hentered
  refine ⟨hscan, by omega, horderly.positions_eq, hinside, by omega, by omega, by omega,
    horderly.deepest_le, (follows_geometry wkb maxDepth none).restores _, ?_⟩
  intro fuel expected
  exact (follows_geometry wkb fuel expected).restores

/-- A line that claims to have four billion positions and ends there: the
rendering enters it, reads its head and its count, and stops. -/
example :
    (rendering [0, 0, 0, 0, 2, 255, 255, 255, 255]).2.acts =
      [.write .enter, .read 0 1, .read 1 4, .write (.name .lineString .xy), .write .list,
        .read 5 4, .write .openParen] := by
  decide +kernel

end Metered

end RecordStore.Geometry
