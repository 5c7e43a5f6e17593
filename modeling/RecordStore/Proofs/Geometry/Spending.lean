import Mathlib
import RecordStore.Geometry.Render

/-!
# What rendering costs

The counts in a geometry are claims: a list may say that it has four billion
items and end after the first.  What bounds a rendering is therefore not what
the bytes say but how many they are.

A `Tariff` gives each token a price and says how much a byte that is read pays
towards it.  The prices are such that an item of a list, its separator
included, is paid for by the bytes of that item alone; so a list is paid for
however many items it claims, and if it ends early the geometry, or list, that
was begun last is all that may be owing (`Scan.pays_geometry`).

* `Tariff.total_scan_le` — the tokens of any geometry cost no more than its
  bytes pay and the credit;
* `Tariff.extent` prices what takes up bytes, `Tariff.steps` every token.
-/

namespace RecordStore.Geometry

/-- Prices of tokens, what a byte pays, and what may be owing in the end. -/
structure Tariff where
  enter : Nat
  leave : Nat
  list : Nat
  name : Nat
  empty : Nat
  openParen : Nat
  closeParen : Nat
  separator : Nat
  coordinate : Nat
  /-- What each byte that is read pays. -/
  rate : Nat
  /-- What a scan that fails may owe. -/
  credit : Nat
  /-- Eight bytes pay for a number. -/
  coordinate_le : coordinate + separator ≤ 8 * rate
  /-- Four bytes pay for a list without items. -/
  emptyList_le : list + empty + separator ≤ 4 * rate
  /-- Four bytes pay for the outside of a list. -/
  parentheses_le : list + openParen + closeParen + separator ≤ 4 * rate
  /-- Five bytes pay for a geometry, whatever is in it. -/
  geometry_le :
    enter + name + (openParen + empty + closeParen) + leave + separator ≤ 5 * rate
  /-- A list may be owing. -/
  list_le : list ≤ credit
  /-- A geometry may be owing. -/
  enter_le : enter ≤ credit

namespace Tariff

/-- The price of a token. -/
def price (tariff : Tariff) : Token → Nat
  | .enter => tariff.enter
  | .leave => tariff.leave
  | .list => tariff.list
  | .name _ _ => tariff.name
  | .empty _ => tariff.empty
  | .openParen => tariff.openParen
  | .closeParen => tariff.closeParen
  | .comma | .blank => tariff.separator
  | .coordinate _ => tariff.coordinate

/-- The price of some tokens. -/
def total (tariff : Tariff) (tokens : List Token) : Nat :=
  (tokens.map tariff.price).sum

@[simp] theorem total_nil (tariff : Tariff) : tariff.total [] = 0 := rfl

@[simp] theorem total_cons (tariff : Tariff) (token : Token) (tokens : List Token) :
    tariff.total (token :: tokens) = tariff.price token + tariff.total tokens := by
  simp [total]

@[simp] theorem total_append (tariff : Tariff) (early late : List Token) :
    tariff.total (early ++ late) = tariff.total early + tariff.total late := by
  simp [total]

end Tariff

namespace Scan

variable {α β : Type} {tariff : Tariff} {item : Scan Unit} {owed owing : Int}

/-- **Paying as one reads.**  If `owed` is owing before the scan, no more than
`owing` is after it; and if it fails, no more than the credit, even if what is
left had been read too. -/
structure Pays (tariff : Tariff) (owed owing : Int) (scan : Scan α) : Prop where
  completes : ∀ {cursor written value after}, scan cursor = (written, .ok (value, after)) →
    owed + tariff.total written + tariff.rate * after.rest.length ≤
      owing + tariff.rate * cursor.rest.length
  stops : ∀ {cursor written e}, scan cursor = (written, .error e) →
    owed + tariff.total written ≤ tariff.credit + tariff.rate * cursor.rest.length

/-- What is owing before and after may both be less. -/
theorem Pays.less {scan : Scan α} {owed' owing' : Int} (h : scan.Pays tariff owed owing)
    (hless : owed' ≤ owed) (hmore : owing - owed ≤ owing' - owed') :
    scan.Pays tariff owed' owing' where
  completes hscan := by
    have := h.completes hscan
    omega
  stops hscan := by
    have := h.stops hscan
    omega

theorem pays_bind {between : Int} {first : Scan α} {next : α → Scan β}
    (hfirst : first.Pays tariff owed between)
    (hnext : ∀ value, (next value).Pays tariff between owing) :
    (first >>= next).Pays tariff owed owing where
  completes {cursor written value after} h := by
    rw [bind_apply] at h
    split at h
    · rename_i early found middle heq
      obtain ⟨rfl, hresult⟩ := Prod.mk.inj h
      have hlate : next found middle = ((next found middle).1, .ok (value, after)) :=
        Prod.ext rfl hresult
      have hearly := hfirst.completes heq
      have hlater := (hnext found).completes hlate
      simp only [Tariff.total_append, Nat.cast_add]
      omega
    · cases h
  stops {cursor written e} h := by
    rw [bind_apply] at h
    split at h
    · rename_i early found middle heq
      obtain ⟨rfl, hresult⟩ := Prod.mk.inj h
      have hlate : next found middle = ((next found middle).1, .error e) :=
        Prod.ext rfl hresult
      have hearly := hfirst.completes heq
      have hlater := (hnext found).stops hlate
      simp only [Tariff.total_append, Nat.cast_add]
      omega
    · rename_i early fault heq
      cases h
      exact hfirst.stops heq

theorem pays_pure (value : α) : (pure value : Scan α).Pays tariff owed owed where
  completes h := by
    cases h
    simp
  stops h := by cases h

/-- Writing is owing. -/
theorem pays_emit (token : Token) (h : owed + tariff.price token ≤ owing) :
    (emit token).Pays tariff owed owing where
  completes hscan := by
    cases hscan
    simp only [Tariff.total_cons, Tariff.total_nil, Nat.add_zero]
    omega
  stops hscan := by cases hscan

/-- Refusing needs the credit. -/
theorem pays_fail (e : StoreError) (hcredit : owed ≤ tariff.credit) :
    (fail e : Scan α).Pays tariff owed owing where
  completes h := by cases h
  stops {cursor written e} h := by
    cases h
    have hleft : (0 : Int) ≤ tariff.rate * cursor.rest.length := by positivity
    simp only [Tariff.total_nil, Nat.cast_zero]
    omega

theorem pays_require (value : Option α) (why : Refusal) (hcredit : owed ≤ tariff.credit) :
    (require value why).Pays tariff owed owed := by
  cases value with
  | none => exact pays_fail _ hcredit
  | some value => exact pays_pure value

/-- Reading pays. -/
theorem pays_take (count : Nat) (hcredit : owed ≤ tariff.credit) :
    (take count).Pays tariff owed (owed - tariff.rate * count) where
  completes {cursor written value after} h := by
    obtain ⟨rfl, hrest, hlength, -⟩ := take_ok_iff.mp h
    have hleft : (cursor.rest.length : Int) = count + after.rest.length := by
      rw [hrest, List.length_append, hlength, Nat.cast_add]
    simp only [Tariff.total_nil, Nat.cast_zero, hleft, Int.mul_add]
    omega
  stops {cursor written e} h := by
    unfold take at h
    split at h
    · cases h
    · cases h
      have hleft : (0 : Int) ≤ tariff.rate * cursor.rest.length := by positivity
      simp only [Tariff.total_nil, Nat.cast_zero]
      omega

theorem pays_byteOrder (hcredit : owed ≤ tariff.credit) :
    byteOrder.Pays tariff owed (owed - tariff.rate) := by
  have hread := pays_take 1 hcredit
  refine pays_bind hread fun flag => ?_
  refine (pays_require _ _ ?_).less (le_refl _) ?_ <;> omega

theorem pays_word (order : ByteOrder) (hcredit : owed ≤ tariff.credit) :
    (word order).Pays tariff owed (owed - 4 * tariff.rate) := by
  refine pays_bind (pays_take 4 hcredit) fun bytes => ?_
  refine (pays_pure _).less (le_refl _) ?_
  omega

/-- A number is paid for, and a separator with it. -/
theorem pays_coordinate (order : ByteOrder) :
    (coordinate order).Pays tariff 0 (-tariff.separator) := by
  have hprice := tariff.coordinate_le
  refine pays_bind (pays_take 8 (by omega)) fun bytes => ?_
  refine pays_emit (.coordinate (order.number bytes)) ?_
  simp only [Tariff.price]
  omega

/-- **However many items there are**, each pays for the separator before it:
the count is not in the bound. -/
theorem pays_following {separator : Token} (hseparator : tariff.price separator = tariff.separator)
    (h : item.Pays tariff 0 (-tariff.separator)) (count : Nat) :
    (following separator item count).Pays tariff (-tariff.separator) (-tariff.separator) := by
  induction count with
  | zero => exact pays_pure ()
  | succ count ih =>
      have hemit : (emit separator).Pays tariff (-tariff.separator) 0 :=
        pays_emit separator (by omega)
      exact pays_bind hemit fun _ => pays_bind h fun _ => ih

theorem pays_separated {separator : Token} (hseparator : tariff.price separator = tariff.separator)
    (h : item.Pays tariff 0 (-tariff.separator)) {count : Nat} (hsome : count ≠ 0) :
    (separated separator item count).Pays tariff 0 (-tariff.separator) := by
  cases count with
  | zero => exact absurd rfl hsome
  | succ count => exact pays_bind h fun _ => pays_following hseparator h count

theorem pays_position (order : ByteOrder) (mode : Mode) :
    (position order mode).Pays tariff 0 (-tariff.separator) :=
  pays_separated rfl (pays_coordinate order) (by cases mode <;> decide)

theorem pays_parenthesized (h : item.Pays tariff 0 (-tariff.separator)) {count : Nat}
    (hsome : count ≠ 0) :
    (parenthesized item count).Pays tariff (-tariff.openParen)
      (tariff.closeParen - tariff.separator) := by
  have hopen : (emit .openParen).Pays tariff (-tariff.openParen) 0 :=
    pays_emit .openParen (by simp only [Tariff.price]; omega)
  refine pays_bind hopen fun _ => pays_bind (pays_separated rfl h hsome) fun _ => ?_
  refine pays_emit .closeParen ?_
  simp only [Tariff.price]
  omega

/-- The four bytes of a count pay for the list around the items. -/
theorem pays_counted (order : ByteOrder) (afterName : Bool)
    (h : item.Pays tariff 0 (-tariff.separator)) :
    (counted order afterName item).Pays tariff 0 (-tariff.separator) := by
  have hlist := tariff.list_le
  have hempty := tariff.emptyList_le
  have hparentheses := tariff.parentheses_le
  have hbegin : (emit .list).Pays tariff 0 tariff.list := pays_emit .list (by rw [zero_add]; rfl)
  refine pays_bind hbegin fun _ => pays_bind (pays_word order (by omega)) fun count => ?_
  split
  · refine pays_emit (.empty afterName) ?_
    simp only [Tariff.price]
    omega
  · rename_i hsome
    exact (pays_parenthesized h hsome).less (by omega) (by omega)

/-- A geometry that has nothing in it says so. -/
theorem pays_nothing :
    (parenthesized (emit (.empty false)) 1).Pays tariff
      (-(tariff.openParen + tariff.empty + tariff.closeParen)) 0 := by
  have hopen : (emit .openParen).Pays tariff
      (-(tariff.openParen + tariff.empty + tariff.closeParen))
      (-(tariff.empty + tariff.closeParen)) :=
    pays_emit .openParen (by simp only [Tariff.price]; omega)
  have hempty : (emit (.empty false)).Pays tariff (-(tariff.empty + tariff.closeParen))
      (-tariff.closeParen) :=
    pays_emit (.empty false) (by simp only [Tariff.price]; omega)
  have hclose : (emit .closeParen).Pays tariff (-tariff.closeParen) 0 :=
    pays_emit .closeParen (by simp only [Tariff.price]; omega)
  exact pays_bind hopen fun _ => pays_bind (pays_bind hempty fun _ => pays_pure ()) fun _ => hclose

/-- What a geometry is made of is paid for by itself, but for the parentheses
of a geometry that has nothing in it. -/
theorem pays_content (order : ByteOrder) (mode : Mode) (afterName : Bool)
    {member : Option Kind → Scan Unit} (kind : Kind)
    (hmember : ∀ expected, (member expected).Pays tariff 0 (-tariff.separator)) :
    (content order mode afterName member kind).Pays tariff
      (-(tariff.openParen + tariff.empty + tariff.closeParen)) 0 := by
  unfold content
  split
  · exact pays_nothing
  · refine (pays_parenthesized (pays_position order mode) one_ne_zero).less ?_ ?_ <;> omega
  · exact (pays_counted order afterName (pays_position order mode)).less (by omega) (by omega)
  · exact (pays_counted order afterName (pays_counted order false (pays_position order mode))).less
      (by omega) (by omega)
  · rename_i inner _
    exact (pays_counted order afterName (hmember (some inner))).less (by omega) (by omega)
  · exact (pays_counted order afterName (hmember none)).less (by omega) (by omega)
  · exact pays_fail _ (by omega)

theorem pays_heading (kind : Kind) (mode : Mode) (expected : Option Kind)
    (hcredit : owed ≤ tariff.credit) :
    (heading kind mode expected).Pays tariff owed (owed + tariff.name) := by
  cases expected with
  | none => exact pays_emit (.name kind mode) (le_refl _)
  | some expected =>
      rw [heading]
      split
      · exact (pays_pure ()).less (le_refl _) (by omega)
      · exact pays_fail _ hcredit

/-- **A geometry pays for itself**, and as an item of a list for a separator:
the byte order and the type code pay for its own tokens, and what is in it
pays for the rest. -/
theorem pays_geometry (depth : Nat) (expected : Option Kind) :
    (geometry depth expected).Pays tariff 0 (-tariff.separator) := by
  have henter := tariff.enter_le
  have hgeometry := tariff.geometry_le
  induction depth generalizing expected with
  | zero => exact pays_fail _ (by omega)
  | succ depth ih =>
      have hbegin : (emit .enter).Pays tariff 0 tariff.enter :=
        pays_emit .enter (by rw [zero_add]; rfl)
      have hend : (emit .leave).Pays tariff (-(tariff.leave + tariff.separator))
          (-tariff.separator) :=
        pays_emit .leave (by simp only [Tariff.price]; omega)
      refine pays_bind hbegin fun _ => ?_
      refine pays_bind (pays_byteOrder (by omega)) fun order => ?_
      refine pays_bind (pays_word order (by omega)) fun code => ?_
      refine pays_bind (pays_require _ _ (by omega)) fun mode => ?_
      refine pays_bind (pays_require _ _ (by omega)) fun kind => ?_
      refine pays_bind (pays_heading kind mode expected (by omega)) fun _ => ?_
      have hcontent := pays_content order mode expected.isNone kind ih
      exact pays_bind (hcontent.less (by omega) (by omega)) fun _ => hend

end Scan

namespace Tariff

/-- **The bytes pay.**  The tokens of a geometry, whole or not, cost no more
than its bytes pay and the credit. -/
theorem total_scan_le (tariff : Tariff) (wkb : Bytes) :
    tariff.total (scan wkb).1 ≤ tariff.credit + tariff.rate * wkb.length := by
  have hpays : (Scan.geometry maxDepth none).Pays tariff 0 (-tariff.separator) :=
    Scan.pays_geometry maxDepth none
  unfold scan
  rcases hscan : Scan.geometry maxDepth none ⟨wkb, 0⟩ with ⟨tokens, e | ⟨value, after⟩⟩
  · have hstops := hpays.stops hscan
    norm_cast at hstops
    simpa using hstops
  · have hcompletes := hpays.completes hscan
    have hleft : (0 : Int) ≤ tariff.rate * after.rest.length := by positivity
    have hbound : (tariff.total tokens : Int) ≤ tariff.rate * wkb.length := by
      dsimp only at hcompletes
      omega
    norm_cast at hbound
    exact hbound.trans (Nat.le_add_left _ _)

/-- What takes up bytes: a number eight, the head of a geometry five and the
count of a list four.  What was begun last may be short of them. -/
def extent : Tariff where
  enter := 5
  leave := 0
  list := 4
  name := 0
  empty := 0
  openParen := 0
  closeParen := 0
  separator := 0
  coordinate := 8
  rate := 1
  credit := 5
  coordinate_le := by decide
  emptyList_le := by decide
  parentheses_le := by decide
  geometry_le := by decide
  list_le := by decide
  enter_le := by decide

/-- Every token alike. -/
def steps : Tariff where
  enter := 1
  leave := 1
  list := 1
  name := 1
  empty := 1
  openParen := 1
  closeParen := 1
  separator := 1
  coordinate := 1
  rate := 2
  credit := 1
  coordinate_le := by decide
  emptyList_le := by decide
  parentheses_le := by decide
  geometry_le := by decide
  list_le := by decide
  enter_le := by decide

theorem total_steps (tokens : List Token) : steps.total tokens = tokens.length := by
  induction tokens with
  | nil => rfl
  | cons token tokens ih =>
      have hprice : steps.price token = 1 := by cases token <;> rfl
      rw [total_cons, ih, hprice, List.length_cons, Nat.add_comm]

end Tariff

/-- The numbers that tokens write. -/
def coordinatesOf (tokens : List Token) : Nat :=
  tokens.countP fun token => token matches .coordinate _

/-- The geometries that tokens enter. -/
def geometriesOf (tokens : List Token) : Nat :=
  tokens.count .enter

/-- The counted lists that tokens enter. -/
def listsOf (tokens : List Token) : Nat :=
  tokens.count .list

theorem Tariff.total_extent (tokens : List Token) :
    extent.total tokens =
      8 * coordinatesOf tokens + 5 * geometriesOf tokens + 4 * listsOf tokens := by
  unfold coordinatesOf geometriesOf listsOf
  induction tokens with
  | nil => rfl
  | cons token tokens ih =>
      rw [total_cons, ih]
      cases token <;> simp [price, extent] <;> omega

/-- Rendering begins with entering a geometry, even one without bytes. -/
theorem geometriesOf_scan_pos (wkb : Bytes) : 0 < geometriesOf (scan wkb).1 := by
  have hfirst : Token.enter ∈ (scan wkb).1 := by
    unfold scan maxDepth
    rw [Scan.geometry, Scan.bind_apply]
    exact List.mem_cons_self
  exact List.count_pos_iff.mpr hfirst

/-- **What is rendered takes up bytes.** -/
theorem extent_scan_le (wkb : Bytes) :
    8 * coordinatesOf (scan wkb).1 + 5 * geometriesOf (scan wkb).1 + 4 * listsOf (scan wkb).1 ≤
      wkb.length + 5 := by
  have hpaid := Tariff.extent.total_scan_le wkb
  rw [Tariff.total_extent] at hpaid
  simp only [Tariff.extent, one_mul] at hpaid
  omega

/-- There are no more tokens than twice as many as bytes, and one. -/
theorem length_scan_le (wkb : Bytes) : (scan wkb).1.length ≤ 2 * wkb.length + 1 := by
  have hpaid := Tariff.steps.total_scan_le wkb
  rw [Tariff.total_steps] at hpaid
  simp only [Tariff.steps] at hpaid
  omega

end RecordStore.Geometry
