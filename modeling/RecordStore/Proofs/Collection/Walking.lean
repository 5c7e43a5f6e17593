import Mathlib
import RecordStore.Collection.Records
import RecordStore.Proofs.Collection.Sharing

/-!
# Walks over all records

A walk has a course whatever the bytes of the collection are: records, and then
at the most one thing that ends it (`Walk.Course`).  As long as records stay
inside their collection, each starts where the one before it ends, so there are
not more of them than bytes, and a walk that nothing else has ended has come to
the end of the collection (`walk_tiles`).

Each call of a walk may be made in storage of its own.  What else is asked for
and given back between two calls does not matter, as the collection gives
nothing but extracts of itself.
-/

namespace RecordStore

namespace Walk

/-- Does the next call come to nothing? -/
def Over (walk : Walk) : Prop :=
  walk.done ∨ walk.limit ≤ walk.next.toNat

/-- What calls of a walk come to, each made in storage of its own. -/
def answers (walk : Walk) : List Storage → List WalkStep × Walk
  | [] => ([], walk)
  | storage :: rest =>
    let (step, walk) := (walk.step storage).1
    let (steps, walk) := walk.answers rest
    (step :: steps, walk)

/-- Records lie one after another from `first` on, up to `last`. -/
def Tiles (stride : Item → Nat) : Nat → List (UInt32 × Item) → Nat → Prop
  | first, [], last => first = last
  | first, row :: rows, last =>
    row.1.toNat = first ∧ Tiles stride (first + stride row.2) rows last

/-- The course of a walk: records, each of which is one that `Given` allows, and
the calls after the last of them. -/
inductive Course (Given : UInt32 → Item → Prop) :
    Walk → List (UInt32 × Item) → List WalkStep → Walk → Prop
  | paused (walk : Walk) : Course Given walk [] [] walk
  | ended {walk : Walk} (hover : walk.Over) (count : Nat) :
      Course Given walk [] (List.replicate count .finished) walk
  | refused (walk : Walk) (count : Nat) :
      Course Given walk [] (.finished :: List.replicate count .finished)
        { walk with exhausted := true, done := true }
  | failed (walk : Walk) (e : StoreError) (count : Nat) :
      Course Given walk [] (.failed e :: List.replicate count .finished)
        { walk with done := true }
  | record {walk left : Walk} {item : Item} {rows : List (UInt32 × Item)} {rest : List WalkStep}
      (hopen : ¬ walk.Over) (hgiven : Given walk.next item)
      (h : Course Given (walk.past item) rows rest left) :
      Course Given walk ((walk.next, item) :: rows) rest left

section

variable {walk left : Walk} {storage : Storage} {storages : List Storage} {item : Item}
  {Given : UInt32 → Item → Prop} {rows : List (UInt32 × Item)} {rest : List WalkStep}

/-! ## Steps -/

/-- A walk that is over stays so. -/
theorem step_of_over (h : walk.Over) (storage : Storage) :
    (walk.step storage).1 = (.finished, walk) :=
  congrArg Prod.fst (if_pos h)

theorem step_of_not_over (h : ¬ walk.Over) (storage : Storage) : (walk.step storage).1 =
    match ((walk.collection.get ⟨walk.next, walk.sizing⟩).run storage).1 with
    | .ok (some item) => (.record walk.next item, walk.past item)
    | .ok none => (.finished, { walk with exhausted := true, done := true })
    | .error e => (.failed e, { walk with done := true }) := by
  refine (congrArg Prod.fst (if_neg h)).trans ?_
  have hrun : walk.collection.get ⟨walk.next, walk.sizing⟩ storage =
      (walk.collection.get ⟨walk.next, walk.sizing⟩).run storage := rfl
  rw [hrun]
  rcases (walk.collection.get ⟨walk.next, walk.sizing⟩).run storage with ⟨_ | _ | _, _⟩ <;> rfl

/-- A call leaves storage as the get of a record leaves it. -/
theorem step_snd_of_not_over (h : ¬ walk.Over) (storage : Storage) :
    (walk.step storage).2 =
      ((walk.collection.get ⟨walk.next, walk.sizing⟩).run storage).2 := by
  refine (congrArg Prod.snd (if_neg h)).trans ?_
  have hrun : walk.collection.get ⟨walk.next, walk.sizing⟩ storage =
      (walk.collection.get ⟨walk.next, walk.sizing⟩).run storage := rfl
  rw [hrun]
  rcases (walk.collection.get ⟨walk.next, walk.sizing⟩).run storage with ⟨_ | _ | _, _⟩ <;> rfl

/-- A walk keeps to its collection. -/
theorem collection_step (walk : Walk) (storage : Storage) :
    (walk.step storage).1.2.collection = walk.collection := by
  by_cases hover : walk.Over
  · rw [step_of_over hover]
  · rw [step_of_not_over hover]
    split <;> rfl

theorem length_answers (walk : Walk) (storages : List Storage) :
    (walk.answers storages).1.length = storages.length := by
  induction storages generalizing walk with
  | nil => rfl
  | cons storage storages ih => exact congrArg Nat.succ (ih _)

/-- **After the end** every call says that the walk is over. -/
theorem answers_of_over (h : walk.Over) (storages : List Storage) :
    walk.answers storages = (List.replicate storages.length .finished, walk) := by
  induction storages with
  | nil => rfl
  | cons storage storages ih =>
      unfold answers
      rw [step_of_over h]
      simp only
      rw [ih]
      rfl

theorem answers_cons {step : WalkStep} {next : Walk} (h : (walk.step storage).1 = (step, next)) :
    walk.answers (storage :: storages) =
      (step :: (next.answers storages).1, (next.answers storages).2) := by
  rw [answers, h]

/-- **Every walk has a course.** -/
theorem course_answers {c : Collection} {sizing : Sizing} (storages : List Storage)
    (hgiven : ∀ storage ∈ storages, ∀ address item,
      ((c.get ⟨address, sizing⟩).run storage).1 = .ok (some item) → Given address item)
    (walk : Walk) (hcollection : walk.collection = c) (hsizing : walk.sizing = sizing) :
    ∃ rows rest, (walk.answers storages).1 =
        rows.map (fun row => WalkStep.record row.1 row.2) ++ rest ∧
      Course Given walk rows rest (walk.answers storages).2 := by
  induction storages generalizing walk with
  | nil => exact ⟨[], [], rfl, .paused walk⟩
  | cons storage storages ih =>
      subst hcollection hsizing
      rw [List.forall_mem_cons] at hgiven
      obtain ⟨hnow, hlater⟩ := hgiven
      by_cases hover : walk.Over
      · rw [answers_of_over hover]
        exact ⟨[], _, rfl, .ended hover (storages.length + 1)⟩
      · have hstep := step_of_not_over hover storage
        rcases hgot : ((walk.collection.get ⟨walk.next, walk.sizing⟩).run storage).1 with
          e | _ | item <;> rw [hgot] at hstep <;> rw [answers_cons hstep]
        · rw [answers_of_over (.inl rfl)]
          exact ⟨[], _, rfl, .failed walk e storages.length⟩
        · rw [answers_of_over (.inl rfl)]
          exact ⟨[], _, rfl, .refused walk storages.length⟩
        · obtain ⟨rows, rest, hanswers, hcourse⟩ := ih hlater (walk.past item) rfl rfl
          refine ⟨(walk.next, item) :: rows, rest, ?_, .record hover (hnow _ _ hgot) hcourse⟩
          rw [hanswers]
          rfl

/-! ## Courses -/

/-- What is said of a walk whose records do not reach past its end, if each
address fits a word. -/
structure Fits (walk : Walk) (Given : UInt32 → Item → Prop) : Prop where
  word : walk.limit < 2 ^ 32
  inside : ∀ address item, Given address item → address.toNat < walk.limit →
    address.toNat + walk.stride item ≤ walk.limit

theorem next_lt_limit (h : ¬ walk.Over) : walk.next.toNat < walk.limit :=
  Nat.lt_of_not_le fun hle => h (.inr hle)

theorem Fits.next_past (h : walk.Fits Given) (hopen : ¬ walk.Over)
    (hgiven : Given walk.next item) :
    (walk.past item).next.toNat = walk.next.toNat + walk.stride item := by
  have hword := h.word
  have hinside := h.inside _ _ hgiven (next_lt_limit hopen)
  show (UInt32.ofNat (min (walk.next.toNat + walk.stride item) 4294967295)).toNat = _
  rw [UInt32.toNat_ofNat_of_lt' (by rw [UInt32.size]; omega)]
  omega

theorem Fits.past (h : walk.Fits Given) (item : Item) : (walk.past item).Fits Given :=
  ⟨h.word, h.inside⟩

theorem past_over (h : walk.stride item = 0) : (walk.past item).Over :=
  .inl (decide_eq_true h)

theorem Course.eq_nil_of_over (h : Course Given walk rows rest left) (hover : walk.Over) :
    rows = [] := by
  cases h with
  | record hopen _ _ => exact absurd hover hopen
  | _ => rfl

theorem Course.given (h : Course Given walk rows rest left) :
    ∀ row ∈ rows, Given row.1 row.2 := by
  induction h with
  | record hopen hgiven h ih => exact List.forall_mem_cons.mpr ⟨hgiven, ih⟩
  | _ => simp

/-- At most one failure, and nothing after it. -/
theorem Course.ending (h : Course Given walk rows rest left) :
    ∃ count, rest = List.replicate count .finished ∨
      ∃ e, rest = .failed e :: List.replicate count .finished := by
  induction h with
  | paused walk => exact ⟨0, .inl rfl⟩
  | ended hover count => exact ⟨count, .inl rfl⟩
  | refused walk count => exact ⟨count + 1, .inl rfl⟩
  | failed walk e count => exact ⟨count, .inr ⟨e, rfl⟩⟩
  | record _ _ _ ih => exact ih

/-- **Each record starts where the one before it ends.** -/
theorem Course.tiles (h : Course Given walk rows rest left) (hfits : walk.Fits Given) :
    Tiles walk.stride walk.next.toNat rows left.next.toNat := by
  induction h with
  | record hopen hgiven h ih =>
      refine ⟨rfl, ?_⟩
      rw [← hfits.next_past hopen hgiven]
      exact ih (hfits.past _)
  | _ => exact rfl

/-- Every record has an address of its own, which is in the collection. -/
theorem Course.within (h : Course Given walk rows rest left) (hfits : walk.Fits Given) :
    ∀ row ∈ rows, walk.next.toNat ≤ row.1.toNat ∧ row.1.toNat < walk.limit := by
  induction h with
  | @record walk left item rows rest hopen hgiven h ih =>
      refine List.forall_mem_cons.mpr ⟨⟨le_rfl, next_lt_limit hopen⟩, ?_⟩
      intro row hrow
      obtain ⟨hle, hlt⟩ := ih (hfits.past item) row hrow
      rw [hfits.next_past hopen hgiven] at hle
      exact ⟨(Nat.le_add_right ..).trans hle, hlt⟩
  | _ => simp

/-- **Addresses increase**: a record without bytes is the last. -/
theorem Course.increasing (h : Course Given walk rows rest left) (hfits : walk.Fits Given) :
    rows.Pairwise fun row after => row.1 < after.1 := by
  induction h with
  | @record walk left item rows rest hopen hgiven h ih =>
      refine List.pairwise_cons.mpr ⟨?_, ih (hfits.past item)⟩
      intro row hrow
      have hpos : walk.stride item ≠ 0 := by
        intro hzero
        rw [h.eq_nil_of_over (past_over hzero)] at hrow
        cases hrow
      have hle := (h.within (hfits.past item) row hrow).1
      rw [hfits.next_past hopen hgiven] at hle
      have hlt : walk.next.toNat < row.1.toNat := by omega
      exact UInt32.lt_iff_toNat_lt.mpr hlt
  | _ => exact .nil

/-- A walk does not leave the collection. -/
theorem Course.reaches (h : Course Given walk rows rest left) (hfits : walk.Fits Given)
    (hle : walk.next.toNat ≤ walk.limit) : left.next.toNat ≤ walk.limit := by
  induction h with
  | @record walk left item rows rest hopen hgiven h ih =>
      refine ih (hfits.past item) ?_
      rw [hfits.next_past hopen hgiven]
      exact hfits.inside _ _ hgiven (next_lt_limit hopen)
  | _ => exact hle

/-- **There are not more records than bytes** ahead. -/
theorem Course.few (h : Course Given walk rows rest left) (hfits : walk.Fits Given) :
    rows.length ≤ walk.limit - walk.next.toNat := by
  induction h with
  | @record walk left item rows rest hopen hgiven h ih =>
      have hlt := next_lt_limit hopen
      rw [List.length_cons]
      by_cases hzero : walk.stride item = 0
      · rw [h.eq_nil_of_over (past_over hzero)]
        exact Nat.sub_pos_of_lt hlt
      · have hle := ih (hfits.past item)
        rw [hfits.next_past hopen hgiven] at hle
        change rows.length ≤ walk.limit - _ at hle
        omega
  | _ => exact Nat.zero_le _

/-- **A walk that nothing else has ended** has come to the end. -/
theorem Course.whole (h : Course Given walk rows rest left) (hdone : walk.done = false)
    (hfinished : .finished ∈ rest) (hfailed : ∀ e, .failed e ∉ rest)
    (hexhausted : left.exhausted = false) (hpos : ∀ row ∈ rows, walk.stride row.2 ≠ 0) :
    walk.limit ≤ left.next.toNat := by
  induction h with
  | paused walk => cases hfinished
  | ended hover _ =>
      rcases hover with hover | hover
      · rw [hdone] at hover
        cases hover
      · exact hover
  | refused walk count => cases hexhausted
  | failed walk e count => exact absurd List.mem_cons_self (hfailed e)
  | record hopen hgiven h ih =>
      rw [List.forall_mem_cons] at hpos
      exact ih (decide_eq_false hpos.1) hfinished hfailed hexhausted hpos.2

/-! ## Rows of records -/

/-- **Records next to each other** make up the bytes that they lie in. -/
theorem Tiles.flatMap_bytes {stride : Item → Nat} {data : Bytes} {start first last : Nat}
    (h : Tiles stride first rows last)
    (hbytes : ∀ row ∈ rows, stride row.2 = row.2.bytes.length ∧
      row.2.bytes = (data.drop (start + row.1.toNat)).take row.2.bytes.length) :
    first ≤ last ∧ rows.flatMap (·.2.bytes) = (data.drop (start + first)).take (last - first) ∧
      (rows.flatMap (·.2.bytes)).length = last - first := by
  induction rows generalizing first with
  | nil =>
      obtain rfl : first = last := h
      simp
  | cons row rows ih =>
      obtain ⟨hfirst, hrest⟩ := h
      rw [List.forall_mem_cons] at hbytes
      obtain ⟨⟨hstride, hrow⟩, hbytes⟩ := hbytes
      obtain ⟨hle, hrows, hlength⟩ := ih hrest hbytes
      rw [hfirst] at hrow
      rw [hstride] at hle hrows hlength
      have hsplit : last - first = row.2.bytes.length + (last - (first + row.2.bytes.length)) := by
        omega
      refine ⟨by omega, ?_, ?_⟩
      · rw [List.flatMap_cons, hrows, hsplit, List.take_add, List.drop_drop, ← hrow, Nat.add_assoc]
      · rw [List.flatMap_cons, List.length_append, hlength, ← hsplit]

/-- Records of one place each are numbered. -/
theorem Tiles.addresses {stride : Item → Nat} {first last : Nat} (h : Tiles stride first rows last)
    (hone : ∀ item, stride item = 1) :
    rows.map (·.1.toNat) = List.range' first rows.length ∧ first + rows.length = last := by
  induction rows generalizing first with
  | nil => exact ⟨rfl, h⟩
  | cons row rows ih =>
      obtain ⟨hfirst, hrest⟩ := h
      rw [hone] at hrest
      obtain ⟨hrows, hlast⟩ := ih hrest
      refine ⟨?_, by rw [List.length_cons, ← hlast]; omega⟩
      rw [List.map_cons, hrows, hfirst, List.length_cons, List.range'_succ]

end

end Walk

/-! ## Walks over collections -/

/-- Storage in which a collection can be asked for records, among others. -/
def Opening.Live (o : Opening) (storage : Storage) : Prop :=
  ∃ file opened items, o ∈ opened ∧ Session file opened storage items

/-- What the calls of a walk over all records of a collection come to: records
with their addresses, the calls after the last of them, and the walk that is
left.

* `tiles`: the first record is at 0, and each of the others where the one before
  it ends; in a fixed-width collection that is one further.
* `increasing`, `within`: no address comes twice, and none is outside.
* `few`: no more records than bytes, or than the collection counts.
* `extracts`: each has the bytes at its address.
* `ending`: a walk that has ended fails at the most once, and then it is over.
* `whole`: a walk that has ended for no other reason has had every byte.
* `numbered`: in a fixed-width collection, the addresses are 0, 1, 2 and so on.
* `complete`: there, such a walk has had every record. -/
structure Opening.Toured (o : Opening) (walk : Walk) (rows : List (UInt32 × Item))
    (rest : List WalkStep) (left : Walk) : Prop where
  tiles : Walk.Tiles walk.stride 0 rows left.next.toNat
  increasing : rows.Pairwise fun row after => row.1 < after.1
  within : ∀ row ∈ rows, row.1.toNat < walk.limit
  few : rows.length ≤ walk.limit
  extracts : ∀ row ∈ rows,
    (Layout.ofHeader o.header).Extract o.data o.header.start row.1 row.2.bytes
  ending : ∃ count, rest = List.replicate count .finished ∨
    ∃ e, rest = .failed e :: List.replicate count .finished
  whole : o.collection.layout.isFixed = false → .finished ∈ rest → (∀ e, .failed e ∉ rest) →
    left.exhausted = false → (∀ row ∈ rows, row.2.bytes ≠ []) →
      rows.flatMap (·.2.bytes) =
          (o.data.drop o.header.start.toNat).take o.collection.size ∧
        (rows.flatMap (·.2.bytes)).length = o.collection.size
  numbered : o.collection.layout.isFixed → rows.map (·.1.toNat) = List.range rows.length
  complete : o.collection.layout.isFixed → .finished ∈ rest → (∀ e, .failed e ∉ rest) →
    left.exhausted = false → rows.length = o.collection.count

section

variable {o : Opening} {storage : Storage} {sizing : Sizing}

/-- **Calls of walks may follow each other**, as what one leaves is storage for
the next. -/
theorem Opening.Live.step (h : o.Live storage) {walk : Walk}
    (hcollection : walk.collection = o.collection) : o.Live (walk.step storage).2 := by
  obtain ⟨file, opened, items, ho, hsession⟩ := h
  by_cases hover : walk.Over
  · have hsame : (walk.step storage).2 = storage := congrArg Prod.snd (if_pos hover)
    rw [hsame]
    exact ⟨file, opened, items, ho, hsession⟩
  · rw [walk.step_snd_of_not_over hover, hcollection]
    exact ⟨file, opened, _, ho, hsession.get ho _⟩

/-- What is there for a walk to come by. -/
def Opening.Gives (o : Opening) (sizing : Sizing) (address : UInt32) (item : Item) : Prop :=
  ∃ storage, o.Live storage ∧
    ((o.collection.get ⟨address, sizing⟩).run storage).1 = .ok (some item)

theorem Opening.Gives.extract {address : UInt32} {item : Item} (h : o.Gives sizing address item)
    (hlimit : o.data.length < Handle.positionLimit) :
    (Layout.ofHeader o.header).Extract o.data o.header.start address item.bytes := by
  obtain ⟨storage, ⟨file, opened, items, ho, hsession⟩, hitem⟩ := h
  exact hsession.extract ho hlimit hitem

/-- No record reaches past the end of the collection. -/
theorem Opening.fits_walk (hlayout : o.collection.layout = Layout.ofHeader o.header)
    (hlimit : o.data.length < Handle.positionLimit) (sizing : Sizing) :
    (o.collection.walk sizing).Fits (o.Gives sizing) := by
  have hsize := (Layout.bounded_ofHeader o.header).size
  unfold Collection.walk
  by_cases hfixed : (Layout.ofHeader o.header).isFixed
  · refine ⟨?_, ?_⟩
    · rw [Walk.limit, hlayout, if_pos hfixed, Collection.count, hlayout]
      exact o.header.count.toNat_lt
    · intro address item _ hlt
      rw [Walk.stride, hlayout, if_pos hfixed]
      exact hlt
  · refine ⟨?_, ?_⟩
    · rw [Walk.limit, hlayout, if_neg hfixed, Collection.size, hlayout]
      exact hsize
    · intro address item hgives _
      have hinside := (hgives.extract hlimit).inside
      rw [Layout.offsetOf, if_neg hfixed] at hinside
      rw [Walk.stride, Walk.limit, hlayout, if_neg hfixed, if_neg hfixed, Collection.size, hlayout]
      exact hinside

/-- A record in a row is next to nothing that is not in the file. -/
theorem Opening.Gives.window {address : UInt32} {item : Item} (h : o.Gives sizing address item)
    (hlimit : o.data.length < Handle.positionLimit)
    (hstart : o.header.start.toNat < Handle.positionLimit) :
    (Layout.ofHeader o.header).Window o.data o.header.start.toNat address item.bytes := by
  have hextract := h.extract hlimit
  have hinside := hextract.inside
  have hsize := (Layout.bounded_ofHeader o.header).size
  unfold Handle.positionLimit at hstart
  exact (Layout.extract_iff_window (by omega)).mp hextract

/-- A variable-width collection from whose start on there are records starts
where a file can have them. -/
theorem Opening.start_lt_of_tiles (hfixed : ¬ (Layout.ofHeader o.header).isFixed)
    (hlimit : o.data.length < Handle.positionLimit) {stride : Item → Nat}
    {rows : List (UInt32 × Item)} {last : Nat} (htiles : Walk.Tiles stride 0 rows last)
    (hgives : ∀ row ∈ rows, o.Gives sizing row.1 row.2) (hne : rows ≠ []) :
    o.header.start.toNat < Handle.positionLimit := by
  cases rows with
  | nil => exact absurd rfl hne
  | cons row rows =>
      obtain ⟨storage, ⟨file, opened, items, ho, hsession⟩, hitem⟩ :=
        hgives row List.mem_cons_self
      refine hsession.start_lt ho hlimit hitem ?_
      rw [Layout.offsetOf, if_neg hfixed]
      exact htiles.1

/-- **Records given next to each other** are what the collection has up to where
they end. -/
theorem Opening.bytes_of_tiles (hfixed : ¬ (Layout.ofHeader o.header).isFixed)
    (hlimit : o.data.length < Handle.positionLimit) {stride : Item → Nat}
    (hstride : ∀ item, stride item = item.bytes.length) {rows : List (UInt32 × Item)} {last : Nat}
    (htiles : Walk.Tiles stride 0 rows last) (hgives : ∀ row ∈ rows, o.Gives sizing row.1 row.2) :
    rows.flatMap (·.2.bytes) = (o.data.drop o.header.start.toNat).take last ∧
      (rows.flatMap (·.2.bytes)).length = last := by
  have hbytes : ∀ row ∈ rows, stride row.2 = row.2.bytes.length ∧
      row.2.bytes = (o.data.drop (o.header.start.toNat + row.1.toNat)).take
        row.2.bytes.length := by
    intro row hrow
    have hstart := o.start_lt_of_tiles hfixed hlimit htiles hgives (List.ne_nil_of_mem hrow)
    have hwindow := ((hgives row hrow).window hlimit hstart).bytes_eq
    rw [Layout.offsetOf, if_neg hfixed] at hwindow
    exact ⟨hstride _, hwindow⟩
  exact (htiles.flatMap_bytes hbytes).2

/-- **Walks tile their collection**, whatever is asked for besides.  One more call
than the collection has places ends them. -/
theorem walk_tiles (hlimit : o.data.length < Handle.positionLimit) {start : Storage}
    (hstart : o.Live start) (sizing : Sizing) {storages : List Storage}
    (hlive : ∀ storage ∈ storages, o.Live storage) :
    ∃ rows rest, ((o.collection.walk sizing).answers storages).1 =
        rows.map (fun row => WalkStep.record row.1 row.2) ++ rest ∧
      ((o.collection.walk sizing).limit < storages.length → rest ≠ []) ∧
      o.Toured (o.collection.walk sizing) rows rest
        ((o.collection.walk sizing).answers storages).2 := by
  obtain ⟨file, opened, items, ho, hsession⟩ := hstart
  have hlayout := hsession.layout ho
  have hfits := o.fits_walk hlayout hlimit sizing
  have hgives : ∀ storage ∈ storages, ∀ address item,
      ((o.collection.get ⟨address, sizing⟩).run storage).1 = .ok (some item) →
        o.Gives sizing address item :=
    fun storage hstorage address item hitem => ⟨storage, hlive storage hstorage, hitem⟩
  obtain ⟨rows, rest, hanswers, hcourse⟩ :=
    Walk.course_answers storages hgives (o.collection.walk sizing) rfl rfl
  have hfew : rows.length ≤ (o.collection.walk sizing).limit := hcourse.few hfits
  have hcalls := Walk.length_answers (o.collection.walk sizing) storages
  rw [hanswers, List.length_append, List.length_map] at hcalls
  refine ⟨rows, rest, hanswers, ?_, ?_⟩
  · rintro hmany rfl
    rw [← hcalls] at hmany
    exact Nat.not_lt_of_le hfew hmany
  generalize ((o.collection.walk sizing).answers storages).2 = left at hcourse ⊢
  have htiles : Walk.Tiles _ 0 rows left.next.toNat := hcourse.tiles hfits
  have hone (hfixed : o.collection.layout.isFixed) (item : Item) :
      (o.collection.walk sizing).stride item = 1 := if_pos hfixed
  refine {
    tiles := htiles
    increasing := hcourse.increasing hfits
    within := fun row hrow => (hcourse.within hfits row hrow).2
    few := hfew
    extracts := fun row hrow => (hcourse.given row hrow).extract hlimit
    ending := hcourse.ending
    whole := ?_
    numbered := ?_
    complete := ?_ }
  · intro hfixed hfinished hfailed hexhausted hpos
    have hvariable := ne_true_of_eq_false hfixed
    have hstride : ∀ item, (o.collection.walk sizing).stride item = item.bytes.length :=
      fun _ => if_neg hvariable
    have hwhole := hcourse.whole rfl hfinished hfailed hexhausted fun row hrow => by
      rw [hstride]
      exact mt List.length_eq_zero_iff.mp (hpos row hrow)
    have hlast : left.next.toNat = o.collection.size :=
      (le_antisymm (hcourse.reaches hfits (Nat.zero_le _)) hwhole).trans (if_neg hvariable)
    rw [hlast] at htiles
    exact o.bytes_of_tiles (hlayout ▸ hvariable) hlimit hstride htiles hcourse.given
  · intro hfixed
    rw [(htiles.addresses (hone hfixed)).1, List.range_eq_range']
  · intro hfixed hfinished hfailed hexhausted
    have hwhole := hcourse.whole rfl hfinished hfailed hexhausted fun row _ => by
      rw [hone hfixed]
      exact Nat.one_ne_zero
    rw [← (htiles.addresses (hone hfixed)).2, Nat.zero_add] at hwhole
    have hcount : (o.collection.walk sizing).limit = o.collection.count := if_pos hfixed
    exact hcount ▸ le_antisymm hfew hwhole

end

/-- Two texts, read from the file one after the other. -/
theorem walk_tiles_texts : ∃ (o : Opening) (first second third : Storage),
    o.Live first ∧ second = ((o.collection.walk .string).step first).2 ∧
      third = (((o.collection.walk .string).step first).1.2.step second).2 ∧
      ((o.collection.walk .string).answers [first, second, third]).1 =
        [.record 0 ⟨[1, 0, 97], none⟩, .record 3 ⟨[1, 0, 98], none⟩, .finished] ∧
      ∃ rows rest, ((o.collection.walk .string).answers [first, second, third]).1 =
          rows.map (fun row => WalkStep.record row.1 row.2) ++ rest ∧
        o.Toured (o.collection.walk .string) rows rest
          ((o.collection.walk .string).answers [first, second, third]).2 := by
  let file : DataFile := ⟨[6, 0, 0, 0, 1, 0, 97, 1, 0, 98], true⟩
  let c : Collection := ⟨⟨0, 6, 0⟩, .file ⟨4, none⟩⟩
  let o : Opening := ⟨file.contents, ⟨4, 6, 0⟩, c⟩
  let first : Storage := .over file ⟨1, [], 0, 0⟩
  let second := ((o.collection.walk .string).step first).2
  let third := (((o.collection.walk .string).step first).1.2.step second).2
  have hopen : Collection.ofFile (.streamed 1) ⟨4, 6, 0⟩ first = .ok ((c, 10), first) := rfl
  have hsession : Session file [o] first [] := .ofFile (.start rfl) hopen
  have hfirst : o.Live first := ⟨file, [o], [], List.mem_cons_self, hsession⟩
  have hsecond : o.Live second := hfirst.step rfl
  have hthird : o.Live third := hsecond.step (Walk.collection_step ..)
  have hlive : ∀ storage ∈ [first, second, third], o.Live storage := by
    simp [hfirst, hsecond, hthird]
  obtain ⟨rows, rest, hanswers, -, htoured⟩ := walk_tiles (by decide) hfirst .string hlive
  have hrun : ((o.collection.walk .string).answers [first, second, third]).1 =
      [.record 0 ⟨[1, 0, 97], none⟩, .record 3 ⟨[1, 0, 98], none⟩, .finished] := by
    cbv
  exact ⟨o, first, second, third, hfirst, rfl, rfl, hrun, rows, rest, hanswers, htoured⟩

end RecordStore
