import Mathlib
import RecordStore.Proofs.Cache.Shelf

/-!
# What a shelf owes to its history

What a shelf has for a key is what was last loaded for it, if the key has not
left since (`Runs.data?`), and its queue is in the order in which keys were let
go (`Runs.inOrder`).

Both hold after a step if they held before.  For that the queue has to have the
right keys in it, which is `Shelf.Proper`.
-/

namespace RecordStore.Cache

variable {K : Type} [BEq K] {past : List (Event K)} {event : Event K} {key other : K} {data : Bytes}

/-! ## Histories -/

theorem age_cons (event : Event K) (past : List (Event K)) (key : K) :
    age (event :: past) key = if event.releases key then 0 else age past key + 1 := by
  unfold age
  rw [List.findIdx_cons]
  cases event.releases key <;> rfl

theorem age_congr [EquivBEq K] (past : List (Event K)) (hsame : key == other) :
    age past key = age past other := by
  have hreleases : (fun event : Event K => event.releases key) = fun event =>
      event.releases other := by
    funext event
    cases event with
    | got => rfl
    | released own => exact BEq.congr_right hsame
  unfold age
  rw [hreleases]

/-- What was kept is what was loaded last. -/
theorem lastLoaded?_of_kept? (h : kept? key past = some data) :
    lastLoaded? past key = some data := by
  induction past with
  | nil => cases h
  | cons event past ih =>
      unfold kept? at h
      unfold lastLoaded?
      rw [List.findSome?_cons]
      cases hloaded : event.loaded? key with
      | some bytes => simpa [hloaded] using h
      | none =>
          simp only [hloaded] at h
          split at h
          · cases h
          · exact ih h

namespace Shelf

variable {mine : K → Prop} {q q' room : Shelf K} {old : K} {entry : Entry K}

/-- The bytes of a key, if it is on the shelf. -/
def data? (q : Shelf K) (key : K) : Option Bytes :=
  (q.known? key).map Entry.data

/-- Equal keys are one key, which is in the queue, once, while nobody holds
it; all keys are of `mine`. -/
structure Proper (q : Shelf K) (mine : K → Prop) : Prop where
  own : ∀ {key entry}, q.known? key = some entry → entry.key == key
  same : ∀ {key other : K}, key == other → q.known? key = q.known? other
  mine : ∀ {key entry}, q.known? key = some entry → mine entry.key
  queued : ∀ {key entry}, q.known? key = some entry → entry.holders = 0 → entry.key ∈ q.idle
  idle : ∀ key ∈ q.idle, ∃ entry, q.known? key = some entry ∧ entry.key = key ∧ entry.holders = 0
  once : q.idle.Pairwise fun newer older => ¬ newer == older

theorem known?_set (q : Shelf K) (key other : K) (known? : Option (Entry K)) :
    (q.set key known?).known? other = if key == other then known? else q.known? other :=
  rfl

theorem proper_empty (size : Nat) : (empty size : Shelf K).Proper mine where
  own := by simp [empty]
  same := by simp [empty]
  mine := by simp [empty]
  queued := by simp [empty]
  idle := by simp [empty]
  once := List.Pairwise.nil

/-! ## Single changes -/

/-- A key that is held is not in the queue. -/
theorem Proper.ne_of_held (h : q.Proper mine) (hentry : q.known? key = some entry)
    (hheld : 0 < entry.holders) : ∀ other ∈ q.idle, ¬ entry.key == other := by
  intro other hother hsame
  obtain ⟨found, hfound, -, hzero⟩ := h.idle other hother
  rw [← h.same hsame, h.same (h.own hentry), hentry] at hfound
  obtain rfl := Option.some.inj hfound
  omega

/-- The room is the shelf as it was, or without its oldest key. -/
theorem makeRoom?_cases (hroom : q.makeRoom? = some room) :
    (0 < q.free ∧ q.oldest? = none ∧ room = q) ∨
      ∃ old front, q.oldest? = some old ∧ q.idle = front ++ [old] ∧
        room = { q.set old none with free := 1, idle := front } := by
  unfold makeRoom? at hroom
  unfold oldest?
  split at hroom
  · next hpos =>
      exact .inl ⟨hpos, if_neg (by omega), (Option.some.inj hroom).symm⟩
  · next hzero =>
      obtain ⟨old, hold, rfl⟩ := Option.map_eq_some_iff.mp hroom
      obtain ⟨front, hsplit⟩ := List.getLast?_eq_some_iff.mp hold
      refine .inr ⟨old, front, by rw [if_pos (by omega), hold], hsplit, ?_⟩
      rw [hsplit, List.dropLast_concat]

/-- The oldest key is the only one that leaves for the room. -/
theorem known?_room (hroom : q.makeRoom? = some room) (other : K) :
    room.known? other = if q.oldest?.any (· == other) then none else q.known? other := by
  rcases makeRoom?_cases hroom with ⟨-, hnone, rfl⟩ | ⟨old, front, hold, -, rfl⟩
  · rw [hnone]
    rfl
  · rw [hold]
    rfl

/-- A key that comes in sends away the oldest, if it has to. -/
theorem Step.evicted_of_miss {calls : List (Except StoreError Bytes)} {evicted? : Option K}
    (hstep : q.Step (.got key calls evicted? (.ok (some data))) q') (hmiss : q.known? key = none) :
    evicted? = q.oldest? ∧ ∃ room, q.makeRoom? = some room := by
  cases hstep with
  | hit hentry =>
      rw [hmiss] at hentry
      cases hentry
  | @loaded _ room _ _ hroom => exact ⟨rfl, room, hroom⟩

section

variable [EquivBEq K]

/-- A key that is changed, or comes in, and is in the queue or not as it is
held or not. -/
theorem Proper.put_entry (h : q.Proper mine) (entry : Entry K) (hmine : mine entry.key)
    {free : Nat} {idle : List K}
    (hself : entry.holders = 0 → entry.key ∈ idle)
    (hkeep : ∀ key ∈ q.idle, ¬ entry.key == key → key ∈ idle)
    (hidle : ∀ key ∈ idle, (key = entry.key ∧ entry.holders = 0) ∨
      (key ∈ q.idle ∧ ¬ entry.key == key))
    (honce : idle.Pairwise fun newer older => ¬ newer == older) :
    Proper { q.set entry.key (some entry) with free := free, idle := idle } mine := by
  have hcases : ∀ {key found}, (q.set entry.key (some entry)).known? key = some found →
      (entry.key == key ∧ found = entry) ∨ (¬ entry.key == key ∧ q.known? key = some found) := by
    intro key found hfound
    rw [known?_set] at hfound
    by_cases hsame : entry.key == key
    · rw [if_pos hsame] at hfound
      exact .inl ⟨hsame, (Option.some.inj hfound).symm⟩
    · rw [if_neg hsame] at hfound
      exact .inr ⟨hsame, hfound⟩
  refine ⟨?_, ?_, ?_, ?_, ?_, honce⟩
  · intro key found hfound
    rcases hcases hfound with ⟨hsame, rfl⟩ | ⟨-, hold⟩
    · exact hsame
    · exact h.own hold
  · intro key other hsame
    show (q.set _ _).known? key = (q.set _ _).known? other
    rw [known?_set, known?_set, BEq.congr_right hsame, h.same hsame]
  · intro key found hfound
    rcases hcases hfound with ⟨-, rfl⟩ | ⟨-, hold⟩
    · exact hmine
    · exact h.mine hold
  · intro key found hfound hzero
    rcases hcases hfound with ⟨-, rfl⟩ | ⟨hne, hold⟩
    · exact hself hzero
    · apply hkeep found.key (h.queued hold hzero)
      intro hsame
      exact hne (BEq.trans hsame (h.own hold))
  · intro key hkey
    show ∃ found, (q.set _ _).known? key = some found ∧ _
    rw [known?_set]
    rcases hidle key hkey with ⟨rfl, hzero⟩ | ⟨hold, hne⟩
    · rw [if_pos BEq.rfl]
      exact ⟨entry, rfl, rfl, hzero⟩
    · rw [if_neg hne]
      exact h.idle key hold

theorem Proper.lend (h : q.Proper mine) (hentry : q.known? key = some entry) :
    (q.lend entry).Proper mine := by
  have hmem : ∀ other, (other ∈ q.idle.filter fun other => !other == entry.key) ↔
      other ∈ q.idle ∧ ¬ entry.key == other := by
    intro other
    rw [List.mem_filter, BEq.comm]
    simp
  have hmine := h.mine hentry
  apply h.put_entry { entry with holders := entry.holders + 1 } hmine
  · intro hzero
    cases hzero
  · intro other hother hne
    exact (hmem other).mpr ⟨hother, hne⟩
  · intro other hother
    exact .inr ((hmem other).mp hother)
  · exact h.once.sublist List.filter_sublist

theorem Proper.giveBack (h : q.Proper mine) (hentry : q.known? key = some entry)
    (hheld : 0 < entry.holders) : (q.giveBack entry).Proper mine := by
  have hne := h.ne_of_held hentry hheld
  have hmine := h.mine hentry
  apply h.put_entry { entry with holders := entry.holders - 1 } hmine
  · intro hzero
    rw [if_pos hzero]
    exact List.mem_cons_self
  · intro other hother _
    split
    · exact List.mem_cons_of_mem _ hother
    · exact hother
  · intro other hother
    split at hother
    · next hzero =>
        rcases List.mem_cons.mp hother with rfl | hold
        · exact .inl ⟨rfl, hzero⟩
        · exact .inr ⟨hold, hne other hold⟩
    · exact .inr ⟨hother, hne other hother⟩
  · split
    · exact List.pairwise_cons.mpr ⟨hne, h.once⟩
    · exact h.once

theorem Proper.makeRoom (h : q.Proper mine) (hroom : q.makeRoom? = some room) :
    room.Proper mine := by
  rcases makeRoom?_cases hroom with ⟨-, -, rfl⟩ | ⟨old, front, -, hsplit, rfl⟩
  · exact h
  · have hold : ∀ {key found}, (q.set old none).known? key = some found →
        ¬ old == key ∧ q.known? key = some found := by
      intro key found hfound
      rw [known?_set] at hfound
      by_cases hsame : old == key
      · rw [if_pos hsame] at hfound
        cases hfound
      · rw [if_neg hsame] at hfound
        exact ⟨hsame, hfound⟩
    have honce := h.once
    rw [hsplit, List.pairwise_append] at honce
    refine ⟨?_, ?_, ?_, ?_, ?_, honce.1⟩
    · intro key found hfound
      exact h.own (hold hfound).2
    · intro key other hsame
      show (q.set _ _).known? key = (q.set _ _).known? other
      rw [known?_set, known?_set, BEq.congr_right hsame, h.same hsame]
    · intro key found hfound
      exact h.mine (hold hfound).2
    · intro key found hfound hzero
      obtain ⟨hne, hfound⟩ := hold hfound
      have hmem := h.queued hfound hzero
      rw [hsplit, List.mem_append, List.mem_singleton] at hmem
      rcases hmem with hmem | hlast
      · exact hmem
      · rw [← hlast] at hne
        exact absurd (h.own hfound) hne
    · intro key hkey
      have hne : ¬ old == key := by
        intro hsame
        exact honce.2.2 key hkey old (List.mem_singleton_self _) (BEq.symm hsame)
      show ∃ found, (q.set _ _).known? key = some found ∧ _
      rw [known?_set, if_neg hne]
      apply h.idle
      rw [hsplit]
      exact List.mem_append_left _ hkey

theorem Proper.put (h : room.Proper mine) (hmine : mine key) (hmiss : room.known? key = none) :
    (room.put key data).Proper mine := by
  have hne : ∀ other ∈ room.idle, ¬ key == other := by
    intro other hother hsame
    obtain ⟨found, hfound, -⟩ := h.idle other hother
    rw [← h.same hsame, hmiss] at hfound
    cases hfound
  apply h.put_entry ⟨key, data, 1⟩ hmine
  · intro hzero
    cases hzero
  · intro other hother _
    exact hother
  · intro other hother
    exact .inr ⟨hother, hne other hother⟩
  · exact h.once

/-- **Steps keep a shelf proper.** -/
theorem Proper.step (h : q.Proper mine) (hmine : mine event.key) (hstep : q.Step event q') :
    q'.Proper mine := by
  cases hstep with
  | hit hentry => exact h.lend hentry
  | full hmiss hroom => exact h
  | @loaded key room data hmiss hroom =>
      refine (h.makeRoom hroom).put hmine ?_
      rw [known?_room hroom, hmiss]
      split <;> rfl
  | failed e hmiss hroom => exact h.makeRoom hroom
  | released hentry hheld => exact h.giveBack hentry hheld

end

/-! ## What has been loaded -/

/-- A key that is held by more or fewer keeps its bytes. -/
theorem Proper.data?_set (h : q.Proper mine) (hentry : q.known? key = some entry) (holders : Nat)
    (other : K) : (q.set entry.key (some { entry with holders := holders })).data? other =
      q.data? other := by
  unfold data?
  rw [known?_set]
  by_cases hsame : entry.key == other
  · rw [if_pos hsame, ← h.same hsame, h.same (h.own hentry), hentry]
    rfl
  · rw [if_neg hsame]

/-- **What becomes of the bytes of a key**: a step loads others, or sends the
key away, or leaves them. -/
theorem Step.data? (hstep : q.Step event q') (h : q.Proper mine) (other : K) :
    q'.data? other = match event.loaded? other with
      | some bytes => some bytes
      | none => if event.evicted?.any (· == other) then none else q.data? other := by
  have hroomy : ∀ {room : Shelf K}, q.makeRoom? = some room →
      room.data? other = if q.oldest?.any (· == other) then none else q.data? other := by
    intro room hroom
    unfold Shelf.data?
    rw [known?_room hroom]
    split <;> rfl
  cases hstep with
  | @hit key entry hentry =>
      have hnone : (Event.got key [] none (.ok (some entry.data))).loaded? other = none := by
        simp [Event.loaded?]
      rw [hnone]
      exact h.data?_set hentry _ other
  | @full key hmiss hroom =>
      have hnone : (Event.got key [] none (.ok none)).loaded? other = none := by
        simp [Event.loaded?]
      rw [hnone]
      rfl
  | released hentry hheld => exact h.data?_set hentry _ other
  | @failed key room e hmiss hroom =>
      have hnone : (Event.got key [.error e] q.oldest? (.error e)).loaded? other = none := by
        simp [Event.loaded?, Except.toOption]
      rw [hnone]
      exact hroomy hroom
  | @loaded key room data hmiss hroom =>
      have hloaded : (Event.got key [.ok data] q.oldest? (.ok (some data))).loaded? other =
          if key == other then some data else none := by
        simp [Event.loaded?, Except.toOption]
      have hput : (room.put key data).data? other =
          if key == other then some data else room.data? other := by
        show (if key == other then _ else room.known? other).map Entry.data = _
        split <;> rfl
      rw [hloaded, hput]
      by_cases hsame : key == other
      · rw [if_pos hsame, if_pos hsame]
      · rw [if_neg hsame, if_neg hsame]
        exact hroomy hroom

/-! ## Who has been let go -/

/-- The queue is in the order in which its keys were let go. -/
structure InOrder (q : Shelf K) (past : List (Event K)) : Prop where
  sorted : q.idle.Pairwise fun newer older => age past newer < age past older
  released : ∀ key ∈ q.idle, age past key < past.length

/-- Keys that are not let go grow older together. -/
theorem InOrder.of_sublist (h : q.InOrder past) (hsub : q'.idle.Sublist q.idle)
    (hstay : ∀ key ∈ q.idle, event.releases key = false) : q'.InOrder (event :: past) := by
  have hage : ∀ key ∈ q.idle, age (event :: past) key = age past key + 1 := by
    intro key hkey
    rw [age_cons, hstay key hkey]
    rfl
  refine ⟨(h.sorted.imp_of_mem ?_).sublist hsub, ?_⟩
  · intro newer older hnewer holder hlt
    rw [hage newer hnewer, hage older holder]
    omega
  · intro key hkey
    have hlt := h.released key (hsub.mem hkey)
    rw [hage key (hsub.mem hkey), List.length_cons]
    omega

/-- **Steps keep the queue in order**: keys join it at the front, and leave it
from anywhere. -/
theorem InOrder.step [EquivBEq K] (ho : q.InOrder past) (h : q.Proper mine)
    (hstep : q.Step event q') : q'.InOrder (event :: past) := by
  have hshort : ∀ {room : Shelf K}, q.makeRoom? = some room → room.idle.Sublist q.idle := by
    intro room hroom
    rcases makeRoom?_cases hroom with ⟨-, -, rfl⟩ | ⟨old, front, -, hsplit, rfl⟩
    · exact List.Sublist.refl _
    · rw [hsplit]
      exact List.sublist_append_left _ _
  cases hstep with
  | hit hentry => exact ho.of_sublist List.filter_sublist fun _ _ => rfl
  | full hmiss hroom => exact ho.of_sublist (List.Sublist.refl _) fun _ _ => rfl
  | loaded data hmiss hroom =>
      have hsub := hshort hroom
      exact ho.of_sublist hsub fun _ _ => rfl
  | failed e hmiss hroom => exact ho.of_sublist (hshort hroom) fun _ _ => rfl
  | @released key entry hentry hheld =>
      have hother : ∀ other ∈ q.idle, (Event.released key).releases other = false := by
        intro other hother
        have hne := h.ne_of_held hentry hheld other hother
        rw [BEq.congr_left (h.own hentry), Bool.not_eq_true] at hne
        exact hne
      have hrest : q.InOrder (.released key :: past) :=
        ho.of_sublist (List.Sublist.refl _) hother
      have hself : age (.released key :: past) entry.key = 0 := by
        have hsame : (Event.released key).releases entry.key = true := BEq.symm (h.own hentry)
        rw [age_cons, if_pos hsame]
      by_cases hlast : entry.holders - 1 = 0
      · have hidle : (q.giveBack entry).idle = entry.key :: q.idle := if_pos hlast
        refine ⟨?_, ?_⟩
        · rw [hidle, List.pairwise_cons]
          refine ⟨?_, hrest.sorted⟩
          intro older holder
          rw [hself, age_cons, hother older holder]
          exact Nat.succ_pos _
        · rw [hidle, List.forall_mem_cons, hself]
          exact ⟨Nat.succ_pos _, hrest.released⟩
      · have hidle : (q.giveBack entry).idle = q.idle := if_neg hlast
        exact ⟨hidle ▸ hrest.sorted, hidle ▸ hrest.released⟩

/-! ## Runs -/

section

variable [EquivBEq K] {size : Nat} (hmine : ∀ {a b : K}, a == b → mine a → mine b)

theorem Runs.proper (h : Runs size mine past q) : q.Proper mine := by
  induction h with
  | start => exact proper_empty size
  | step _ hkey hstep ih => exact ih.step hkey hstep
  | elsewhere _ _ _ ih => exact ih

include hmine

/-- **A shelf has what was last loaded and has not left since.** -/
theorem Runs.data? (h : Runs size mine past q) (hkey : mine key) :
    q.data? key = kept? key past := by
  induction h with
  | start => rfl
  | step hruns _ hstep ih =>
      rw [hstep.data? hruns.proper, ih]
      rfl
  | @elsewhere past q event _ hother hevicted ih =>
      have hloaded : event.loaded? key = none := by
        cases event with
        | got other calls evicted? answer =>
            have hne : ¬ other == key := fun hsame => hother (hmine (BEq.symm hsame) hkey)
            exact if_neg hne
        | released other => rfl
      have hstays : ¬ event.evicted?.any (· == key) := by
        rw [Option.any_eq_true]
        rintro ⟨old, hold, hsame⟩
        exact hevicted old hold (hmine (BEq.symm hsame) hkey)
      rw [ih, kept?, hloaded]
      exact (if_neg hstays).symm

/-- **The queue of a shelf is in order.** -/
theorem Runs.inOrder (h : Runs size mine past q) : q.InOrder past := by
  induction h with
  | start => exact ⟨List.Pairwise.nil, by simp [empty]⟩
  | step hruns _ hstep ih => exact ih.step hruns.proper hstep
  | @elsewhere past q event hruns hother _ ih =>
      apply ih.of_sublist (List.Sublist.refl _)
      intro key hkey
      obtain ⟨entry, hentry, rfl, -⟩ := hruns.proper.idle key hkey
      cases event with
      | got => rfl
      | released other =>
          show (other == entry.key) = false
          rw [Bool.eq_false_iff]
          intro hsame
          exact hother (hmine (BEq.symm hsame) (hruns.proper.mine hentry))

end

end Shelf

end RecordStore.Cache
