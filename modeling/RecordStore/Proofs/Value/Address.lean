import Mathlib
import RecordStore.IpAddress
import RecordStore.Proofs.Numeric.Decimal

/-!
# Addresses written and read back

The text of an address is read as that address.  Each number ends where its
text ends, because what is behind it is no digit; groups are read up to the
colons that stand for the run of zeros, and the run is as long as what is
missing to sixteen octets.

`number?_toDigits` — a number in front of what is no digit is read whole;
`dottedOctets?_dotted`, `groups?_joined` — so are octets and groups;
`isRun_zeroRun` — what is left out of the text are zeros;
`ofText?_text` — an address is read back from its text.
-/

namespace RecordStore.IpAddress

/-! ## Numbers -/

/-- A number in front of a text ends there. -/
def Stops (base : Nat) (text : List Char) : Prop :=
  ∀ c ∈ text.head?, digit? base c = none

theorem stops_nil (base : Nat) : Stops base [] := by
  intro c hc
  cases hc

theorem stops_cons {base : Nat} {c : Char} {rest : List Char} (h : digit? base c = none) :
    Stops base (c :: rest) := by
  intro d hd
  rw [List.head?_cons, Option.mem_some_iff] at hd
  exact hd ▸ h

theorem digit?_digitChar {base d : Nat} (hbase : base ≤ 16) (h : d < base) :
    digit? base d.digitChar = some d := by
  have hall : ∀ base ≤ 16, ∀ d < base, digit? base d.digitChar = some d := by decide
  exact hall base hbase d h

/-- The digits of a number are read as that number, after what was read
before. -/
theorem digits_toDigits {base : Nat} (hlow : 1 < base) (hhigh : base ≤ 16) (n value count : Nat)
    (rest : List Char) :
    digits base value count (Nat.toDigits base n ++ rest) =
      digits base (value * base ^ (Nat.toDigits base n).length + n)
        (count + (Nat.toDigits base n).length) rest := by
  induction n using Nat.strong_induction_on generalizing rest with
  | _ n ih =>
      by_cases hsmall : n < base
      · rw [Nat.toDigits_of_lt_base hsmall, List.cons_append, List.nil_append, digits,
          digit?_digitChar hhigh hsmall]
        simp only [List.length_singleton, Nat.pow_one]
      · have hle := Nat.le_of_not_lt hsmall
        have hmod := Nat.mod_lt n (by omega : base > 0)
        rw [Nat.toDigits_of_base_le hlow hle, List.append_assoc,
          ih (n / base) (Nat.div_lt_self (by omega) hlow), List.cons_append, List.nil_append,
          digits, digit?_digitChar hhigh hmod]
        simp only [List.length_append, List.length_singleton]
        congr 1
        rw [Nat.add_mul, Nat.mul_assoc, ← Nat.pow_succ, Nat.add_assoc, Nat.div_add_mod']

theorem digits_of_stops {base : Nat} {rest : List Char} (h : Stops base rest)
    (value count : Nat) : digits base value count rest = (value, count, rest) := by
  cases rest with
  | nil => rfl
  | cons c rest => rw [digits, h c rfl]

/-- **A number** in front of what is no digit is read whole. -/
theorem number?_toDigits {base most n : Nat} {rest : List Char} (hlow : 1 < base)
    (hhigh : base ≤ 16) (hmost : 0 < most) (h : n < base ^ most) (hrest : Stops base rest) :
    number? base most (Nat.toDigits base n ++ rest) = some (n, rest) := by
  have hlong := (Nat.length_toDigits_le_iff hlow hmost).mpr h
  have hshort := Nat.length_toDigits_pos (b := base) (n := n)
  rw [number?, digits_toDigits hlow hhigh, digits_of_stops hrest]
  simp only [Nat.zero_mul, Nat.zero_add]
  rw [if_neg (by omega)]

/-- A number of more than one digit begins with no zero. -/
theorem head?_toDigits_ne {n : Nat} (h : n ≠ 0) : (Nat.toDigits 10 n).head? ≠ some '0' := by
  intro hzero
  rw [← Decimal.map_digitChar_digits, List.head?_map, Option.map_eq_some_iff] at hzero
  obtain ⟨d, hd, hchar⟩ := hzero
  rw [Nat.digitChar_eq_zero.mp hchar] at hd
  exact Decimal.digits_head_ne_zero h hd

/-- **An octet** in front of what is no digit is read whole. -/
theorem octet?_toDigits (o : UInt8) {rest : List Char} (hrest : Stops 10 rest) :
    octet? (Nat.toDigits 10 o.toNat ++ rest) = some (o, rest) := by
  have hlt := o.toNat_lt
  rw [octet?, number?_toDigits (by decide) (by decide) (by decide) (by omega) hrest]
  simp only [UInt8.ofNat_toNat]
  rw [if_neg]
  rintro (hlarge | ⟨hzero, hlonger⟩)
  · omega
  · by_cases hsmall : o.toNat < 10
    · rw [Nat.toDigits_of_lt_base hsmall, List.length_append, List.length_singleton] at hlonger
      omega
    · rw [List.head?_append_of_ne_nil _ Nat.toDigits_ne_nil] at hzero
      exact head?_toDigits_ne (by omega) hzero

/-! ## Dotted decimal -/

/-- Items with a separator before each but the first. -/
theorem intercalate_map_cons {X : Type} (separator : Char) (f : X → List Char) (x : X)
    (rest : List X) : [separator].intercalate ((x :: rest).map f) =
      f x ++ rest.flatMap fun y => separator :: f y := by
  induction rest generalizing x with
  | nil => rw [List.map_singleton, List.intercalate_singleton, List.flatMap_nil, List.append_nil]
  | cons y rest ih =>
      have hrest := ih y
      rw [List.map_cons] at hrest
      rw [List.map_cons, List.map_cons, List.intercalate_cons_cons, hrest, List.flatMap_cons,
        List.append_assoc]
      rfl

theorem toList_dotted (o : UInt8) (octets : Bytes) :
    (dotted (o :: octets)).toList =
      Nat.toDigits 10 o.toNat ++ octets.flatMap fun o => '.' :: Nat.toDigits 10 o.toNat := by
  rw [dotted, String.toList_intercalate, List.map_map]
  have hdigits : String.toList ∘ (fun o : UInt8 => toString o.toNat) =
      fun o : UInt8 => Nat.toDigits 10 o.toNat := by
    funext o
    rw [Function.comp_apply, Nat.toString_eq_ofList_toDigits, String.toList_ofList]
  rw [hdigits]
  exact intercalate_map_cons '.' _ o octets

/-- **Dotted decimal** is read as its octets. -/
theorem dottedOctets?_dotted (o : UInt8) (octets : Bytes) {rest : List Char}
    (hrest : Stops 10 rest) :
    dottedOctets? (octets.length + 1) ((dotted (o :: octets)).toList ++ rest) =
      some (o :: octets, rest) := by
  rw [toList_dotted]
  induction octets generalizing o with
  | nil =>
      rw [List.flatMap_nil, List.append_nil]
      show (octet? (Nat.toDigits 10 o.toNat ++ rest)).map _ = _
      rw [octet?_toDigits o hrest, Option.map_some]
  | cons next octets ih =>
      rw [List.flatMap_cons, List.append_assoc, List.cons_append, List.cons_append,
        List.length_cons, dottedOctets?, octet?_toDigits o (stops_cons (by decide))]
      show (dottedOctets? (octets.length + 1) _).map _ = _
      rw [ih next, Option.map_some]

theorem digits_suffix (base value count : Nat) (text : List Char) :
    (digits base value count text).2.2 <:+ text := by
  induction text generalizing value count with
  | nil => exact List.suffix_rfl
  | cons c rest ih =>
      rw [digits]
      split
      · exact (ih _ _).trans (List.suffix_cons c rest)
      · exact List.suffix_rfl

/-- What is behind an octet was behind it in the text. -/
theorem suffix_of_octet? {text rest : List Char} {o : UInt8} (h : octet? text = some (o, rest)) :
    rest <:+ text := by
  have hdigits := digits_suffix 10 0 0 text
  unfold octet? number? at h
  rcases hread : digits 10 0 0 text with ⟨value, count, after⟩
  rw [hread] at h hdigits
  simp only at h hdigits
  split at h
  · rename_i hnumber
    split at hnumber
    · cases hnumber
    · cases hnumber
      split at h
      · cases h
      · cases h
        exact hdigits
  · cases h

/-- A text without points is no dotted decimal. -/
theorem dottedOctets?_of_no_point {text : List Char} (h : '.' ∉ text) (count : Nat) :
    dottedOctets? (count + 2) text = none := by
  rw [dottedOctets?]
  split
  · rename_i o rest hoctet
    exact absurd ((suffix_of_octet? hoctet).mem List.mem_cons_self) h
  · rfl

/-! ## Groups -/

/-- The octets of groups. -/
def octetsOf (groups : List Nat) : Bytes :=
  groups.flatMap fun g => [UInt8.ofNat (g / 256), UInt8.ofNat (g % 256)]

theorem octetsOf_append (front back : List Nat) :
    octetsOf (front ++ back) = octetsOf front ++ octetsOf back :=
  List.flatMap_append

theorem length_octetsOf (groups : List Nat) : (octetsOf groups).length = 2 * groups.length := by
  induction groups with
  | nil => rfl
  | cons g rest ih =>
      have hcons : (octetsOf (g :: rest)).length = 2 + (octetsOf rest).length :=
        List.length_append
      rw [hcons, ih, List.length_cons, Nat.mul_succ, Nat.add_comm]

theorem octetsOf_replicate_zero (count : Nat) :
    octetsOf (List.replicate count 0) = List.replicate (2 * count) 0 := by
  refine List.eq_replicate_iff.mpr ⟨?_, ?_⟩
  · rw [length_octetsOf, List.length_replicate]
  · intro octet hoctet
    obtain ⟨g, hg, hin⟩ := List.mem_flatMap.mp hoctet
    rw [List.eq_of_mem_replicate hg] at hin
    simpa using hin

/-- Octets in pairs make up groups. -/
theorem octetsOf_groups {octets : Bytes} {count : Nat} (h : octets.length = 2 * count) :
    octetsOf (groups octets) = octets ∧ (groups octets).length = count ∧
      ∀ g ∈ groups octets, g < 65536 := by
  induction count generalizing octets with
  | zero =>
      rw [List.length_eq_zero_iff.mp h]
      exact ⟨rfl, rfl, fun g hg => nomatch hg⟩
  | succ count ih =>
      obtain ⟨high, low, rest, rfl⟩ : ∃ high low rest, octets = high :: low :: rest := by
        match octets, h with
        | high :: low :: rest, _ => exact ⟨high, low, rest, rfl⟩
      obtain ⟨hoctets, hcount, hsmall⟩ := @ih rest (by simp only [List.length_cons] at h; omega)
      have hhigh := high.toNat_lt
      have hlow := low.toNat_lt
      refine ⟨?_, by rw [groups, List.length_cons, hcount], ?_⟩
      · rw [groups, octetsOf, List.flatMap_cons, ← octetsOf, hoctets,
          show (256 * high.toNat + low.toNat) / 256 = high.toNat by omega,
          show (256 * high.toNat + low.toNat) % 256 = low.toNat by omega, UInt8.ofNat_toNat,
          UInt8.ofNat_toNat]
        rfl
      · intro g hg
        rcases List.mem_cons.mp hg with rfl | hg
        · omega
        · exact hsmall g hg

theorem toList_joined (g : Nat) (groups : List Nat) :
    (joined (g :: groups)).toList =
      Nat.toDigits 16 g ++ groups.flatMap fun g => ':' :: Nat.toDigits 16 g := by
  rw [joined, String.toList_intercalate, List.map_map]
  have hdigits : String.toList ∘ (fun g => String.ofList (Nat.toDigits 16 g)) =
      Nat.toDigits 16 := by
    funext g
    rw [Function.comp_apply, String.toList_ofList]
  rw [hdigits]
  exact intercalate_map_cons ':' _ g groups

/-- A group in hexadecimal, in front of what is no digit. -/
theorem groups?_group {count g : Nat} {rest : List Char} {first : Bool} {text : List Char}
    (htext : separated? first text = some (Nat.toDigits 16 g ++ rest)) (hsmall : g < 65536)
    (hdotted : dottedOctets? 4 (Nat.toDigits 16 g ++ rest) = none) (hrest : Stops 16 rest) :
    groups? (count + 1) first text =
      ⟨octetsOf [g] ++ (groups? count false rest).octets, (groups? count false rest).dotted,
        (groups? count false rest).rest⟩ := by
  have hnumber : number? 16 4 (Nat.toDigits 16 g ++ rest) = some (g, rest) :=
    number?_toDigits (by decide) (by decide) (by decide) hsmall hrest
  rw [groups?, htext]
  simp only [hdotted, ite_self, hnumber]
  rfl

/-- The end of a text, or the colons that stand for zeros. -/
def Ends (text : List Char) : Prop :=
  text = [] ∨ ∃ rest, text = ':' :: ':' :: rest

theorem groups?_of_ends {text : List Char} (h : Ends text) (count : Nat) (first : Bool) :
    groups? count first text = ⟨[], false, text⟩ := by
  cases count with
  | zero => rfl
  | succ count =>
      rw [groups?]
      cases hbody : separated? first text with
      | none => rfl
      | some body =>
          -- nothing to read, or a colon: no number begins there
          have hbody' : body = [] ∨ ∃ rest, body = ':' :: rest := by
            rcases h with rfl | ⟨rest, rfl⟩
            · cases first
              · cases hbody
              · cases hbody
                exact .inl rfl
            · cases first
              · cases hbody
                exact .inr ⟨rest, rfl⟩
              · cases hbody
                exact .inr ⟨':' :: rest, rfl⟩
          have hdotted : dottedOctets? 4 body = none := by
            rcases hbody' with rfl | ⟨rest, rfl⟩ <;> rfl
          have hnumber : number? 16 4 body = none := by
            rcases hbody' with rfl | ⟨rest, rfl⟩ <;> rfl
          simp only [hdotted, ite_self, hnumber]

theorem mem_toDigits {base n : Nat} {c : Char} (hbase : 1 < base) (h : c ∈ Nat.toDigits base n) :
    ∃ d < base, c = d.digitChar := by
  induction n using Nat.strong_induction_on with
  | _ n ih =>
      by_cases hsmall : n < base
      · rw [Nat.toDigits_of_lt_base hsmall] at h
        exact ⟨n, hsmall, List.mem_singleton.mp h⟩
      · have hle := Nat.le_of_not_lt hsmall
        rw [Nat.toDigits_of_base_le hbase hle] at h
        rcases List.mem_append.mp h with h | h
        · exact ih (n / base) (Nat.div_lt_self (by omega) hbase) h
        · exact ⟨n % base, Nat.mod_lt n (by omega), List.mem_singleton.mp h⟩

theorem point_notMem_toDigits (n : Nat) : '.' ∉ Nat.toDigits 16 n := by
  intro h
  obtain ⟨d, -, hd⟩ := mem_toDigits (by decide) h
  exact Nat.digitChar_ne '.' (by decide) hd.symm

theorem point_notMem_following (groups : List Nat) :
    '.' ∉ groups.flatMap fun g => ':' :: Nat.toDigits 16 g := by
  intro h
  obtain ⟨g, -, hg⟩ := List.mem_flatMap.mp h
  rcases List.mem_cons.mp hg with hcolon | hdigit
  · exact absurd hcolon (by decide)
  · exact point_notMem_toDigits g hdigit

theorem point_notMem_joined (groups : List Nat) : '.' ∉ (joined groups).toList := by
  intro h
  cases groups with
  | nil => cases h
  | cons g groups =>
      rw [toList_joined] at h
      rcases List.mem_append.mp h with h | h
      · exact point_notMem_toDigits g h
      · exact point_notMem_following groups h

/-- Hexadecimal digits stop at a colon, and at the end. -/
theorem stops_following {rest : List Char} (h : Ends rest) (groups : List Nat) :
    Stops 16 ((groups.flatMap fun g => ':' :: Nat.toDigits 16 g) ++ rest) := by
  cases groups with
  | nil =>
      rcases h with rfl | ⟨rest, rfl⟩
      · exact stops_nil 16
      · exact stops_cons (by decide)
  | cons g groups => exact stops_cons (by decide)

section

variable {rest : List Char} (hends : Ends rest) (hpoint : '.' ∉ rest)

include hpoint in
theorem not_dotted (g : Nat) (groups : List Nat) :
    dottedOctets? 4 (Nat.toDigits 16 g ++
      ((groups.flatMap fun g => ':' :: Nat.toDigits 16 g) ++ rest)) = none := by
  apply dottedOctets?_of_no_point
  rw [List.mem_append, List.mem_append]
  rintro (h | h | h)
  · exact point_notMem_toDigits g h
  · exact point_notMem_following groups h
  · exact hpoint h

include hends hpoint

theorem groups?_following {groups : List Nat} (hsmall : ∀ g ∈ groups, g < 65536) {count : Nat}
    (hcount : groups.length ≤ count) :
    groups? count false ((groups.flatMap fun g => ':' :: Nat.toDigits 16 g) ++ rest) =
      ⟨octetsOf groups, false, rest⟩ := by
  induction groups generalizing count with
  | nil => exact groups?_of_ends hends count false
  | cons g groups ih =>
      obtain ⟨count, rfl⟩ : ∃ more, count = more + 1 :=
        ⟨count - 1, by rw [List.length_cons] at hcount; omega⟩
      have htext : separated? false
          (((g :: groups).flatMap fun g => ':' :: Nat.toDigits 16 g) ++ rest) =
            some (Nat.toDigits 16 g ++
              ((groups.flatMap fun g => ':' :: Nat.toDigits 16 g) ++ rest)) := by
        rw [List.flatMap_cons, List.append_assoc]
        rfl
      rw [groups?_group htext (hsmall g List.mem_cons_self)
        (not_dotted hpoint g groups) (stops_following hends groups),
        ih (fun g hg => hsmall g (List.mem_cons_of_mem _ hg)) (Nat.le_of_succ_le_succ hcount)]
      rfl

/-- **Groups** are read up to the end of the text, or to the colons that stand
for zeros. -/
theorem groups?_joined {groups : List Nat} (hsmall : ∀ g ∈ groups, g < 65536) {count : Nat}
    (hcount : groups.length ≤ count) :
    groups? count true ((joined groups).toList ++ rest) = ⟨octetsOf groups, false, rest⟩ := by
  cases groups with
  | nil => exact groups?_of_ends hends count true
  | cons g groups =>
      obtain ⟨count, rfl⟩ : ∃ more, count = more + 1 :=
        ⟨count - 1, by rw [List.length_cons] at hcount; omega⟩
      rw [toList_joined, List.append_assoc, groups?_group rfl (hsmall g List.mem_cons_self)
        (not_dotted hpoint g groups) (stops_following hends groups), groups?_following hends hpoint
        (fun g hg => hsmall g (List.mem_cons_of_mem _ hg)) (Nat.le_of_succ_le_succ hcount)]
      rfl

end

/-! ## Sixteen octets -/

theorem sixteen?_joined {groups : List Nat} (hlength : groups.length = 8)
    (hsmall : ∀ g ∈ groups, g < 65536) :
    sixteen? (joined groups).toList = some (octetsOf groups, []) := by
  have hread := groups?_joined (.inl rfl) List.not_mem_nil hsmall (Nat.le_of_eq hlength)
  rw [List.append_nil] at hread
  have hall : (octetsOf groups).length = 16 := by
    rw [length_octetsOf, hlength]
  rw [sixteen?, hread]
  simp only
  rw [if_pos hall]

/-- Zeros stand in the place of two colons, as many as are missing. -/
theorem sixteen?_of_gap {text rest : List Char} {octets : Bytes} {back : Groups}
    (hfront : groups? 8 true text = ⟨octets, false, ':' :: ':' :: rest⟩)
    (hshort : octets.length ≠ 16)
    (hback : groups? (7 - octets.length / 2) true rest = back) :
    sixteen? text =
      some (octets ++ List.replicate (16 - octets.length - back.octets.length) 0 ++ back.octets,
        back.rest) := by
  rw [sixteen?, hfront]
  simp only
  rw [if_neg hshort, if_neg Bool.false_ne_true, hback]

/-- A run that is left out is as long as what is missing to eight groups. -/
theorem sixteen?_left_out {front back : List Nat} {length : Nat}
    (hlength : front.length + length + back.length = 8) (hsome : 0 < length)
    (hfront : ∀ g ∈ front, g < 65536) (hback : ∀ g ∈ back, g < 65536) :
    sixteen? ((joined front).toList ++ ':' :: ':' :: (joined back).toList) =
      some (octetsOf (front ++ List.replicate length 0 ++ back), []) := by
  have hpoint : '.' ∉ ':' :: ':' :: (joined back).toList := by
    intro h
    rcases List.mem_cons.mp h with h | h
    · exact absurd h (by decide)
    rcases List.mem_cons.mp h with h | h
    · exact absurd h (by decide)
    · exact point_notMem_joined back h
  have hfirst := groups?_joined (.inr ⟨_, rfl⟩) hpoint hfront (by omega : front.length ≤ 8)
  have hsecond := groups?_joined (.inl rfl) List.not_mem_nil hback
    (by omega : back.length ≤ 7 - front.length)
  rw [List.append_nil] at hsecond
  have hcount : (octetsOf front).length = 2 * front.length := length_octetsOf front
  have hhalf : (octetsOf front).length / 2 = front.length := by omega
  rw [← hhalf] at hsecond
  rw [sixteen?_of_gap hfirst (by omega) hsecond, octetsOf_append,
    octetsOf_append, octetsOf_replicate_zero, length_octetsOf, length_octetsOf,
    (by omega : 16 - 2 * front.length - 2 * back.length = 2 * length)]

/-- A start and a length are those of a run of zeros. -/
def IsRun (groups : List Nat) (run : Nat × Nat) : Prop :=
  ∃ front back, groups = front ++ List.replicate run.2 0 ++ back ∧ front.length = run.1

/-- **What is left out are zeros.**  The search has gone through `before`, at
whose end there are `length` zeros. -/
theorem isRun_zeroRun {before after : List Nat} {start length : Nat} {best : Nat × Nat}
    (hnow : 0 < length → ∃ front, before = front ++ List.replicate length 0 ∧
      front.length = start)
    (hbest : IsRun (before ++ after) best) :
    IsRun (before ++ after) (zeroRun after before.length start length best) := by
  induction after generalizing before start length best with
  | nil => exact hbest
  | cons g after ih =>
      have hsplit : before ++ g :: after = (before ++ [g]) ++ after := by
        rw [List.append_assoc, List.singleton_append]
      have hindex : before.length + 1 = (before ++ [g]).length := by
        rw [List.length_append, List.length_singleton]
      rw [hsplit] at hbest ⊢
      cases g with
      | zero =>
          have hmore : ∃ front, before ++ [0] = front ++ List.replicate (length + 1) 0 ∧
              front.length = if length = 0 then before.length else start := by
            by_cases hnone : length = 0
            · rw [if_pos hnone, hnone]
              exact ⟨before, rfl, rfl⟩
            · obtain ⟨front, hfront, hstart⟩ := hnow (Nat.pos_of_ne_zero hnone)
              rw [if_neg hnone]
              refine ⟨front, ?_, hstart⟩
              rw [hfront, List.append_assoc, List.replicate_succ']
          rw [zeroRun, hindex]
          apply ih
          · intro _
            exact hmore
          · split
            · obtain ⟨front, hfront, hstart⟩ := hmore
              exact ⟨front, after, by rw [hfront], hstart⟩
            · exact hbest
      | succ g =>
          rw [zeroRun, hindex]
          · apply ih
            · intro hpos
              exact absurd hpos (Nat.lt_irrefl 0)
            · exact hbest
          · exact Nat.succ_ne_zero g

/-- **Eight groups** are read back from their text. -/
theorem sixteen?_groupsText {groups : List Nat} (hlength : groups.length = 8)
    (hsmall : ∀ g ∈ groups, g < 65536) :
    sixteen? (groupsText groups).toList = some (octetsOf groups, []) := by
  obtain ⟨front, back, hsplit, hstart⟩ : IsRun groups (zeroRun groups 0 0 0 (0, 0)) :=
    @isRun_zeroRun [] groups 0 0 (0, 0) (fun hpos => absurd hpos (Nat.lt_irrefl 0))
      ⟨[], groups, rfl, rfl⟩
  rw [groupsText]
  rcases hrun : zeroRun groups 0 0 0 (0, 0) with ⟨start, length⟩
  rw [hrun] at hsplit hstart
  simp only at hsplit hstart ⊢
  split
  · rename_i hlong
    have hdrop : groups.drop (start + length) = back := by
      rw [hsplit]
      exact List.drop_left' (by rw [List.length_append, List.length_replicate, hstart])
    have htake : groups.take start = front := by
      rw [hsplit, List.append_assoc]
      exact List.take_left' hstart
    have hcount := congrArg List.length hsplit
    rw [List.length_append, List.length_append, List.length_replicate, hlength] at hcount
    rw [htake, hdrop, String.toList_append, String.toList_append]
    have hread := sixteen?_left_out hcount.symm (by omega)
      (fun g hg => hsmall g (by rw [hsplit]; simp [hg]))
      (fun g hg => hsmall g (by rw [hsplit]; simp [hg]))
    rw [← hsplit] at hread
    rw [List.append_assoc]
    exact hread
  · exact sixteen?_joined hlength hsmall

theorem toList_mapped :
    "::ffff:".toList = ':' :: ':' :: (Nat.toDigits 16 65535 ++ [':']) := by
  decide

/-- Four octets in the place of sixteen are read as those. -/
theorem sixteen?_mapped (o : UInt8) {octets : Bytes} (hlength : octets.length = 3) :
    sixteen? ("::ffff:".toList ++ (dotted (o :: octets)).toList) =
      some (mappedFront ++ o :: octets, []) := by
  have hdotted := dottedOctets?_dotted o octets (stops_nil 10)
  rw [hlength, List.append_nil] at hdotted
  have hlast : groups? 6 false (':' :: (dotted (o :: octets)).toList) =
      ⟨o :: octets, true, []⟩ := by
    rw [groups?, separated?, if_neg Bool.false_ne_true]
    simp only [hdotted]
    rfl
  have hback : groups? 7 true (Nat.toDigits 16 65535 ++ ':' :: (dotted (o :: octets)).toList) =
      ⟨[0xFF, 0xFF] ++ o :: octets, true, []⟩ := by
    rw [groups?_group rfl (by decide) rfl (stops_cons (by decide)), hlast]
    rfl
  rw [toList_mapped, List.cons_append, List.cons_append, List.append_assoc, List.singleton_append,
    sixteen?_of_gap (groups?_of_ends (.inr ⟨_, rfl⟩) 8 true) (by decide) hback]
  have hmissing : 16 - ([] : Bytes).length - (([0xFF, 0xFF] : Bytes) ++ o :: octets).length =
      10 := by
    have htwo : (([0xFF, 0xFF] : Bytes) ++ o :: octets).length = octets.length + 3 := rfl
    rw [htwo, hlength]
    rfl
  rw [hmissing]
  rfl

/-! ## Texts -/

/-- The characters that texts of addresses are made of. -/
def IsSpelling (c : Char) : Prop :=
  (∃ d < 16, c = d.digitChar) ∨ c = '.' ∨ c = ':'

theorem IsSpelling.ascii {c : Char} (h : IsSpelling c) : c.toNat < 128 := by
  have hall : ∀ d < 16, (Nat.digitChar d).toNat < 128 := by decide
  rcases h with ⟨d, hd, rfl⟩ | rfl | rfl
  · exact hall d hd
  · decide
  · decide

theorem IsSpelling.not_isBlank {c : Char} (h : IsSpelling c) : Blank.isBlank c = false := by
  have hall : ∀ d < 16, Blank.isBlank (Nat.digitChar d) = false := by decide
  rcases h with ⟨d, hd, rfl⟩ | rfl | rfl
  · exact hall d hd
  · decide
  · decide

theorem isSpelling_toDigits {b n : Nat} (hlow : 1 < b) (hhigh : b ≤ 16) :
    ∀ c ∈ Nat.toDigits b n, IsSpelling c := by
  intro c hc
  obtain ⟨d, hd, hchar⟩ := mem_toDigits hlow hc
  exact .inl ⟨d, by omega, hchar⟩

/-- Numbers with separators are made of them, if the separators are. -/
theorem isSpelling_separated {X : Type} {b : Nat} (hlow : 1 < b) (hhigh : b ≤ 16)
    {separator : Char} (hseparator : IsSpelling separator) (number : X → Nat) (x : X)
    (rest : List X) :
    ∀ c ∈ Nat.toDigits b (number x) ++
      rest.flatMap fun y => separator :: Nat.toDigits b (number y), IsSpelling c := by
  intro c hc
  rcases List.mem_append.mp hc with hc | hc
  · exact isSpelling_toDigits hlow hhigh c hc
  obtain ⟨y, -, hc⟩ := List.mem_flatMap.mp hc
  rcases List.mem_cons.mp hc with rfl | hc
  · exact hseparator
  · exact isSpelling_toDigits hlow hhigh c hc

theorem isSpelling_dotted (octets : Bytes) : ∀ c ∈ (dotted octets).toList, IsSpelling c := by
  cases octets with
  | nil => exact fun c hc => nomatch hc
  | cons o octets =>
      rw [toList_dotted]
      exact isSpelling_separated (by decide) (by decide) (.inr (.inl rfl)) UInt8.toNat o octets

theorem isSpelling_joined (groups : List Nat) : ∀ c ∈ (joined groups).toList, IsSpelling c := by
  cases groups with
  | nil => exact fun c hc => nomatch hc
  | cons g groups =>
      rw [toList_joined]
      exact isSpelling_separated (by decide) (by decide) (.inr (.inr rfl)) id g groups

theorem isSpelling_text (address : IpAddress) : ∀ c ∈ address.text.toList, IsSpelling c := by
  have hcolon : IsSpelling ':' := .inr (.inr rfl)
  have hlast : ∀ c ∈ [':'], IsSpelling c := List.forall_mem_singleton.mpr hcolon
  have hgap : ∀ c ∈ "::".toList, IsSpelling c := List.forall_mem_cons.mpr ⟨hcolon, hlast⟩
  have hfront : ∀ c ∈ "::ffff:".toList, IsSpelling c := by
    rw [toList_mapped, List.forall_mem_cons, List.forall_mem_cons, List.forall_mem_append]
    exact ⟨hcolon, hcolon, isSpelling_toDigits (by decide) (by decide), hlast⟩
  rw [text]
  split
  · exact isSpelling_dotted _
  split
  · rw [String.toList_append]
    exact List.forall_mem_append.mpr ⟨hfront, isSpelling_dotted _⟩
  rw [groupsText]
  simp only
  split
  · rw [String.toList_append, String.toList_append]
    exact List.forall_mem_append.mpr
      ⟨List.forall_mem_append.mpr ⟨isSpelling_joined _, hgap⟩, isSpelling_joined _⟩
  · exact isSpelling_joined _

/-- The text of groups has no points. -/
theorem point_notMem_groupsText (groups : List Nat) : '.' ∉ (groupsText groups).toList := by
  rw [groupsText]
  simp only
  split
  · rw [String.toList_append, String.toList_append, List.mem_append, List.mem_append]
    rintro ((h | h) | h)
    · exact point_notMem_joined _ h
    · exact absurd h (by decide)
    · exact point_notMem_joined _ h
  · exact point_notMem_joined groups

theorem ofOctets?_octets (address : IpAddress) : ofOctets? address.octets = some address := by
  rw [ofOctets?, dif_pos address.length_octets]

/-- **An address is read back from its text.** -/
theorem ofText?_text (address : IpAddress) :
    ofText? (Blank.trim address.text.toList) = some address := by
  have hplain := fun c hc => (isSpelling_text address c hc).not_isBlank
  rw [Blank.trim_of_not_isBlank hplain, text]
  split
  · rename_i hfour
    obtain ⟨o, octets, hoctets⟩ : ∃ o octets, address.octets = o :: octets :=
      List.exists_cons_of_ne_nil (by rintro hnil; rw [hnil] at hfour; cases hfour)
    have hread := dottedOctets?_dotted o octets (stops_nil 10)
    rw [← List.length_cons, ← hoctets, hfour, List.append_nil] at hread
    rw [ofText?, hread]
    exact ofOctets?_octets address
  rename_i hfour
  have hsixteen : address.octets.length = 16 := address.length_octets.resolve_left hfour
  split
  · rename_i hmapped
    have hlength : (address.octets.drop 12).length = 4 := by
      rw [List.length_drop, hsixteen]
    obtain ⟨o, octets, hoctets⟩ : ∃ o octets, address.octets.drop 12 = o :: octets :=
      List.exists_cons_of_ne_nil (by rintro hnil; rw [hnil] at hlength; cases hlength)
    have hread := @sixteen?_mapped o octets (by
      rw [hoctets, List.length_cons] at hlength
      omega)
    have hnone : dottedOctets? 4 ("::ffff:".toList ++ (dotted (o :: octets)).toList) = none := rfl
    rw [String.toList_append, hoctets, ofText?, hnone, hread, ← hoctets, ← hmapped,
      List.take_append_drop]
    exact ofOctets?_octets address
  · obtain ⟨hoctets, hlength, hsmall⟩ := @octetsOf_groups _ 8 hsixteen
    have hread := sixteen?_groupsText hlength hsmall
    rw [hoctets] at hread
    rw [ofText?, dottedOctets?_of_no_point (point_notMem_groupsText _), hread]
    exact ofOctets?_octets address

end RecordStore.IpAddress
