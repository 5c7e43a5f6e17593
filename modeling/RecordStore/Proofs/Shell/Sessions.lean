import Mathlib
import RecordStore.Proofs.Shell.Retrieving
import RecordStore.Proofs.Text.Spacing

/-!
# Comparisons that are typed

A session cuts a line into words, and puts the text to compare with together again
from the last of them (`ofLine_compare`).  So it compares with the text that was
typed if that is evenly spaced; if not, it compares with another text, and no stored
text is equal to both (`compare_equal_iff`).

`compare_typed` says so of whole runs: one that is given the comparison as its
command, and one that reads it from its first line.
-/

namespace RecordStore

open Blank (IsWord EvenlySpaced respaced isBlank)

/-! ## Numbers and names are words -/

namespace Literal

variable {range : Range} {n : Int} {text : List Char}

theorem isDigit_of_digitsFrom {negative : Bool} {value : Int}
    (h : digitsFrom range negative value text = .ok n) : ∀ c ∈ text, c.isDigit = true := by
  induction text generalizing value with
  | nil => exact nofun
  | cons c text ih =>
      obtain ⟨hc, next, -, hrest⟩ := digitsFrom_cons_eq_ok h
      exact List.forall_mem_cons.mpr ⟨hc, ih hrest⟩

/-- A text that denotes an integer is a word. -/
theorem isWord_of_integer (h : integer range text = .ok n) : IsWord text := by
  obtain ⟨hnonempty, front, digits, negative, rfl, hfront, hdigits⟩ := integer_eq_ok h
  refine ⟨hnonempty, List.forall_mem_append.mpr ⟨?_, ?_⟩⟩
  · intro c hc
    rcases hfront c hc with rfl | rfl <;> decide
  · intro c hc
    exact Decimal.not_isBlank_of_isDigit (isDigit_of_digitsFrom hdigits c hc)

end Literal

/-- No blank is a letter, so none becomes another character in lower case. -/
theorem Blank.not_isBlank_of_toLower {c : Char} (h : isBlank c.toLower = false) :
    isBlank c = false := by
  unfold Char.toLower at h
  split at h
  · next hupper =>
      simp [UInt32.le_iff_toNat_le] at hupper
      simp [isBlank, ranges]
      omega
  · exact h

/-- A text that names a type is a word. -/
theorem ValueType.isWord_of_ofName? {text : String} {type : ValueType}
    (h : ofName? text = some type) : IsWord text.toList := by
  have hnames : ∀ name ∈ type.names, name.toList ≠ [] ∧ ∀ c ∈ name.toList, isBlank c = false := by
    cases type <;> simp [names, name] <;> decide
  have hname := List.find?_some h
  obtain ⟨hnonempty, hsolid⟩ := hnames _ (List.contains_iff_mem.mp hname)
  rw [String.toList_map] at hnonempty hsolid
  refine ⟨mt List.map_eq_nil_iff.mpr hnonempty, ?_⟩
  intro c hc
  exact Blank.not_isBlank_of_toLower (hsolid _ (List.mem_map_of_mem hc))

namespace Shell

open Creation (textTypes linesOf typeOf_eq_ok_iff integerOf_eq_ok_iff)

/-! ## Lines -/

section

variable {offset : UInt32} {type : ValueType} {offsetText typeText target : String}

theorem isWord_of_offsetOf (h : offsetOf offsetText = .ok offset) :
    IsWord offsetText.toList := by
  obtain ⟨n, hn, -⟩ := map_eq_ok_iff.mp h
  exact Literal.isWord_of_integer (integerOf_eq_ok_iff.mp hn)

theorem isWord_of_typeOf (h : typeOf typeText = .ok type) : IsWord typeText.toList :=
  ValueType.isWord_of_ofName? (typeOf_eq_ok_iff.mp h)

/-- A line on which a comparison is typed. -/
def comparing (offsetText typeText target : String) : String :=
  "compare " ++ offsetText ++ " " ++ typeText ++ " " ++ target

/-- **A line compares with what is put together** from the words that were typed. -/
theorem ofLine_compare (hoffset : offsetOf offsetText = .ok offset)
    (htype : typeOf typeText = .ok type) :
    Command.ofLine (comparing offsetText typeText target) =
      .ok (some (.compare offset type (.ofList (respaced target.toList)))) := by
  have hspace : isBlank ' ' = true := by decide
  have hverb : IsWord "compare".toList := ⟨by simp, by simp; decide⟩
  have htext : (comparing offsetText typeText target).toList =
      "compare".toList ++ ' ' :: (offsetText.toList ++ ' ' :: (typeText.toList ++
        ' ' :: target.toList)) := by
    simp [comparing]
  have hwords : (Blank.words (comparing offsetText typeText target).toList).map String.ofList =
      "compare" :: offsetText :: typeText :: (Blank.words target.toList).map String.ofList := by
    rw [htext, Blank.words_append_blank hverb hspace,
      Blank.words_append_blank (isWord_of_offsetOf hoffset) hspace,
      Blank.words_append_blank (isWord_of_typeOf htype) hspace]
    simp
  have hnamed : Verb.ofWord? "compare" = some .compare := by decide +kernel
  have htarget : " ".intercalate ((Blank.words target.toList).map String.ofList) =
      .ofList (respaced target.toList) := by
    apply String.toList_inj.mp
    simp [String.toList_intercalate, respaced]
  rw [Command.ofLine, hwords, Command.ofWords, hnamed]
  simp only [Command.ofVerb, hoffset, htype, htarget]
  rfl

end

/-! ## Stored texts -/

section

variable {offset : UInt32} {type : ValueType} {target : String} {store : Store}

/-- What is printed for values that are equal. -/
def Reply.equal : Reply :=
  ⟨["0"], none⟩

/-- A record that is read as a text is equal to a text if it holds that text. -/
theorem ofLine_compareWith_iff (htype : type ∈ textTypes) (record : Bytes) :
    Reply.ofLine ((StoredValue.decode record type >>= fun value =>
        toString <$> value.compareWith target).mapError .ofStore) = .equal ↔
      StoredValue.terminated record = .ok (Utf8.encode target) := by
  have hdecode : StoredValue.decode record type = .text <$> StoredValue.terminated record := by
    unfold textTypes at htype
    fin_cases htype <;> rfl
  have hzero : ∀ o, toString (StoredValue.sign o) = "0" ↔ o = .eq := by decide
  rw [hdecode]
  cases StoredValue.terminated record with
  | error e => exact ⟨nofun, nofun⟩
  | ok bytes =>
      show Reply.mk [toString (StoredValue.sign (Bytes.order bytes (Utf8.encode target)))] none =
        .equal ↔ _
      rw [Reply.equal, Reply.mk.injEq, List.singleton_inj, hzero, order_eq_iff, Except.ok.injEq]
      exact and_iff_left rfl

/-- **No stored text is equal to two texts.** -/
theorem compare_equal_iff (htype : type ∈ textTypes)
    (hequal : ((Command.compare offset type target).run store).1 = .equal) (other : String) :
    ((Command.compare offset type other).run store).1 = .equal ↔ other = target := by
  rcases hvalue : store.collection.value offset type store.storage with ⟨e | _ | item, storage⟩ <;>
    simp only [Command.run, Store.withValue, hvalue] at hequal ⊢
  · cases hequal
  · cases hequal
  · rw [ofLine_compareWith_iff htype] at hequal ⊢
    rw [hequal, Except.ok.injEq, Utf8.encode_injective.eq_iff, eq_comm]

end

/-! ## Runs -/

/-- What a session prints in answer to a command. -/
def Session.answer (reply : Reply) : List String :=
  reply.lines ++ (reply.fault?.map shown).toList

/-- A line was typed that comes to a comparison, however its offset and its type are
spelt. -/
def Session.Asks (typed : List Char) (offset : UInt32) (type : ValueType) (target : String) :
    Prop :=
  ∃ offsetText typeText, Typing.edited typed = some (comparing offsetText typeText target).toList ∧
    offsetOf offsetText = .ok offset ∧ typeOf typeText = .ok type

section

variable {offset : UInt32} {type : ValueType} {target : String} {store : Store}
  {typed : List Char} {rest : List (List Char)}

/-- A session answers the comparison on its first line before anything else. -/
theorem Session.lines_of_asks (h : Session.Asks typed offset type target) (store : Store)
    (rest : List (List Char)) : ∃ more,
      (Session.lines store (typed :: rest)).1 = Session.answer ((Command.compare offset type
        (.ofList (respaced target.toList))).run store).1 ++ more := by
  obtain ⟨offsetText, typeText, hedited, hoffset, htype⟩ := h
  rw [Session.lines, Session.line?, hedited, Option.map_some, String.ofList_toList, Session.obey,
    ofLine_compare hoffset htype]
  exact ⟨_, rfl⟩

namespace Run

variable {arguments session : List String} {asked : Arguments} {directory after : Directory}
  {printed : List String} {input : String}

/-- What is printed before a session, and in it, comes before its end. -/
theorem complete_of_reading (h : Run.begin session directory = .reading printed store after)
    (input : String) : (complete session directory input).directory = after ∧ ∃ more,
      (complete session directory input).lines =
        printed ++ (Session.lines store (linesOf input.toList)).1 ++ more := by
  rw [complete, h]
  simp only
  rcases Session.lines store (linesOf input.toList) with ⟨lines, _ | _⟩
  · exact ⟨rfl, [], (List.append_nil _).symm⟩
  · exact ⟨rfl, [Session.farewell], rfl⟩

/-- **A comparison that is typed.**  Two runs are asked for the same, but that one is
given a comparison as its command and the other reads it from its first line.  The
other compares with the text that is put together again from the words that were
typed.  If they had single spaces between them, that is the same text, and both come
to the same; if not, a stored text that is equal in the first run is not equal in the
other. -/
theorem compare_typed (hasked : Arguments.parse? arguments = some asked)
    (hcommand : asked.command? = some (.compare offset type target))
    (hsession : Arguments.parse? session = some { asked with command? := none })
    (hprepared : prepared asked directory = (printed, .ok after))
    (hopen : openStore asked after = .ok store)
    (hlines : linesOf input.toList = typed :: rest)
    (htyped : Session.Asks typed offset type target) : ∃ reply reply' : Reply,
      Run.begin arguments directory =
        .finished (finish (printed ++ reply.lines) reply.fault? after) ∧
      (complete session directory input).directory = after ∧
      (∃ more, (complete session directory input).lines =
        printed ++ [Session.greeting] ++ Session.answer reply' ++ more) ∧
      reply = ((Command.compare offset type target).run store).1 ∧
      reply' = ((Command.compare offset type (.ofList (respaced target.toList))).run store).1 ∧
      (EvenlySpaced target.toList → reply' = reply) ∧
      (type ∈ textTypes → reply = .equal → (reply' = .equal ↔ EvenlySpaced target.toList)) := by
  have hsame : String.ofList (respaced target.toList) = target ↔ EvenlySpaced target.toList := by
    rw [← Blank.respaced_eq_self_iff, ← String.toList_inj, String.toList_ofList]
  have hfirst : Run.begin arguments directory = .finished (finish
      (printed ++ ((Command.compare offset type target).run store).1.lines)
      ((Command.compare offset type target).run store).1.fault? after) := by
    rw [begin_of_prepared hasked hprepared, proceed, hopen, hcommand]
  have hother : Run.begin session directory =
      .reading (printed ++ [Session.greeting]) store after := by
    have hopened : openStore { asked with command? := none } after = .ok store := hopen
    rw [begin_of_prepared hsession hprepared, proceed, hopened]
  obtain ⟨hdirectory, rear, hread⟩ := complete_of_reading hother input
  obtain ⟨more, hanswer⟩ := Session.lines_of_asks htyped store rest
  refine ⟨_, _, hfirst, hdirectory, ⟨more ++ rear, ?_⟩, rfl, rfl, ?_, ?_⟩
  · rw [hread, hlines, hanswer]
    simp only [List.append_assoc]
  · intro heven
    rw [hsame.mpr heven]
  · intro htype hequal
    rw [compare_equal_iff htype hequal, hsame]

/-- A stored text whose words have single spaces between them is equal to itself in
both runs. -/
theorem compare_typed_single : ∃ directory,
    Run.begin ["s", "compare", "0", "string", "a b"] directory =
      .finished ⟨0, ["0"], "", directory⟩ ∧
    ∃ more, (complete ["s"] directory "compare 0 string a b\n").lines =
      [Session.greeting, "0"] ++ more := by
  have hasked : Arguments.parse? ["s", "compare", "0", "string", "a b"] =
      some ⟨"s", none, ⟨0, 0, 1⟩, some (.compare 0 .string "a b")⟩ := by decide +kernel
  have hsession : Arguments.parse? ["s"] = some ⟨"s", none, ⟨0, 0, 1⟩, none⟩ := by
    decide +kernel
  have hread : (Directory.holding [("s", [6, 0, 0, 0, 4, 0, 97, 32, 98, 0])]).read "s" =
      .ok [6, 0, 0, 0, 4, 0, 97, 32, 98, 0] := by cbv
  have hlines : linesOf "compare 0 string a b\n".toList = ["compare 0 string a b".toList] := by
    cbv
  have htyped : Session.Asks "compare 0 string a b".toList 0 .string "a b" :=
    ⟨"0", "string", Typing.edited_eq_self (by decide +kernel), by cbv, by cbv⟩
  obtain ⟨reply, reply', hbegin, -, ⟨more, hanswer⟩, rfl, -, heven, -⟩ :=
    compare_typed hasked rfl hsession rfl ((openStore_of_read hread).trans rfl) hlines htyped
  have hspaced : EvenlySpaced "a b".toList := Blank.respaced_eq_self_iff.mp (by cbv)
  rw [heven hspaced] at hanswer
  exact ⟨_, hbegin.trans (by cbv), more, hanswer.trans (by cbv)⟩

/-- **A blank more is not typed.**  A stored text with two spaces between its words
is equal to itself, but not in a session. -/
theorem compare_typed_double : ∃ directory,
    Run.begin ["s", "compare", "0", "string", "a  b"] directory =
      .finished ⟨0, ["0"], "", directory⟩ ∧
    complete ["s"] directory "compare 0 string a  b\n" =
      ⟨0, [Session.greeting, "-1", Session.farewell], "", directory⟩ := by
  refine ⟨.holding [("s", [7, 0, 0, 0, 5, 0, 97, 32, 32, 98, 0])], ?_, ?_⟩
  · cbv
  · cbv

end Run

end

end Shell

end RecordStore
