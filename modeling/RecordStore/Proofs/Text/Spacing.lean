import Mathlib
import RecordStore.Text.Blank

/-!
# Texts put together again from their words

A text that is cut into words at its blanks can be put together again, with one
space between the words (`respaced`).  What blanks there were is lost: it is the
same text exactly if it was `EvenlySpaced` before (`respaced_eq_self_iff`).
-/

namespace RecordStore.Blank

variable {c : Char} {word rest text : List Char}

/-! ## Words -/

/-- Some characters, none of them blank. -/
structure IsWord (word : List Char) : Prop where
  nonempty : word ≠ []
  solid : ∀ c ∈ word, isBlank c = false

/-- A word goes on with a character that is not blank. -/
theorem IsWord.append_singleton (h : IsWord word) (hc : isBlank c = false) :
    IsWord (word ++ [c]) where
  nonempty := List.append_ne_nil_of_right_ne_nil word (List.cons_ne_nil c [])
  solid := List.forall_mem_append.mpr ⟨h.solid, List.forall_mem_singleton.mpr hc⟩

/-- Texts are made of words and blanks: a text is empty, or begins with a blank, or
is a word, or begins with a word and a blank. -/
theorem wordwise {motive : List Char → Prop} (nil : motive [])
    (blank : ∀ c rest, isBlank c = true → motive rest → motive (c :: rest))
    (last : ∀ word, IsWord word → motive word)
    (next : ∀ word c rest, IsWord word → isBlank c = true → motive rest →
      motive (word ++ c :: rest)) (text : List Char) : motive text := by
  -- What follows a word that was begun may go on with it, so the induction is also for that.
  have hboth : motive text ∧ ∀ word, IsWord word → motive (word ++ text) := by
    induction text with
    | nil => exact ⟨nil, fun word hword => by rw [List.append_nil]; exact last word hword⟩
    | cons c rest ih =>
        obtain ⟨hrest, hlonger⟩ := ih
        cases hc : isBlank c with
        | true => exact ⟨blank c rest hc hrest, fun word hword => next word c rest hword hc hrest⟩
        | false =>
            refine ⟨hlonger [c] ⟨List.cons_ne_nil c [], List.forall_mem_singleton.mpr hc⟩, ?_⟩
            intro word hword
            rw [List.append_cons]
            exact hlonger _ (hword.append_singleton hc)
  exact hboth.1

theorem words_blank (h : isBlank c = true) : words (c :: rest) = words rest := by
  rw [words, if_pos h]

/-- **A word is taken off a text** up to the blank after it. -/
theorem words_append (h : IsWord word) (hrest : ∀ c ∈ rest.head?, isBlank c = true) :
    words (word ++ rest) = word :: words rest := by
  obtain ⟨hnonempty, hsolid⟩ := h
  cases word with
  | nil => exact absurd rfl hnonempty
  | cons a word =>
      obtain ⟨ha, hword⟩ := List.forall_mem_cons.mp hsolid
      have hnot : ∀ c ∈ word, (!isBlank c) = true := by
        intro c hc
        rw [hword c hc, Bool.not_false]
      rw [List.cons_append, words, if_neg (ne_true_of_eq_false ha),
        List.takeWhile_append_of_pos hnot, List.dropWhile_append_of_pos hnot]
      cases rest with
      | nil => rw [List.takeWhile_nil, List.dropWhile_nil, List.append_nil]
      | cons c rest =>
          have hc : ¬ (!isBlank c) = true := by
            rw [hrest c rfl]
            decide
          rw [List.takeWhile_cons_of_neg (p := (!isBlank ·)) hc,
            List.dropWhile_cons_of_neg (p := (!isBlank ·)) hc, List.append_nil]

theorem words_append_blank (h : IsWord word) (hc : isBlank c = true) :
    words (word ++ c :: rest) = word :: words rest := by
  have hhead : ∀ a ∈ (c :: rest).head?, isBlank a = true := by
    intro a ha
    obtain rfl : c = a := Option.some.inj ha
    exact hc
  rw [words_append h hhead, words_blank hc]

theorem words_of_isWord (h : IsWord word) : words word = [word] := by
  have hwhole : words (word ++ []) = word :: words [] := words_append h nofun
  rwa [List.append_nil, words] at hwhole

/-! ## Spaces -/

/-- A text put together again from its words, with one space between them. -/
def respaced (text : List Char) : List Char :=
  [' '].intercalate (words text)

/-- A text with nothing but single spaces between its words: no blank at either end,
no blank but the space, and no two of them next to each other. -/
structure EvenlySpaced (text : List Char) : Prop where
  starts : ∀ c ∈ text.head?, isBlank c = false
  ends : ∀ c ∈ text.getLast?, isBlank c = false
  spaces : ∀ c ∈ text, isBlank c = true → c = ' '
  single : text.IsChain fun c next => isBlank c = false ∨ isBlank next = false

theorem respaced_nil : respaced [] = [] := by
  rw [respaced, words, List.intercalate_nil]

theorem respaced_blank (h : isBlank c = true) : respaced (c :: rest) = respaced rest := by
  rw [respaced, words_blank h, respaced]

theorem respaced_of_isWord (h : IsWord word) : respaced word = word := by
  rw [respaced, words_of_isWord h, List.intercalate_singleton]

/-- There is no space after the last word. -/
theorem respaced_append_blank (h : IsWord word) (hc : isBlank c = true) :
    respaced (word ++ c :: rest) =
      if words rest = [] then word else word ++ ' ' :: respaced rest := by
  rw [respaced, words_append_blank h hc]
  split
  · next hnone => rw [hnone, List.intercalate_singleton]
  · next hsome =>
      rw [respaced, List.intercalate_cons_of_ne_nil hsome]
      simp

theorem respaced_eq_nil_iff : respaced text = [] ↔ words text = [] := by
  induction text using wordwise with
  | nil => simp [respaced_nil, words]
  | blank c rest hc ih => rw [respaced_blank hc, words_blank hc, ih]
  | last word hword => simp [respaced_of_isWord hword, words_of_isWord hword, hword.nonempty]
  | next word c rest hword hc _ =>
      rw [respaced_append_blank hword hc, words_append_blank hword hc]
      split <;> simp [hword.nonempty]

theorem evenlySpaced_nil : EvenlySpaced [] :=
  ⟨nofun, nofun, nofun, .nil⟩

theorem evenlySpaced_of_isWord (h : IsWord word) : EvenlySpaced word where
  starts := fun c hc => h.solid c (List.mem_of_mem_head? hc)
  ends := fun c hc => h.solid c (List.mem_of_mem_getLast? hc)
  spaces := fun c hc hblank => absurd hblank (ne_true_of_eq_false (h.solid c hc))
  single := (List.pairwise_of_forall_mem_list fun c hc _ _ => .inl (h.solid c hc)).isChain

/-- A word with a blank after it has more after that, and the blank is a space. -/
theorem evenlySpaced_append_blank_iff (h : IsWord word) (hc : isBlank c = true) :
    EvenlySpaced (word ++ c :: rest) ↔ c = ' ' ∧ rest ≠ [] ∧ EvenlySpaced rest := by
  have hword := evenlySpaced_of_isWord h
  have hends : rest ≠ [] → (word ++ c :: rest).getLast? = rest.getLast? := by
    intro hrest
    rw [List.getLast?_append_of_ne_nil word (List.cons_ne_nil c rest), ← List.singleton_append,
      List.getLast?_append_of_ne_nil [c] hrest]
  have hstarts : (word ++ c :: rest).head? = word.head? :=
    List.head?_append_of_ne_nil word h.nonempty
  constructor
  · intro heven
    obtain ⟨-, hafter, -⟩ := List.isChain_append.mp heven.single
    obtain ⟨hnext, hrest⟩ := List.isChain_cons.mp hafter
    have hnonempty : rest ≠ [] := by
      rintro rfl
      have hlast : c ∈ (word ++ [c]).getLast? := List.getLast?_concat
      exact absurd hc (ne_true_of_eq_false (heven.ends c hlast))
    refine ⟨heven.spaces c (List.mem_append_right word List.mem_cons_self) hc, hnonempty, ?_⟩
    exact {
      starts := fun a ha => (hnext a ha).resolve_left (ne_false_of_eq_true hc)
      ends := fun a ha => heven.ends a (by rwa [hends hnonempty])
      spaces := fun a ha => heven.spaces a (List.mem_append_right word (List.mem_cons_of_mem c ha))
      single := hrest }
  · rintro ⟨rfl, hnonempty, heven⟩
    exact {
      starts := by rw [hstarts]; exact hword.starts
      ends := by rw [hends hnonempty]; exact heven.ends
      spaces := List.forall_mem_append.mpr ⟨hword.spaces,
        List.forall_mem_cons.mpr ⟨fun _ => rfl, heven.spaces⟩⟩
      single := List.isChain_append.mpr ⟨hword.single,
        List.isChain_cons.mpr ⟨fun a ha => .inr (heven.starts a ha), heven.single⟩,
        fun a ha _ _ => .inl (hword.ends a ha)⟩ }

/-- What is put together is evenly spaced. -/
theorem evenlySpaced_respaced (text : List Char) : EvenlySpaced (respaced text) := by
  induction text using wordwise with
  | nil =>
      rw [respaced_nil]
      exact evenlySpaced_nil
  | blank c rest hc ih => rwa [respaced_blank hc]
  | last word hword =>
      rw [respaced_of_isWord hword]
      exact evenlySpaced_of_isWord hword
  | next word c rest hword hc ih =>
      rw [respaced_append_blank hword hc]
      split
      · exact evenlySpaced_of_isWord hword
      · next hmore =>
          rw [evenlySpaced_append_blank_iff hword (by decide)]
          exact ⟨rfl, mt respaced_eq_nil_iff.mp hmore, ih⟩

/-- **What is put together again is the same** exactly if it was evenly spaced. -/
theorem respaced_eq_self_iff : respaced text = text ↔ EvenlySpaced text := by
  refine ⟨fun hsame => hsame ▸ evenlySpaced_respaced text, ?_⟩
  induction text using wordwise with
  | nil => exact fun _ => respaced_nil
  | blank c rest hc _ =>
      intro heven
      exact absurd (heven.starts c rfl) (ne_false_of_eq_true hc)
  | last word hword => exact fun _ => respaced_of_isWord hword
  | next word c rest hword hc ih =>
      intro heven
      obtain ⟨rfl, hnonempty, hrest⟩ := (evenlySpaced_append_blank_iff hword hc).mp heven
      have hsame := ih hrest
      have hmore : words rest ≠ [] := by
        rw [Ne, ← respaced_eq_nil_iff, hsame]
        exact hnonempty
      rw [respaced_append_blank hword hc, if_neg hmore, hsame]

end RecordStore.Blank
