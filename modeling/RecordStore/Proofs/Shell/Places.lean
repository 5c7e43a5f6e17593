import Mathlib
import RecordStore.Proofs.Collection.Streaming
import RecordStore.Shell.Directory

/-!
# What is written to a path is read from it

A file is put at the place that a path leads to, without what follows the last
name in it; it is looked for at the place that all of the path leads to.  That
is the same place: a path that can be written to does not end in a slash, so
its last name is not empty (`names_eq`), and a file takes no folder's place, so
the way to it is not barred (`follow_put`).

`read_of_write`: from a path that was written to, one reads what was written,
or nothing if the path leads to a file that forgets what is written.
-/

namespace RecordStore.Shell

/-! ## The names of a path -/

open String in
/-- What is left of a text is cut at its slashes, and the word that was begun
goes on. -/
theorem splitOnAux_slash (front word rest : List Char) (done : List String) :
    splitOnAux (ofList (front ++ word ++ rest)) "/" ⟨utf8Len front⟩
        ⟨utf8Len front + utf8Len word⟩ 0 done =
      done.reverse ++ (List.splitOnPPrepend (· == '/') rest word.reverse).map ofList := by
  induction rest generalizing front word done with
  | nil =>
      have hend := (atEnd_of_valid (front ++ word) []).mpr rfl
      rw [utf8Len_append] at hend
      unfold splitOnAux
      rw [if_pos hend, extract_of_valid front word []]
      simp
  | cons c rest ih =>
      have hend := mt (atEnd_of_valid (front ++ word) (c :: rest)).mp (List.cons_ne_nil c rest)
      have hget := get_of_valid (front ++ word) (c :: rest)
      have hnext := next_of_valid (front ++ word) c rest
      have hextract := extract_of_valid front word (c :: rest)
      have hslash : Pos.Raw.get "/" 0 = '/' := by decide
      have hone : Pos.Raw.next "/" 0 = ⟨1⟩ := by decide
      have hwhole : Pos.Raw.atEnd "/" ⟨1⟩ = true := by decide
      rw [utf8Len_append] at hend hget hnext
      unfold splitOnAux
      rw [if_neg hend, hget, hslash, hnext, hone, if_pos hwhole]
      by_cases hc : c = '/'
      · subst hc
        have hback : (⟨utf8Len front + utf8Len word + Char.utf8Size '/'⟩ : Pos.Raw).unoffsetBy ⟨1⟩ =
            ⟨utf8Len front + utf8Len word⟩ := rfl
        have hrest := ih (front ++ word ++ ['/']) [] (ofList word :: done)
        rw [hback, hextract]
        simpa [List.splitOnPPrepend_cons_eq_if, Nat.add_assoc] using hrest
      · have hstay : (⟨utf8Len front + utf8Len word⟩ : Pos.Raw).unoffsetBy 0 =
            ⟨utf8Len front + utf8Len word⟩ := rfl
        have hrest := ih front (word ++ [c]) done
        rw [hstay, hnext]
        simpa [List.splitOnPPrepend_cons_eq_if, hc, Nat.add_assoc] using hrest

theorem splitOn_slash (path : String) :
    path.splitOn "/" = (path.toList.splitOn '/').map String.ofList := by
  simpa [String.splitOn, List.splitOn] using splitOnAux_slash [] [] path.toList []

theorem endsWith_slash_iff (path : String) : path.endsWith "/" ↔ ['/'] <:+ path.toList := by
  rw [String.endsWith_eq_endsWith_toSlice, String.Slice.endsWith_string_iff, String.copy_toSlice]
  rfl

/-- If words end in an empty one, what they make up ends in a slash. -/
theorem suffix_intercalate {words : List (List Char)} (h : words ≠ []) :
    ['/'] <:+ ['/'].intercalate (words ++ [[]]) := by
  induction words with
  | nil => exact absurd rfl h
  | cons word words ih =>
      rw [List.cons_append, List.intercalate_cons_of_ne_nil (by simp)]
      cases words with
      | nil => simp
      | cons => exact (ih (List.cons_ne_nil _ _)).trans (List.suffix_append _ _)

/-- **The last name of a path** is not empty, unless a slash or nothing is before
the end of the path. -/
theorem names_eq {path : String} (hpath : path ≠ "") (hslash : ¬ path.endsWith "/") :
    ((path.splitOn "/").reverse.dropWhile (· = "")).reverse = path.splitOn "/" := by
  rw [endsWith_slash_iff] at hslash
  rw [splitOn_slash]
  rcases List.eq_nil_or_concat (path.toList.splitOn '/') with hnil | ⟨words, last, hsplit⟩
  · exact absurd hnil (List.splitOn_ne_nil '/' path.toList)
  · rw [List.concat_eq_append] at hsplit
    rw [hsplit]
    have hlast : last ≠ [] := by
      rintro rfl
      have hwhole : ['/'].intercalate (path.toList.splitOn '/') = path.toList :=
        List.intercalate_splitOn '/'
      rw [hsplit] at hwhole
      by_cases hwords : words = []
      · rw [hwords] at hwhole
        exact hpath (String.toList_eq_nil_iff.mp hwhole.symm)
      · exact hslash (hwhole ▸ suffix_intercalate hwords)
    have hname : String.ofList last ≠ "" := by
      intro hempty
      exact hlast (by simpa using hempty)
    simp [hname]

namespace Directory

variable {directory after : Directory} {place other folder found : Place} {entry : Entry}
  {names : List String} {path : String} {contents : Bytes}

/-! ## Entries -/

theorem lookup_filter_of_ne {entries : List (Place × Entry)} (h : other ≠ place) :
    (entries.filter fun entry => entry.1 != place).lookup other = entries.lookup other := by
  induction entries with
  | nil => rfl
  | cons first entries ih =>
      obtain ⟨at_, what⟩ := first
      by_cases hat : at_ = place
      · subst hat
        rw [List.filter_cons_of_neg (by simp), ih, List.lookup_cons,
          beq_eq_false_iff_ne.mpr h]
      · rw [List.filter_cons_of_pos (by simpa using hat), List.lookup_cons, List.lookup_cons, ih]

/-- What is at other places stays as it is. -/
theorem entry?_put_of_ne (h : other ≠ place) :
    Directory.entry? (directory.put place entry) other = directory.entry? other := by
  unfold entry? put
  split
  · rfl
  · rw [List.lookup_cons, beq_eq_false_iff_ne.mpr h]
    exact lookup_filter_of_ne h

theorem entry?_put_self (h : directory.entry? place ≠ some .folder) :
    Directory.entry? (directory.put place entry) place = some entry := by
  unfold entry? at h ⊢
  split at h
  · exact absurd rfl h
  · next houter =>
      rw [if_neg houter]
      exact List.lookup_cons_self

/-! ## The way to a place -/

/-- **What is put in the place of no folder bars no way.** -/
theorem follow_put (hplace : directory.entry? place ≠ some .folder)
    (h : directory.follow folder names = .ok found) :
    (directory.put place entry).follow folder names = .ok found := by
  induction names generalizing folder with
  | nil => exact h
  | cons name names ih =>
      unfold follow at h ⊢
      split at h
      · next hstay =>
          rw [if_pos hstay]
          exact ih h
      · next hstay =>
          rw [if_neg hstay]
          split at h
          · next hout =>
              rw [if_pos hout]
              exact ih h
          · next hout =>
              rw [if_neg hout]
              split at h
              · cases h
              · next hlong =>
                  rw [if_neg hlong]
                  cases names with
                  | nil => exact h
                  | cons next names =>
                      rcases hentry : directory.entry? (name :: folder) with _ | _ | _ | _ <;>
                        rw [hentry] at h
                      · cases h
                      · have hne : name :: folder ≠ place := by
                          rintro rfl
                          exact hplace hentry
                        rw [entry?_put_of_ne hne, hentry]
                        exact ih h
                      · cases h
                      · cases h

theorem placeOf_put (hplace : directory.entry? place ≠ some .folder)
    (h : directory.placeOf path names = .ok found) :
    (directory.put place entry).placeOf path names = .ok found := by
  unfold placeOf at h ⊢
  split at h
  · cases h
  · next hpath =>
      rw [if_neg hpath]
      split at h
      · cases h
      · next hlong =>
          rw [if_neg hlong]
          exact follow_put hplace h

/-! ## Files -/

/-- What writing to a path does: it leads to no folder, and a file is put there
unless what is written is forgotten. -/
theorem write_eq_ok (h : directory.write path contents = .ok after) :
    ∃ place, directory.placeOf path (path.splitOn "/") = .ok place ∧
      directory.entry? place ≠ some .folder ∧
        ((directory.entry? place = some .sink ∧ after = directory) ∨
          after = directory.put place (.file contents)) := by
  unfold write at h
  obtain ⟨place, hplace, hrest⟩ := bind_eq_ok_iff.mp h
  have hpath : path ≠ "" := by
    rintro rfl
    cases hplace
  by_cases hslash : path.endsWith "/"
  · rw [if_pos hslash] at hrest
    cases hrest
  · rw [if_neg hslash] at hrest
    rw [names_eq hpath hslash] at hplace
    refine ⟨place, hplace, ?_⟩
    rcases hentry : directory.entry? place with _ | _ | _ | _ <;> rw [hentry] at hrest
    · exact ⟨nofun, .inr (Except.ok.inj hrest).symm⟩
    · cases hrest
    · exact ⟨nofun, .inr (Except.ok.inj hrest).symm⟩
    · exact ⟨nofun, .inl ⟨rfl, (Except.ok.inj hrest).symm⟩⟩

/-- **What is written to a path is read from it**, unless the path leads to a
file that forgets it. -/
theorem read_of_write (h : directory.write path contents = .ok after)
    (hkept : directory.find path ≠ .ok .sink) : after.read path = .ok contents := by
  obtain ⟨place, hplace, hfolder, ⟨hsink, -⟩ | rfl⟩ := write_eq_ok h
  · refine absurd ?_ hkept
    unfold find
    rw [hplace]
    simp only [bind, Except.bind, hsink]
    rfl
  · unfold read find
    rw [placeOf_put hfolder hplace]
    simp only [bind, Except.bind, entry?_put_self hfolder]
    rfl

end Directory

end RecordStore.Shell
