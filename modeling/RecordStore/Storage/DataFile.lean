import RecordStore.Bytes
import RecordStore.StoreError

/-!
# The data file and handles on it

A data file is bytes, and a name that leads to it until the file is deleted.
A **handle** has a position of its own in the file; it goes on working when
the name is gone, and when the bytes change under it.

* `window?_patch` — bytes written over a file are what it has there;
  `window?_patch_of_disjoint` — elsewhere it has what it had;
* `window?_resize_eq_none_iff` — a file has the bytes up to its length;
* `readExactly_eq_window?` — a handle reads what is there now, or fails.
-/

namespace RecordStore

/-- A file with stored data. -/
structure DataFile where
  contents : Bytes
  /-- Whether its name still leads to it, so that it can be opened. -/
  named : Bool
  deriving DecidableEq, Repr

namespace DataFile

/-- Bytes written over what is at a position.  The file grows as needed, with
zeros before the position. -/
def patch (file : DataFile) (position : Nat) (bytes : Bytes) : DataFile :=
  let before := file.contents.take position
  let gap := List.replicate (position - file.contents.length) 0
  { file with contents := before ++ gap ++ bytes ++ file.contents.drop (position + bytes.length) }

/-- The file with a length, cut short or filled up with zeros. -/
def resize (file : DataFile) (length : Nat) : DataFile :=
  let kept := file.contents.take length
  { file with contents := kept ++ List.replicate (length - kept.length) 0 }

/-- The file without its name, and whether it had one. -/
def delete (file : DataFile) : Bool × DataFile :=
  (file.named, { file with named := false })

variable {file : DataFile} {position start count length : Nat} {bytes : Bytes}

/-- A byte is the one written last, or else the one before; zero where there
was none. -/
theorem getElem?_patch (file : DataFile) (position : Nat) (bytes : Bytes) (i : Nat) :
    (file.patch position bytes).contents[i]? =
      if i < position then some (file.contents[i]?.getD 0)
      else if i < position + bytes.length then bytes[i - position]?
      else file.contents[i]? := by
  simp only [patch, List.append_assoc, List.getElem?_append, List.length_take,
    List.length_replicate, List.getElem?_replicate, List.getElem?_drop, List.getElem?_take]
  grind

/-- **What is written over a file is there.** -/
theorem window?_patch (file : DataFile) (position : Nat) (bytes : Bytes) :
    Bytes.window? (file.patch position bytes).contents position bytes.length = some bytes := by
  have hbefore : (file.contents.take position ++
      List.replicate (position - file.contents.length) 0).length = position := by
    rw [List.length_append, List.length_take, List.length_replicate]
    omega
  have hlength : position + bytes.length ≤ (file.patch position bytes).contents.length := by
    simp only [patch, List.length_append] at hbefore ⊢
    omega
  rw [Bytes.window?, if_pos hlength]
  simp only [patch]
  rw [List.append_assoc, List.drop_left' hbefore, List.take_left]

/-- **Writing touches nothing else**, neither before it nor behind it. -/
theorem window?_patch_of_disjoint (hpos : 0 < count)
    (h : start + count ≤ position ∧ start + count ≤ file.contents.length ∨
      position + bytes.length ≤ start) :
    Bytes.window? (file.patch position bytes).contents start count =
      Bytes.window? file.contents start count := by
  apply Bytes.window?_congr hpos
  intro i hlow hhigh
  rw [getElem?_patch]
  rcases h with ⟨hbefore, hinside⟩ | hbehind
  · have hi : i < file.contents.length := by omega
    rw [if_pos (by omega), List.getElem?_eq_getElem hi, Option.getD_some]
  · rw [if_neg (by omega), if_neg (by omega)]

theorem getElem?_resize (file : DataFile) (length i : Nat) :
    (file.resize length).contents[i]? =
      if i < length then some (file.contents[i]?.getD 0) else none := by
  simp only [resize, List.getElem?_append, List.length_take, List.getElem?_replicate,
    List.getElem?_take]
  grind

@[simp] theorem length_resize (file : DataFile) (length : Nat) :
    (file.resize length).contents.length = length := by
  simp only [resize, List.length_append, List.length_replicate, List.length_take]
  omega

/-- **A file has the bytes up to its length**, and none behind it. -/
theorem window?_resize_eq_none_iff :
    Bytes.window? (file.resize length).contents start count = none ↔ length < start + count := by
  rw [Bytes.window?, length_resize]
  split <;> simp <;> omega

/-- What a file has of its bytes after its length changed is what it had. -/
theorem window?_resize (hpos : 0 < count) (hkept : start + count ≤ length)
    (hinside : start + count ≤ file.contents.length) :
    Bytes.window? (file.resize length).contents start count =
      Bytes.window? file.contents start count := by
  apply Bytes.window?_congr hpos
  intro i hlow hhigh
  have hi : i < file.contents.length := by omega
  rw [getElem?_resize, if_pos (by omega), List.getElem?_eq_getElem hi, Option.getD_some]

end DataFile

/-- An open file with a position in it. -/
structure Handle where
  /-- Which of the handles ever opened this is. -/
  id : Nat
  /-- Where the next read starts. -/
  position : Nat
  deriving DecidableEq, Repr

namespace Handle

/-- Positions from here on are none that a file can have. -/
def positionLimit : Nat := 9223372036854775808

/-- Moves to a position, which may be past the end of the file. -/
def seek (handle : Handle) (position : Nat) : Except StoreError Handle :=
  if position < positionLimit then .ok { handle with position } else .error .seekFailed

/-- Reads at most `count` bytes, fewer at the end of the file, and moves past
them. -/
def read (handle : Handle) (file : DataFile) (count : Nat) : Bytes × Handle :=
  let bytes := (file.contents.drop handle.position).take count
  (bytes, { handle with position := handle.position + bytes.length })

/-- Reads exactly `count` bytes. -/
def readExactly (handle : Handle) (file : DataFile) (count : Nat) :
    Except StoreError Bytes × Handle :=
  let (bytes, handle) := handle.read file count
  (if bytes.length = count then .ok bytes else .error .readFailed, handle)

/-- **A handle reads what is there now**: the window at its position, if the
file has all of it. -/
theorem readExactly_eq_window? {handle : Handle} {file : DataFile} {count : Nat}
    (hpos : 0 < count) : (handle.readExactly file count).1 =
      match Bytes.window? file.contents handle.position count with
      | some bytes => .ok bytes
      | none => .error .readFailed := by
  simp only [readExactly, read, Bytes.window?, List.length_take, List.length_drop]
  by_cases hinside : handle.position + count ≤ file.contents.length
  · rw [if_pos hinside, if_pos (by omega)]
  · rw [if_neg hinside, if_neg (by omega)]

end Handle

end RecordStore
