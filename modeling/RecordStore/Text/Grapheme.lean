import RecordStore.Text.GraphemeBreak

/-!
# Clusters

A text is cut into clusters: the stretches that a reader takes for one
character each.  Whether a character stays with what is before it is decided
from its class and from the cluster so far.

`flatten_clusters` — nothing is lost, and nothing changes place.
-/

namespace RecordStore.Grapheme

open GraphemeBreak (ofChar)

/-- How far a run that a joiner may continue has come. -/
inductive Joining
  /-- There is none. -/
  | none
  /-- A pictograph, with what extends it. -/
  | pictograph
  /-- The same and a joiner. -/
  | joined
  deriving DecidableEq, Repr

/-- How far a conjunct has come. -/
inductive Conjunct
  /-- There is none. -/
  | none
  /-- A consonant, with what extends it. -/
  | consonant
  /-- The same, with a linker. -/
  | linked
  deriving DecidableEq, Repr

/-- What is known of the text before a place. -/
structure Context where
  /-- The class of the last character. -/
  last : GraphemeBreak
  /-- Whether the letters of regions just before the place are odd in
  number. -/
  oddRegionals : Bool
  /-- How far pictographs have come. -/
  joining : Joining
  /-- How far consonants have come. -/
  conjunct : Conjunct
  deriving DecidableEq, Repr

/-- How pictographs go on with a character. -/
def Joining.step (state : Joining) (next : GraphemeBreak) : Joining :=
  match state, next with
  | _, .pictograph => .pictograph
  | .pictograph, .extend => .pictograph
  | .pictograph, .linker => .pictograph
  | .pictograph, .nonJoiner => .pictograph
  | .pictograph, .joiner => .joined
  | _, _ => .none

/-- How consonants go on with a character. -/
def Conjunct.step (state : Conjunct) (next : GraphemeBreak) : Conjunct :=
  match state, next with
  | _, .consonant => .consonant
  | .none, _ => .none
  | _, .linker => .linked
  | state, .extend => state
  | state, .joiner => state
  | _, _ => .none

namespace Context

/-- The context at the start of a text that begins with a class. -/
def start (first : GraphemeBreak) : Context :=
  ⟨first, first = .regional, Joining.none.step first, Conjunct.none.step first⟩

/-- The context after another character. -/
def step (context : Context) (next : GraphemeBreak) : Context :=
  ⟨next, next = .regional && !(context.last = .regional && context.oddRegionals),
    context.joining.step next, context.conjunct.step next⟩

/-- Does a character stay with what is before it?  Controls stand alone, but
for a carriage return and its line feed; whatever extends stays; syllables,
conjuncts, joined pictographs and pairs of letters hold together. -/
def joins (context : Context) (next : GraphemeBreak) : Bool :=
  match context.last, next with
  | .carriageReturn, .lineFeed => true
  | .control, _ | .carriageReturn, _ | .lineFeed, _ => false
  | _, .control | _, .carriageReturn | _, .lineFeed => false
  | .leading, .leading | .leading, .vowel | .leading, .openSyllable
  | .leading, .closedSyllable => true
  | .openSyllable, .vowel | .openSyllable, .trailing | .vowel, .vowel
  | .vowel, .trailing => true
  | .closedSyllable, .trailing | .trailing, .trailing => true
  | _, .extend | _, .linker | _, .nonJoiner | _, .joiner | _, .spacing => true
  | .prepended, _ => true
  | _, .consonant => context.conjunct = .linked
  | _, .pictograph => context.joining = .joined
  | .regional, .regional => context.oddRegionals
  | _, _ => false

end Context

/-- The rest of the cluster that a text goes on with, and the clusters after
it. -/
def continued (context : Context) : List Char → List Char × List (List Char)
  | [] => ([], [])
  | c :: text =>
    let (more, others) := continued (context.step (ofChar c)) text
    if context.joins (ofChar c) then (c :: more, others) else ([], (c :: more) :: others)

/-- The clusters of a text. -/
def clusters : List Char → List (List Char)
  | [] => []
  | c :: text =>
    let (more, others) := continued (Context.start (ofChar c)) text
    (c :: more) :: others

theorem flatten_continued (context : Context) (text : List Char) :
    (continued context text).1 ++ (continued context text).2.flatten = text := by
  induction text generalizing context with
  | nil => rfl
  | cons c text ih =>
    have rest := ih (context.step (ofChar c))
    by_cases stays : context.joins (ofChar c) = true
    · simp [continued, stays, rest]
    · simp [continued, stays, rest]

/-- **Nothing is lost.**  The clusters put together are the text. -/
theorem flatten_clusters (text : List Char) : (clusters text).flatten = text := by
  cases text with
  | nil => rfl
  | cons c text => simp [clusters, flatten_continued]

end RecordStore.Grapheme
