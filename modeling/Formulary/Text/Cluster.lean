import Formulary.Text.Cluster.Class

/-! # Clusters

A cluster is what a reader takes for one character: a letter with its marks, a syllable, a flag, a
composed pictograph. A text falls apart into clusters in one pass, which remembers what the
characters so far leave open. Main statement: the clusters, one after the other, are the text. -/

namespace Formulary.Text.Cluster

/-- A sequence of pictographs that may go on. -/
inductive Sequence where
  | none
  /-- Last stands a pictograph with what extends it. -/
  | pictograph
  /-- After that stands a joiner. -/
  | joined
deriving DecidableEq, Repr

/-- A conjunct of consonants that may go on. -/
inductive Conjunct where
  | none
  /-- Last stands a consonant with what extends it. -/
  | consonant
  /-- At least one linker is among that. -/
  | linked
deriving DecidableEq, Repr

/-- What the characters so far leave open. -/
structure Open where
  last : Class
  /-- A regional letter stands last that has no partner. -/
  unpaired : Bool := false
  sequence : Sequence := .none
  conjunct : Conjunct := .none
deriving DecidableEq, Repr

def Sequence.after (s : Sequence) : Class → Sequence
  | .pictograph => .pictograph
  | .extending | .linker | .nonJoiner => if s = .pictograph then .pictograph else .none
  | .joiner => if s = .pictograph then .joined else .none
  | _ => .none

def Conjunct.after (j : Conjunct) : Class → Conjunct
  | .consonant => .consonant
  | .linker => if j = .none then .none else .linked
  | .extending | .joiner => j
  | _ => .none

namespace Open

def start (c : Class) : Open where
  last := c
  unpaired := c == .regional
  sequence := Sequence.none.after c
  conjunct := Conjunct.none.after c

def after (o : Open) (c : Class) : Open where
  last := c
  unpaired := c == .regional && !o.unpaired
  sequence := o.sequence.after c
  conjunct := o.conjunct.after c

/-- Whether the last letter and the next belong to one syllable. -/
def sharesSyllable : Class → Class → Bool
  | .leading, .leading | .leading, .vowel | .leading, .openSyllable | .leading, .closedSyllable
  | .openSyllable, .vowel | .openSyllable, .trailing | .vowel, .vowel | .vowel, .trailing
  | .closedSyllable, .trailing | .trailing, .trailing => true
  | _, _ => false

/-- Whether a character of class `c` goes on the cluster. -/
def joins (o : Open) (c : Class) : Bool :=
  if o.last.isApart || c.isApart then o.last == .carriageReturn && c == .lineFeed
  else
    c.isTrailing || o.last == .prepended || sharesSyllable o.last c ||
      (c == .regional && o.unpaired) ||
      (c == .pictograph && o.sequence == .joined) ||
      (c == .consonant && o.conjunct == .linked)

end Open

/-- The clusters of a text that goes on a cluster; `back` is that cluster in reverse. -/
def splitFrom (o : Open) (back : List Char) : List Char → List (List Char)
  | [] => [back.reverse]
  | c :: cs =>
      let k := Class.ofChar c
      if o.joins k then splitFrom (o.after k) (c :: back) cs
      else back.reverse :: splitFrom (o.after k) [c] cs

/-- The clusters of a text. -/
def split : List Char → List (List Char)
  | [] => []
  | c :: cs => splitFrom (Open.start (Class.ofChar c)) [c] cs

theorem flatten_splitFrom (o : Open) (back cs : List Char) :
    (splitFrom o back cs).flatten = back.reverse ++ cs := by
  induction cs generalizing o back with
  | nil => simp [splitFrom]
  | cons c cs ih =>
    rw [splitFrom]
    split
    · simp [ih]
    · simp [ih]

theorem flatten_split (cs : List Char) : (split cs).flatten = cs := by
  cases cs with
  | nil => rfl
  | cons c cs => simp [split, flatten_splitFrom]

end Formulary.Text.Cluster
