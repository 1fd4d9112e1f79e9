import StepReplay.Text

set_option autoImplicit false

/-! # Similarity of texts

How alike two texts are is measured by what they share: the longest stretch that is in both, and
then, in the same way, what they share before it and what they share behind it. A spelling that
is not known is answered with those known ones that are most like it. -/

namespace StepReplay.Text

/-- A stretch that is in two texts: where it starts in each, and how long it is. -/
structure Stretch where
  first : Nat := 0
  second : Nat := 0
  length : Nat := 0

/-- How many code points two texts have in common at their starts. -/
def sharedStart : Text → Text → Nat
  | c :: s, d :: t => if c = d then sharedStart s t + 1 else 0
  | _, _ => 0

/-- The longest stretch in two texts; of several the one that starts first. -/
def longestShared (s t : Text) : Stretch :=
  (List.range s.length).foldl (fun best i =>
    (List.range t.length).foldl (fun best j =>
      let length := sharedStart (s.drop i) (t.drop j)
      if best.length < length then ⟨i, j, length⟩ else best) best) {}

/-- How many code points two texts share in all; `fuel` bounds the cuts. -/
def sharedWithin : Nat → Text → Text → Nat
  | 0, _, _ => 0
  | fuel + 1, s, t =>
    let found := longestShared s t
    if found.length = 0 then 0
    else
      let before := sharedWithin fuel (s.take found.first) (t.take found.second)
      let behind := sharedWithin fuel (s.drop (found.first + found.length))
        (t.drop (found.second + found.length))
      before + found.length + behind

/-- How many code points two texts share in all. -/
def shared (s t : Text) : Nat :=
  sharedWithin (s.length + 1) s t

/-- Whether two texts share at least three fifths of what they hold. -/
def isLike (s t : Text) : Bool :=
  3 * (s.length + t.length) ≤ 10 * shared s t

/-- Whether a text is more like a third one than another is; of two equally alike ones the later
in the order of texts comes first. -/
def isCloser (t a b : Text) : Bool :=
  let left := shared a t * (b.length + t.length)
  let right := shared b t * (a.length + t.length)
  right < left || (left == right && b.precedes a)

/-- The most suggestions that are made. -/
def suggestionLimit : Nat := 3

/-- The texts that are most like a text, best first. -/
def closest (t : Text) (known : List Text) : List Text :=
  ((known.filter fun k => isLike k t).mergeSort (isCloser t)).take suggestionLimit

end StepReplay.Text
