import StepReplay.Deflate.Bits

set_option autoImplicit false

/-! # Prefix codes

A block names a code by the length of each symbol's word alone. Words of one length come in the
order of their symbols and in front of all longer words, so the tree of the code is built level by
level from below: the nodes of a level are its words, followed by the nodes of the next level
joined in pairs. No word is ever written out as a number. -/

namespace StepReplay.Deflate

/-- A code as a tree: a zero bit leads to the first branch and a one bit to the second. -/
inductive Code where
  | unused
  | leaf (symbol : Nat)
  | node (zero one : Code)
  deriving Repr

namespace Code

/-- The longest word of a code. -/
def maxLength : Nat := 15

/-- The symbols with words of the given length, in order, as leaves. -/
def leaves (lengths : List Nat) (length : Nat) : List Code :=
  (lengths.zipIdx.filter fun (l, _) => l = length).map fun (_, symbol) => leaf symbol

/-- Neighbours joined in pairs; a last one alone is joined with an unused branch. -/
def joinPairs : List Code → List Code
  | [] => []
  | [c] => [node c unused]
  | c :: d :: rest => node c d :: joinPairs rest

/-- The nodes of the first level of a code. -/
def firstLevel (lengths : List Nat) : List Code :=
  (List.range' 1 maxLength).foldr (fun length below => leaves lengths length ++ joinPairs below) []

/-- The tree of a code. -/
def tree (lengths : List Nat) : Code :=
  (joinPairs (firstLevel lengths)).headD (node unused unused)

/-- The share of all words of the greatest length that the words of a code begin. -/
def weight (lengths : List Nat) : Nat :=
  ((lengths.filter (0 < ·)).map fun l => 1 <<< (maxLength - l)).foldl (· + ·) 0

/-- The weight of a code that leaves no word unused. -/
def fullWeight : Nat := 1 <<< maxLength

/-- The code with words of the given lengths. It must be complete, unless it has no word at all or
a single word of one bit. -/
def ofLengths? (lengths : List Nat) : Option Code :=
  let longest := lengths.foldl max 0
  if longest = 0 ∨ weight lengths = fullWeight
      ∨ (longest = 1 ∧ weight lengths < fullWeight) then some (tree lengths)
  else none

/-- The code of the lengths themselves, which must be complete. Without any word every bit stands
for symbol zero. -/
def ofLengthLengths? (lengths : List Nat) : Option Code :=
  if lengths.all (· = 0) then some (node (leaf 0) (leaf 0))
  else if weight lengths = fullWeight then some (tree lengths)
  else none

/-- The next symbol of a stream; a word that the code leaves unused is the given fault. -/
def read (fault : Fault) : Code → Reader Nat
  | unused => throw fault
  | leaf symbol => return symbol
  | node zero one => do
    if ← Reader.bit then one.read fault else zero.read fault

end Code

end StepReplay.Deflate
