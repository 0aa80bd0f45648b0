namespace GitLanes

/-!
# Resemblance of words

Two words resemble each other by the blocks that they share in order. The
longest common block is taken first, the earliest in the first word and then in
the second one if there are several, and then the parts on its left and on its
right are compared in the same way. The words resemble each other closely when
the shared characters make up three fifths of both.
-/

/-- A block that two words share: where it starts in each, and its length. -/
structure CommonBlock where
  leftStart : Nat
  rightStart : Nat
  length : Nat
  deriving Repr, DecidableEq

/-- The number of characters that two words share at their beginning. -/
def sharedBeginning : List Char → List Char → Nat
  | left :: lefts, right :: rights =>
      if left = right then sharedBeginning lefts rights + 1 else 0
  | _, _ => 0

/-- The longer of two blocks, and the first one if they are equally long. -/
def CommonBlock.longer (first second : CommonBlock) : CommonBlock :=
  if first.length < second.length then second else first

/-- The earliest of the longest blocks that two words share. -/
def longestBlock (left right : List Char) : CommonBlock :=
  let starts := (List.range left.length).flatMap fun leftStart =>
    (List.range right.length).map fun rightStart =>
      (⟨leftStart, rightStart,
        sharedBeginning (left.drop leftStart) (right.drop rightStart)⟩ : CommonBlock)
  starts.foldl CommonBlock.longer ⟨0, 0, 0⟩

/-- The number of characters in the blocks that two words share. -/
def sharedCharacters (left right : List Char) : Nat :=
  match longestBlock left right with
  | ⟨leftStart, rightStart, length⟩ =>
      if 0 < length ∧ leftStart < left.length then
        sharedCharacters (left.take leftStart) (right.take rightStart) + length +
          sharedCharacters (left.drop (leftStart + length)) (right.drop (rightStart + length))
      else
        0
termination_by left.length
decreasing_by
  all_goals
    simp only [List.length_take, List.length_drop]
    omega

/-- Whether the shared characters make up three fifths of two words. -/
def resembles (left right : List Char) : Bool :=
  decide (3 * (left.length + right.length) ≤ 10 * sharedCharacters left right)

/-- Whether the first word resembles a third one at least as much as the second does. -/
def resemblesMore (word first second : List Char) : Bool :=
  decide
    (sharedCharacters second word * (first.length + word.length) ≤
      sharedCharacters first word * (second.length + word.length))

/-- Up to three candidates that closely resemble a word, the closest first. -/
def closeMatches (word : List Char) (candidates : List (List Char)) : List (List Char) :=
  ((candidates.filter fun candidate => resembles candidate word).mergeSort
    (resemblesMore word)).take 3

end GitLanes
