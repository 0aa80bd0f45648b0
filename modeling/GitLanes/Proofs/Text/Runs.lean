import GitLanes.Text.Blank
import Mathlib.Data.List.TakeWhile

namespace GitLanes

/-!
# Runs of characters

A text often falls into runs, each of one class of characters and as long as it
can be. A run ends where a character of another class stands, so there is only
one way to cut it off. The classes that matter to names and keywords are those
of ASCII, which are listed here character by character.
-/

/-- The letters of ASCII. -/
def asciiLetters : List Char :=
  "ABCDEFGHIJKLMNOPQRSTUVWXYZabcdefghijklmnopqrstuvwxyz".toList

/-- The digits of ASCII. -/
def asciiDigits : List Char :=
  "0123456789".toList

/-- The blanks of ASCII. -/
def asciiBlanks : List Char :=
  [' ', '\t', '\n', '\r', '\x0b', '\x0c']

section

variable
  {kind : Char → Bool}
  {run rest : List Char}
  (inRun : ∀ character ∈ run, kind character = true)
  (ends : ∀ next ∈ rest.head?, kind next = false)

include inRun ends

/-- A run is taken in full, and nothing behind it. -/
theorem takeWhile_run : (run ++ rest).takeWhile kind = run := by
  rw [List.takeWhile_append_of_pos inRun]
  cases rest with
  | nil =>
      exact List.append_nil run
  | cons next others =>
      rw [List.takeWhile_cons_of_neg (by simp [ends next rfl]), List.append_nil]

theorem dropWhile_run : (run ++ rest).dropWhile kind = rest := by
  rw [List.dropWhile_append_of_pos inRun]
  cases rest with
  | nil =>
      rfl
  | cons next others =>
      exact List.dropWhile_cons_of_neg (by simp [ends next rfl])

/-- A text starts with one run only. -/
theorem run_append_inj
    {otherRun otherRest : List Char}
    (inOtherRun : ∀ character ∈ otherRun, kind character = true)
    (otherEnds : ∀ next ∈ otherRest.head?, kind next = false)
    (same : run ++ rest = otherRun ++ otherRest) :
    run = otherRun ∧ rest = otherRest := by
  constructor
  · rw [← takeWhile_run inRun ends, same, takeWhile_run inOtherRun otherEnds]
  · rw [← dropWhile_run inRun ends, same, dropWhile_run inOtherRun otherEnds]

end

/-- What follows the longest run of a class starts with a character of another class. -/
theorem head?_dropWhile_eq_false
    {kind : Char → Bool}
    {text : List Char} :
    ∀ next ∈ (text.dropWhile kind).head?, kind next = false := by
  intro next starts
  have stopped := List.head?_dropWhile_not kind text
  rw [starts] at stopped
  exact stopped

/-- A class of characters is an alphabet if its codes are those of characters of the alphabet. -/
theorem iff_mem_of_codes
    {kind : Char → Bool}
    {alphabet : List Char}
    {codes : List Nat}
    (coded : ∀ character, kind character = true → character.toNat ∈ codes)
    (listed : codes.all fun code => alphabet.contains (.ofNat code))
    (ofKind : alphabet.all kind)
    (character : Char) :
    kind character = true ↔ character ∈ alphabet := by
  constructor
  · intro inKind
    have inAlphabet := List.all_eq_true.mp listed character.toNat (coded character inKind)
    rwa [Char.ofNat_toNat, List.contains_iff_mem] at inAlphabet
  · exact List.all_eq_true.mp ofKind character

/-- The letters are those of the alphabet in either case. -/
theorem isAlpha_iff_mem
    (character : Char) :
    character.isAlpha = true ↔ character ∈ asciiLetters := by
  have coded : ∀ letter : Char, letter.isAlpha = true →
      letter.toNat ∈ List.range' 65 26 ++ List.range' 97 26 := by
    intro letter isLetter
    delta Char.isAlpha Char.isUpper Char.isLower at isLetter
    simp only [Bool.or_eq_true, Bool.and_eq_true, decide_eq_true_eq, UInt32.le_iff_toNat_le,
      ge_iff_le] at isLetter
    change (65 ≤ letter.toNat ∧ letter.toNat ≤ 90) ∨
      (97 ≤ letter.toNat ∧ letter.toNat ≤ 122) at isLetter
    rw [List.mem_append, List.mem_range'_1, List.mem_range'_1]
    omega
  exact iff_mem_of_codes coded (by decide +kernel) (by decide +kernel) character

theorem isDigit_iff_mem
    (character : Char) :
    character.isDigit = true ↔ character ∈ asciiDigits := by
  have coded : ∀ digit : Char, digit.isDigit = true → digit.toNat ∈ List.range' 48 10 := by
    intro digit isDigit
    delta Char.isDigit at isDigit
    simp only [Bool.and_eq_true, decide_eq_true_eq, UInt32.le_iff_toNat_le, ge_iff_le] at isDigit
    change 48 ≤ digit.toNat ∧ digit.toNat ≤ 57 at isDigit
    rw [List.mem_range'_1]
    omega
  exact iff_mem_of_codes coded (by decide +kernel) (by decide +kernel) character

theorem isAsciiBlank_iff_mem
    (character : Char) :
    isAsciiBlank character = true ↔ character ∈ asciiBlanks := by
  have coded : ∀ blank : Char, isAsciiBlank blank = true → blank.toNat ∈ 32 :: List.range' 9 5 := by
    intro blank isBlank
    simp only [isAsciiBlank, CodeRanges.contains, List.any_cons, List.any_nil, Bool.or_eq_true,
      Bool.or_false, decide_eq_true_eq] at isBlank
    rw [List.mem_cons, List.mem_range'_1]
    omega
  exact iff_mem_of_codes coded (by decide) (by decide) character

end GitLanes
