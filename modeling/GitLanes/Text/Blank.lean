namespace GitLanes

/-!
# Blank characters

Source text is trimmed with the blanks of Unicode, which include the line
separators of several standards but neither the zero-width characters nor the
byte-order mark. The names of branches are set off by the blanks of ASCII only.

The main statements say that trimming leaves text whose two ends are not blank
and that it leaves such text alone.
-/

/-- A set of characters as inclusive ranges of code points. -/
abbrev CodeRanges := List (Nat × Nat)

/-- Whether some range holds the code point of a character. -/
def CodeRanges.contains (ranges : CodeRanges) (character : Char) : Bool :=
  ranges.any fun range =>
    decide (range.1 ≤ character.toNat ∧ character.toNat ≤ range.2)

/-- The blank characters of Unicode. -/
def blankRanges : CodeRanges := [
  (0x0009, 0x000D), (0x001C, 0x0020), (0x0085, 0x0085), (0x00A0, 0x00A0),
  (0x1680, 0x1680), (0x2000, 0x200A), (0x2028, 0x2029), (0x202F, 0x202F),
  (0x205F, 0x205F), (0x3000, 0x3000)]

/-- Whether Unicode counts a character as blank. -/
def isBlank (character : Char) : Bool :=
  blankRanges.contains character

/-- Whether a character is one of the six blanks of ASCII. -/
def isAsciiBlank (character : Char) : Bool :=
  CodeRanges.contains [(0x09, 0x0D), (0x20, 0x20)] character

/-- Every blank of ASCII is a blank of Unicode. -/
theorem isBlank_of_isAsciiBlank
    {character : Char}
    (blank : isAsciiBlank character = true) :
    isBlank character = true := by
  simp only [isAsciiBlank, isBlank, CodeRanges.contains, blankRanges,
    List.any_cons, List.any_nil, Bool.or_eq_true, Bool.false_eq_true, or_false,
    decide_eq_true_eq] at blank ⊢
  omega

/-- Text without the blanks at its two ends. -/
def trim (text : List Char) : List Char :=
  ((text.dropWhile isBlank).reverse.dropWhile isBlank).reverse

/-- A prefix that does not start with a blank survives trimming the end. -/
private theorem head?_dropWhile_reverse
    (text : List Char)
    (first : Char)
    (starts : text.head? = some first)
    (solid : isBlank first = false) :
    (text.reverse.dropWhile isBlank).reverse.head? = some first := by
  obtain ⟨rest, rfl⟩ : ∃ rest, text = first :: rest := by
    cases text with
    | nil => simp at starts
    | cons head rest =>
        simp only [List.head?_cons, Option.some.injEq] at starts
        exact ⟨rest, by rw [starts]⟩
  simp only [List.reverse_cons, List.dropWhile_append]
  split
  · simp [solid]
  · simp

/-- Trimmed text does not start with a blank. -/
theorem isBlank_head_trim
    {text : List Char}
    {first : Char}
    (starts : (trim text).head? = some first) :
    isBlank first = false := by
  cases shape : (text.dropWhile isBlank).head? with
  | none =>
      rw [List.head?_eq_none_iff] at shape
      simp [trim, shape] at starts
  | some head =>
      have solid : isBlank head = false := by
        have := List.head?_dropWhile_not isBlank text
        simp only [shape] at this
        exact this
      have same := head?_dropWhile_reverse _ head shape solid
      rw [trim, same] at starts
      exact (Option.some.inj starts) ▸ solid

/-- Trimmed text does not end with a blank. -/
theorem isBlank_getLast_trim
    {text : List Char}
    {last : Char}
    (ends : (trim text).getLast? = some last) :
    isBlank last = false := by
  rw [trim, List.getLast?_reverse] at ends
  have := List.head?_dropWhile_not isBlank (text.dropWhile isBlank).reverse
  simp only [ends] at this
  exact this

/-- Text whose two ends are not blank is its own trimming. -/
theorem trim_eq_self
    {text : List Char}
    (front : ∀ first, text.head? = some first → isBlank first = false)
    (back : ∀ last, text.getLast? = some last → isBlank last = false) :
    trim text = text := by
  have drops : ∀ characters : List Char,
      (∀ first, characters.head? = some first → isBlank first = false) →
        characters.dropWhile isBlank = characters := by
    intro characters solid
    cases characters with
    | nil => rfl
    | cons head rest => simp [solid head rfl]
  rw [trim, drops text front, drops text.reverse, List.reverse_reverse]
  intro last ends
  exact back last (by rwa [List.head?_reverse] at ends)

end GitLanes
