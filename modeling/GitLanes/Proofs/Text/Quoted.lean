import GitLanes.Proofs.Text.Runs
import GitLanes.Text.Quoted
import Mathlib.Algebra.Group.Nat.Defs
import Mathlib.Data.List.Basic

namespace GitLanes

/-!
# Reading quoted text back

Between quotes every character of a text is shown by printable ones, and what
shows it can be told from what shows the next. So the quoted text ends where it
says, whatever follows it, and no two texts are quoted alike.
-/

/-- The digits of hexadecimal numbers. -/
def hexadecimalDigits : List Char :=
  "0123456789abcdef".toList

/-- The number that hexadecimal digits write behind a number. -/
def hexadecimalValue (start : Nat) (digits : List Char) : Nat :=
  digits.foldl (fun value digit => 16 * value + hexadecimalDigits.idxOf digit) start

theorem hexadecimalValue_append
    (start : Nat)
    (first second : List Char) :
    hexadecimalValue start (first ++ second) =
      hexadecimalValue (hexadecimalValue start first) second :=
  List.foldl_append

/-- A digit adds its value to sixteen times what was read. -/
theorem hexadecimalValue_digitChar
    (start : Nat)
    {digit : Nat}
    (small : digit < 16) :
    hexadecimalValue start [digit.digitChar] = 16 * start + digit := by
  have read : ∀ digit < 16, hexadecimalDigits.idxOf digit.digitChar = digit := by
    decide
  rw [hexadecimalValue, List.foldl_cons, List.foldl_nil, read digit small]

/-- The digits of a number in base sixteen are read as that number. -/
theorem hexadecimalValue_toDigits (value : Nat) :
    hexadecimalValue 0 (Nat.toDigits 16 value) = value := by
  induction value using Nat.strongRecOn with
  | ind value inductionHypothesis =>
      rw [Nat.toDigits_eq_if (by decide)]
      split
      · rename_i small
        rw [hexadecimalValue_digitChar 0 small, Nat.zero_add]
      · rename_i large
        have smaller : value / 16 < value := by omega
        rw [hexadecimalValue_append, inductionHypothesis _ smaller,
          hexadecimalValue_digitChar _ (Nat.mod_lt _ (by decide)), Nat.div_add_mod]

theorem mem_hexadecimalDigits_of_mem_toDigits
    (value : Nat) :
    ∀ digit ∈ Nat.toDigits 16 value, digit ∈ hexadecimalDigits := by
  have listed : ∀ digit < 16, digit.digitChar ∈ hexadecimalDigits := by
    decide
  induction value using Nat.strongRecOn with
  | ind value inductionHypothesis =>
      rw [Nat.toDigits_eq_if (by decide)]
      split
      · rename_i small
        simpa using listed value small
      · rename_i large
        have smaller : value / 16 < value := by omega
        rw [List.forall_mem_append]
        refine ⟨inductionHypothesis _ smaller, ?_⟩
        simpa using listed (value % 16) (Nat.mod_lt _ (by decide))

/-- Zeros in front of a number do not change it. -/
theorem hexadecimalValue_hexadecimal
    (width value : Nat) :
    hexadecimalValue 0 (hexadecimal width value) = value := by
  have zeros (count : Nat) : hexadecimalValue 0 (List.replicate count '0') = 0 := by
    induction count with
    | zero =>
        rfl
    | succ count inductionHypothesis =>
        exact inductionHypothesis
  rw [hexadecimal, hexadecimalValue_append, zeros, hexadecimalValue_toDigits]

/-- A number that fits into a width is written with exactly as many digits. -/
theorem length_hexadecimal
    {width value : Nat}
    (positive : 0 < width)
    (fits : value < 16 ^ width) :
    (hexadecimal width value).length = width := by
  have notLonger := (Nat.length_toDigits_le_iff (by decide) positive).mpr fits
  rw [hexadecimal, List.length_append, List.length_replicate, Nat.sub_add_cancel notLonger]

theorem mem_hexadecimalDigits_of_mem_hexadecimal
    (width value : Nat) :
    ∀ digit ∈ hexadecimal width value, digit ∈ hexadecimalDigits := by
  rw [hexadecimal, List.forall_mem_append]
  refine ⟨fun digit member => ?_, mem_hexadecimalDigits_of_mem_toDigits value⟩
  rw [List.eq_of_mem_replicate member]
  decide

/-- The two quotes. -/
def quoteMarks : List Char :=
  ['\x27', '"']

theorem quoteFor_mem (text : List Char) :
    quoteFor text ∈ quoteMarks := by
  rw [quoteFor]
  split <;> decide

/-- All the ways in which a character is shown between quotes of one kind. -/
inductive ShownBetween (mark : Char) : Char → List Char → Prop
  | special
      {character : Char}
      (marked : character = mark ∨ character = '\\') :
      ShownBetween mark character ['\\', character]
  | tabulator :
      ShownBetween mark '\t' ['\\', 't']
  | newline :
      ShownBetween mark '\n' ['\\', 'n']
  | carriageReturn :
      ShownBetween mark '\r' ['\\', 'r']
  | plain
      {character : Char}
      (notMark : character ≠ mark)
      (notEscape : character ≠ '\\')
      (printable : isPrintable character = true) :
      ShownBetween mark character [character]
  | coded
      {character : Char} :
      ShownBetween mark character (codeEscape character)

/-- An escaped character is shown in one of these ways. -/
theorem shownBetween_escapeCharacter
    (mark character : Char) :
    ShownBetween mark character (escapeCharacter mark character) := by
  simp only [escapeCharacter, Bool.or_eq_true, beq_iff_eq]
  split_ifs with special tabulator newline carriageReturn printable
  · exact .special special
  · exact tabulator ▸ .tabulator
  · exact newline ▸ .newline
  · exact carriageReturn ▸ .carriageReturn
  · exact .plain (mt .inl special) (mt .inr special) printable
  · exact .coded

/-- An escape by code point is a backslash, a letter and hexadecimal digits. -/
theorem codeEscape_eq (character : Char) :
    ∃ letter width,
      (letter = 'x' ∧ width = 2 ∨ letter = 'u' ∧ width = 4 ∨ letter = 'U' ∧ width = 8) ∧
      character.toNat < 16 ^ width ∧
      codeEscape character = '\\' :: letter :: hexadecimal width character.toNat := by
  have valid : character.toNat < 0xD800 ∨ 0xDFFF < character.toNat ∧ character.toNat < 0x110000 :=
    character.valid
  simp only [codeEscape]
  split_ifs with short middling
  · exact ⟨'x', 2, .inl ⟨rfl, rfl⟩, short, rfl⟩
  · exact ⟨'u', 4, .inr (.inl ⟨rfl, rfl⟩), middling, rfl⟩
  · exact ⟨'U', 8, .inr (.inr ⟨rfl, rfl⟩), by omega, rfl⟩

/-- A character by its code in some hexadecimal digits, and what follows them. -/
def readCode (width : Nat) (text : List Char) : Char × List Char :=
  (.ofNat (hexadecimalValue 0 (text.take width)), text.drop width)

/-- The first character that is shown between quotes, and what follows it. -/
def readShown? : List Char → Option (Char × List Char)
  | [] => none
  | '\\' :: 't' :: rest => some ('\t', rest)
  | '\\' :: 'n' :: rest => some ('\n', rest)
  | '\\' :: 'r' :: rest => some ('\r', rest)
  | '\\' :: 'x' :: rest => some (readCode 2 rest)
  | '\\' :: 'u' :: rest => some (readCode 4 rest)
  | '\\' :: 'U' :: rest => some (readCode 8 rest)
  | '\\' :: character :: rest => some (character, rest)
  | character :: rest => some (character, rest)

/-- A character is read back from the digits of its code. -/
theorem readCode_hexadecimal
    {width : Nat}
    (positive : 0 < width)
    {character : Char}
    (fits : character.toNat < 16 ^ width)
    (rest : List Char) :
    readCode width (hexadecimal width character.toNat ++ rest) = (character, rest) := by
  have asWide := length_hexadecimal positive fits
  rw [readCode, List.take_left' asWide, List.drop_left' asWide, hexadecimalValue_hexadecimal,
    Char.ofNat_toNat]

/-- An escape by code point is read as its character. -/
theorem readShown?_codeEscape
    (character : Char)
    (rest : List Char) :
    readShown? (codeEscape character ++ rest) = some (character, rest) := by
  obtain ⟨letter, width, kind, fits, shape⟩ := codeEscape_eq character
  rw [shape]
  obtain ⟨rfl, rfl⟩ | ⟨rfl, rfl⟩ | ⟨rfl, rfl⟩ := kind
  all_goals exact congrArg some (readCode_hexadecimal (by decide) fits rest)

/-- What is shown is read back, whatever follows it. -/
theorem readShown?_of_shownBetween
    {mark character : Char}
    {shown : List Char}
    (isMark : mark ∈ quoteMarks)
    (isShown : ShownBetween mark character shown)
    (rest : List Char) :
    readShown? (shown ++ rest) = some (character, rest) := by
  have standsForItself : ∀ escaped ∈ '\\' :: quoteMarks,
      readShown? ('\\' :: escaped :: rest) = some (escaped, rest) := by
    simp [quoteMarks, readShown?]
  cases isShown with
  | special marked =>
      obtain rfl | rfl := marked
      · exact standsForItself _ (List.mem_cons_of_mem _ isMark)
      · exact standsForItself _ List.mem_cons_self
  | tabulator | newline | carriageReturn =>
      rfl
  | plain notMark notEscape printable =>
      rw [List.singleton_append]
      unfold readShown?
      split <;> simp_all
  | coded =>
      exact readShown?_codeEscape character rest

/-- What shows a character does not start with the quote. -/
theorem exists_cons_of_shownBetween
    {mark character : Char}
    {shown : List Char}
    (isMark : mark ∈ quoteMarks)
    (isShown : ShownBetween mark character shown) :
    ∃ first others, shown = first :: others ∧ first ≠ mark := by
  have notEscape : '\\' ≠ mark := by
    rintro rfl
    exact absurd isMark (by decide)
  cases isShown with
  | special | tabulator | newline | carriageReturn =>
      exact ⟨_, _, rfl, notEscape⟩
  | plain notMark =>
      exact ⟨_, _, rfl, notMark⟩
  | coded =>
      obtain ⟨letter, width, -, -, shape⟩ := codeEscape_eq character
      exact ⟨_, _, shape, notEscape⟩

/-- Characters between quotes are told apart, and from what follows the closing quote. -/
theorem flatMap_escapeCharacter_inj
    {mark : Char}
    (isMark : mark ∈ quoteMarks)
    {first second firstRest secondRest : List Char}
    (same :
      first.flatMap (escapeCharacter mark) ++ mark :: firstRest =
        second.flatMap (escapeCharacter mark) ++ mark :: secondRest) :
    first = second ∧ firstRest = secondRest := by
  have notClosing
      (character : Char)
      (text rest : List Char)
      (closed : mark :: rest = escapeCharacter mark character ++ text) :
      False := by
    obtain ⟨front, others, shape, notMark⟩ :=
      exists_cons_of_shownBetween isMark (shownBetween_escapeCharacter mark character)
    rw [shape] at closed
    exact notMark (List.cons.inj closed).1.symm
  induction first generalizing second with
  | nil =>
      cases second with
      | nil =>
          exact ⟨rfl, (List.cons.inj same).2⟩
      | cons character others =>
          rw [List.flatMap_cons, List.append_assoc] at same
          exact (notClosing _ _ _ same).elim
  | cons character others inductionHypothesis =>
      cases second with
      | nil =>
          rw [List.flatMap_cons, List.append_assoc] at same
          exact (notClosing _ _ _ same.symm).elim
      | cons otherCharacter otherOthers =>
          have readBack (shown : Char) :=
            readShown?_of_shownBetween isMark (shownBetween_escapeCharacter mark shown)
          rw [List.flatMap_cons, List.flatMap_cons, List.append_assoc, List.append_assoc] at same
          have sameRead := congrArg readShown? same
          rw [readBack, readBack, Option.some.injEq, Prod.mk.injEq] at sameRead
          obtain ⟨rfl, sameRest⟩ := sameRead
          obtain ⟨rfl, sameAfter⟩ := inductionHypothesis sameRest
          exact ⟨rfl, sameAfter⟩

/-- A quoted text consists of the characters that its quotation has. -/
theorem toList_quotedText (text : List Char) :
    (quotedText text).toList = quote text :=
  String.toList_ofList

/-- A quoted text ends where it says, and no two texts are quoted alike. -/
theorem quote_append_inj
    {first second firstRest secondRest : List Char}
    (same : quote first ++ firstRest = quote second ++ secondRest) :
    first = second ∧ firstRest = secondRest := by
  simp only [quote, List.cons_append, List.append_assoc, List.cons.injEq] at same
  obtain ⟨sameMark, sameInside⟩ := same
  rw [← sameMark] at sameInside
  exact flatMap_escapeCharacter_inj (quoteFor_mem first) sameInside

/-! No line breaks within a quoted text. -/

/-- The characters that end a line somewhere. -/
def lineBreakRanges : CodeRanges := [
  (0x000A, 0x000D), (0x001C, 0x001E), (0x0085, 0x0085), (0x2028, 0x2029)]

/-- Whether a character ends a line somewhere. -/
def isLineBreak (character : Char) : Bool :=
  lineBreakRanges.contains character

/-- Ranges that lie in others hold no more than those. -/
theorem CodeRanges.contains_of_covered
    {inner outer : CodeRanges}
    (covered : ∀ range ∈ inner, ∃ wider ∈ outer, wider.1 ≤ range.1 ∧ range.2 ≤ wider.2)
    {character : Char}
    (member : inner.contains character = true) :
    outer.contains character = true := by
  simp only [CodeRanges.contains, List.any_eq_true, decide_eq_true_eq] at member ⊢
  obtain ⟨range, listed, above, below⟩ := member
  obtain ⟨wider, widerListed, startsEarlier, endsLater⟩ := covered range listed
  exact ⟨wider, widerListed, Nat.le_trans startsEarlier above, Nat.le_trans below endsLater⟩

/-- Ranges that lie apart from others hold nothing that those hold. -/
theorem CodeRanges.contains_eq_false_of_apart
    {inner outer : CodeRanges}
    (apart : ∀ range ∈ inner, ∀ other ∈ outer, other.2 < range.1 ∨ range.2 < other.1)
    {character : Char}
    (member : inner.contains character = true) :
    outer.contains character = false := by
  rw [Bool.eq_false_iff]
  intro otherMember
  simp only [CodeRanges.contains, List.any_eq_true, decide_eq_true_eq] at member otherMember
  obtain ⟨range, listed, above, below⟩ := member
  obtain ⟨other, otherListed, otherAbove, otherBelow⟩ := otherMember
  obtain endsBefore | startsBehind := apart range listed other otherListed
  · exact absurd (Nat.le_trans above otherBelow) (Nat.not_le.mpr endsBefore)
  · exact absurd (Nat.le_trans otherAbove below) (Nat.not_le.mpr startsBehind)

/-- Nothing that breaks a line is printable. -/
theorem isLineBreak_eq_false_of_isPrintable
    {character : Char}
    (printable : isPrintable character = true) :
    isLineBreak character = false := by
  rw [isPrintable, Bool.not_eq_true'] at printable
  rw [Bool.eq_false_iff] at printable ⊢
  exact mt (CodeRanges.contains_of_covered (by decide +kernel)) printable

/-- Whether a character is the space or a visible one of ASCII. -/
def isPlain (character : Char) : Bool :=
  CodeRanges.contains [(0x20, 0x7E)] character

theorem isPrintable_of_isPlain
    {character : Char}
    (plain : isPlain character = true) :
    isPrintable character = true := by
  rw [isPrintable, Bool.not_eq_true']
  exact CodeRanges.contains_eq_false_of_apart (by decide +kernel) plain

theorem isPrintable_of_all_isPlain
    {text : List Char}
    (plain : text.all isPlain = true) :
    ∀ character ∈ text, isPrintable character = true :=
  fun character member => isPrintable_of_isPlain (List.all_eq_true.mp plain character member)

theorem isPrintable_of_mem_hexadecimal
    (width value : Nat) :
    ∀ digit ∈ hexadecimal width value, isPrintable digit = true := by
  intro digit member
  have listed := mem_hexadecimalDigits_of_mem_hexadecimal width value digit member
  exact isPrintable_of_all_isPlain (by decide +kernel) digit listed

/-- The characters that escapes consist of, hexadecimal digits aside. -/
def escapeSigns : List Char :=
  ['\\', 't', 'n', 'r', 'x', 'u', 'U'] ++ quoteMarks

theorem isPrintable_of_mem_escapeSigns :
    ∀ sign ∈ escapeSigns, isPrintable sign = true :=
  isPrintable_of_all_isPlain (by decide)

/-- Whatever is shown between quotes is printable. -/
theorem isPrintable_of_shownBetween
    {mark character : Char}
    {shown : List Char}
    (isMark : mark ∈ quoteMarks)
    (isShown : ShownBetween mark character shown) :
    ∀ each ∈ shown, isPrintable each = true := by
  have ofSigns
      (letter : Char)
      (isSign : letter ∈ escapeSigns) :
      ∀ each ∈ ['\\', letter], isPrintable each = true := by
    rw [List.forall_mem_cons, List.forall_mem_singleton]
    exact ⟨isPrintable_of_mem_escapeSigns _ (by decide), isPrintable_of_mem_escapeSigns _ isSign⟩
  cases isShown with
  | special marked =>
      obtain rfl | rfl := marked
      · exact ofSigns _ (List.mem_append_right _ isMark)
      · exact ofSigns _ (by decide)
  | tabulator | newline | carriageReturn =>
      exact ofSigns _ (by decide)
  | plain notMark notEscape printable =>
      exact List.forall_mem_singleton.mpr printable
  | coded =>
      obtain ⟨letter, width, kind, -, shape⟩ := codeEscape_eq character
      have isSign : letter ∈ escapeSigns := by
        obtain ⟨rfl, -⟩ | ⟨rfl, -⟩ | ⟨rfl, -⟩ := kind <;> decide
      have split : codeEscape character = ['\\', letter] ++ hexadecimal width character.toNat :=
        shape
      rw [split, List.forall_mem_append]
      exact ⟨ofSigns letter isSign, isPrintable_of_mem_hexadecimal width _⟩

/-- Every character of a quoted text is printable. -/
theorem isPrintable_of_mem_quote
    (text : List Char) :
    ∀ character ∈ quote text, isPrintable character = true := by
  have isMark := quoteFor_mem text
  have markPrintable : isPrintable (quoteFor text) = true :=
    isPrintable_of_mem_escapeSigns _ (List.mem_append_right _ isMark)
  have insidePrintable :
      ∀ each ∈ text.flatMap (escapeCharacter (quoteFor text)), isPrintable each = true := by
    intro each member
    obtain ⟨character, -, shown⟩ := List.mem_flatMap.mp member
    exact isPrintable_of_shownBetween isMark (shownBetween_escapeCharacter _ character) each shown
  rw [quote, List.forall_mem_cons, List.forall_mem_append, List.forall_mem_singleton]
  exact ⟨markPrintable, insidePrintable, markPrintable⟩

end GitLanes
