import GitLanes.Text.Utf8

namespace GitLanes.Utf8

/-!
# Reading what was written as UTF-8

The bytes of a text are read as that text, whatever its characters and whatever
bytes follow. A character is under way with the bits of its first bytes: its code
without the six bits for each byte that is missing. Whatever bytes there are,
they are read as no more characters than bytes.
-/

/-- The byte that holds the last six bits of a code. -/
def trailingByte (code : Nat) : UInt8 :=
  UInt8.ofNat (0x80 + code % 0x40)

theorem toNat_trailingByte (code : Nat) :
    (trailingByte code).toNat = 0x80 + code % 0x40 := by
  rw [trailingByte, UInt8.toNat_ofNat_of_lt' (by rw [UInt8.size]; omega)]

/-- Six bits are put behind the bits of a character under way. -/
theorem bits_of_trailingByte (code : Nat) :
    code / 0x40 * 0x40 + (0x80 + code % 0x40) % 0x40 = code := by
  omega

/-- A byte of seven bits is a character by itself. -/
theorem decodeAfter_single
    {byte : UInt8}
    (single : byte.toNat < 0x80)
    (rest : List UInt8) :
    decodeAfter none (byte :: rest) = Char.ofNat byte.toNat :: decodeAfter none rest := by
  simp [decodeAfter, step, start, single]

/-- A longer character is under way after its first byte. -/
theorem decodeAfter_begin
    {byte : UInt8}
    {underway : PartialCharacter}
    (long : 0x80 ≤ byte.toNat)
    (begins : begin? byte.toNat = some underway)
    (rest : List UInt8) :
    decodeAfter none (byte :: rest) = decodeAfter (some underway) rest := by
  have notSingle : ¬ byte.toNat < 0x80 := by omega
  simp [decodeAfter, step, start, notSingle, begins]

theorem decodeAfter_extend
    {code missing least greatest : Nat}
    (fits : least ≤ 0x80 + code % 0x40 ∧ 0x80 + code % 0x40 ≤ greatest)
    (rest : List UInt8) :
    decodeAfter (some ⟨code / 0x40, missing + 2, least, greatest⟩) (trailingByte code :: rest) =
      decodeAfter (some ⟨code, missing + 1, 0x80, 0xBF⟩) rest := by
  have notLast : ¬ missing + 2 ≤ 1 := by omega
  simp only [decodeAfter, step, toNat_trailingByte, if_pos fits, extend, bits_of_trailingByte,
    if_neg notLast]
  rfl

/-- The last byte of a character completes it. -/
theorem decodeAfter_finish
    {code least greatest : Nat}
    (fits : least ≤ 0x80 + code % 0x40 ∧ 0x80 + code % 0x40 ≤ greatest)
    (rest : List UInt8) :
    decodeAfter (some ⟨code / 0x40, 1, least, greatest⟩) (trailingByte code :: rest) =
      Char.ofNat code :: decodeAfter none rest := by
  simp only [decodeAfter, step, toNat_trailingByte, if_pos fits, extend, bits_of_trailingByte,
    if_pos (Nat.le_refl 1)]
  rfl

/-- The first of two bytes holds the first five bits. -/
theorem begin?_of_two
    {code : Nat}
    (atLeast : 0x80 ≤ code)
    (below : code < 0x800) :
    begin? (0xC0 + code / 0x40) = some ⟨code / 0x40, 1, 0x80, 0xBF⟩ := by
  have inRange : 0xC2 ≤ 0xC0 + code / 0x40 ∧ 0xC0 + code / 0x40 ≤ 0xDF := by omega
  have bits : (0xC0 + code / 0x40) % 0x20 = code / 0x40 := by omega
  rw [begin?, if_pos inRange, bits]

/-- The first of three bytes allows as a second byte what follows it in a character. -/
theorem begin?_of_three
    {code : Nat}
    (atLeast : 0x800 ≤ code)
    (below : code < 0x10000)
    (notSurrogate : code < 0xD800 ∨ 0xDFFF < code) :
    ∃ least greatest,
      begin? (0xE0 + code / 0x1000) = some ⟨code / 0x1000, 2, least, greatest⟩ ∧
        least ≤ 0x80 + code / 0x40 % 0x40 ∧ 0x80 + code / 0x40 % 0x40 ≤ greatest := by
  have notTwo : ¬ (0xC2 ≤ 0xE0 + code / 0x1000 ∧ 0xE0 + code / 0x1000 ≤ 0xDF) := by omega
  rw [begin?, if_neg notTwo]
  by_cases lowest : code / 0x1000 = 0
  · rw [lowest]
    exact ⟨0xA0, 0xBF, rfl, by omega, by omega⟩
  · rw [if_neg (by omega)]
    by_cases beforeSurrogates : code / 0x1000 = 0xD
    · rw [beforeSurrogates]
      exact ⟨0x80, 0x9F, rfl, by omega, by omega⟩
    · have inRange : 0xE1 ≤ 0xE0 + code / 0x1000 ∧ 0xE0 + code / 0x1000 ≤ 0xEF := by omega
      have bits : (0xE0 + code / 0x1000) % 0x10 = code / 0x1000 := by omega
      rw [if_neg (by omega), if_pos inRange, bits]
      exact ⟨0x80, 0xBF, rfl, by omega, by omega⟩

/-- The first of four bytes holds the first three bits, and the second one fits it. -/
theorem begin?_of_four
    {code : Nat}
    (atLeast : 0x10000 ≤ code)
    (below : code < 0x110000) :
    ∃ least greatest,
      begin? (0xF0 + code / 0x40000) = some ⟨code / 0x40000, 3, least, greatest⟩ ∧
        least ≤ 0x80 + code / 0x1000 % 0x40 ∧ 0x80 + code / 0x1000 % 0x40 ≤ greatest := by
  have notTwo : ¬ (0xC2 ≤ 0xF0 + code / 0x40000 ∧ 0xF0 + code / 0x40000 ≤ 0xDF) := by omega
  have notThree : ¬ (0xE1 ≤ 0xF0 + code / 0x40000 ∧ 0xF0 + code / 0x40000 ≤ 0xEF) := by omega
  rw [begin?, if_neg notTwo, if_neg (by omega), if_neg (by omega), if_neg notThree]
  by_cases lowest : code / 0x40000 = 0
  · rw [lowest]
    exact ⟨0x90, 0xBF, rfl, by omega, by omega⟩
  · rw [if_neg (by omega)]
    by_cases highest : code / 0x40000 = 4
    · rw [highest]
      exact ⟨0x80, 0x8F, rfl, by omega, by omega⟩
    · have inRange : 0xF1 ≤ 0xF0 + code / 0x40000 ∧ 0xF0 + code / 0x40000 ≤ 0xF3 := by omega
      have bits : (0xF0 + code / 0x40000) % 0x08 = code / 0x40000 := by omega
      rw [if_neg (by omega), if_pos inRange, bits]
      exact ⟨0x80, 0xBF, rfl, by omega, by omega⟩

theorem toNat_ofNat
    {value : Nat}
    (isByte : value < 0x100) :
    (UInt8.ofNat value).toNat = value :=
  UInt8.toNat_ofNat_of_lt' isByte

theorem decodeAfter_two
    {code : Nat}
    (atLeast : 0x80 ≤ code)
    (below : code < 0x800)
    (rest : List UInt8) :
    decodeAfter none (UInt8.ofNat (0xC0 + code / 0x40) :: trailingByte code :: rest) =
      Char.ofNat code :: decodeAfter none rest := by
  have first : (UInt8.ofNat (0xC0 + code / 0x40)).toNat = 0xC0 + code / 0x40 :=
    toNat_ofNat (by omega)
  rw [decodeAfter_begin (by omega) (first ▸ begin?_of_two atLeast below),
    decodeAfter_finish (by omega)]

/-- A character of three bytes is read back, unless it is a surrogate. -/
theorem decodeAfter_three
    {code : Nat}
    (atLeast : 0x800 ≤ code)
    (below : code < 0x10000)
    (notSurrogate : code < 0xD800 ∨ 0xDFFF < code)
    (rest : List UInt8) :
    decodeAfter none
        (UInt8.ofNat (0xE0 + code / 0x1000) :: trailingByte (code / 0x40) ::
          trailingByte code :: rest) =
      Char.ofNat code :: decodeAfter none rest := by
  have first : (UInt8.ofNat (0xE0 + code / 0x1000)).toNat = 0xE0 + code / 0x1000 :=
    toNat_ofNat (by omega)
  have sixBits : code / 0x1000 = code / 0x40 / 0x40 := (Nat.div_div_eq_div_mul code 0x40 0x40).symm
  obtain ⟨least, greatest, begins, fits⟩ := begin?_of_three atLeast below notSurrogate
  rw [decodeAfter_begin (by omega) (first ▸ begins), sixBits, decodeAfter_extend fits,
    decodeAfter_finish (by omega)]

/-- A character of four bytes is read back. -/
theorem decodeAfter_four
    {code : Nat}
    (atLeast : 0x10000 ≤ code)
    (below : code < 0x110000)
    (rest : List UInt8) :
    decodeAfter none
        (UInt8.ofNat (0xF0 + code / 0x40000) :: trailingByte (code / 0x1000) ::
          trailingByte (code / 0x40) :: trailingByte code :: rest) =
      Char.ofNat code :: decodeAfter none rest := by
  have first : (UInt8.ofNat (0xF0 + code / 0x40000)).toNat = 0xF0 + code / 0x40000 :=
    toNat_ofNat (by omega)
  have sixBits : code / 0x1000 = code / 0x40 / 0x40 := (Nat.div_div_eq_div_mul code 0x40 0x40).symm
  have twelveBits : code / 0x40000 = code / 0x1000 / 0x40 :=
    (Nat.div_div_eq_div_mul code 0x1000 0x40).symm
  obtain ⟨least, greatest, begins, fits⟩ := begin?_of_four atLeast below
  rw [decodeAfter_begin (by omega) (first ▸ begins), twelveBits, decodeAfter_extend fits,
    sixBits, decodeAfter_extend (by omega), decodeAfter_finish (by omega)]

/-- The bytes of a character are read as that character, whatever follows them. -/
theorem decodeAfter_encodeCharacter
    (character : Char)
    (rest : List UInt8) :
    decodeAfter none (encodeCharacter character ++ rest) = character :: decodeAfter none rest := by
  have valid : character.toNat < 0xD800 ∨ 0xDFFF < character.toNat ∧ character.toNat < 0x110000 :=
    character.valid
  have same : Char.ofNat character.toNat = character := Char.ofNat_toNat character
  unfold encodeCharacter
  generalize character.toNat = code at valid same
  subst same
  simp only [Nat.div_one]
  split
  case isTrue one =>
    have first : (UInt8.ofNat code).toNat = code := toNat_ofNat (by omega)
    rw [List.singleton_append, decodeAfter_single (by omega), first]
  case isFalse notOne =>
    split
    case isTrue two =>
      exact decodeAfter_two (by omega) two rest
    case isFalse notTwo =>
      split
      case isTrue three =>
        exact decodeAfter_three (by omega) three (by omega) rest
      case isFalse notThree =>
        exact decodeAfter_four (by omega) (by omega) rest

/-- What was written is what is read. -/
theorem decode_encode (text : List Char) :
    decode (encode text) = text := by
  unfold decode
  induction text with
  | nil =>
      rfl
  | cons character rest inductionHypothesis =>
      rw [encode, List.flatMap_cons, decodeAfter_encodeCharacter]
      exact congrArg (character :: ·) inductionHypothesis

/-! The length of what is read. -/

/-- A byte ends or begins at most one character. -/
theorem length_start_le (byte : Nat) :
    (start byte).1.length + (start byte).2.toList.length ≤ 1 := by
  unfold start
  split
  · simp
  · split <;> simp

/-- A byte completes a character or leaves it under way, but never both. -/
theorem length_extend_le
    (underway : PartialCharacter)
    (byte : Nat) :
    (extend underway byte).1.length + (extend underway byte).2.toList.length ≤ 1 := by
  unfold extend
  dsimp only
  split <;> simp

/-- A character under way is paid for by the byte that began it. -/
theorem length_step_le
    (state : Option PartialCharacter)
    (byte : Nat) :
    (step state byte).1.length + (step state byte).2.toList.length ≤ state.toList.length + 1 := by
  have started := length_start_le byte
  cases state with
  | none =>
      exact started
  | some underway =>
      have extended := length_extend_le underway byte
      unfold step
      dsimp only
      split
      · simp only [Option.toList_some, List.length_singleton]
        omega
      · simp only [Option.toList_some, List.length_cons]
        omega

/-- There are no more characters than bytes. -/
theorem length_decodeAfter_le
    (state : Option PartialCharacter)
    (bytes : List UInt8) :
    (decodeAfter state bytes).length ≤ state.toList.length + bytes.length := by
  induction bytes generalizing state with
  | nil =>
      cases state <;> simp [decodeAfter]
  | cons byte rest inductionHypothesis =>
      have stepped := length_step_le state byte.toNat
      have others := inductionHypothesis (step state byte.toNat).2
      rw [decodeAfter, List.length_append, List.length_cons]
      omega

/-- There are no more characters than bytes. -/
theorem length_decode_le (bytes : List UInt8) :
    (decode bytes).length ≤ bytes.length := by
  rw [decode]
  simpa using length_decodeAfter_le none bytes

end GitLanes.Utf8
