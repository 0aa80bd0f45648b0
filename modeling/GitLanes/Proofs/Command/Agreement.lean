import GitLanes.Command.Run
import GitLanes.Proofs.Command.Files
import GitLanes.Proofs.Number.Numerals
import GitLanes.Proofs.Text.Utf8

namespace GitLanes

/-!
# The command draws what the library draws

A file that holds a source is read as that source with its line ends folded,
whatever its characters are. So the command writes the document that the source
is drawn as, byte for byte, and tells the size of the history that it lays out.
-/

/-- The line that tells the size of a history. -/
def History.sizeLine (history : History) : String :=
  "   " ++ integerText history.commits.length ++ " commits, " ++
    integerText history.edges.length ++ " edges, " ++
      integerText history.branches.length ++ " branches\n"

/-- A text that does not start with an escape starts with no escape sequence. -/
theorem afterEscapeSequence?_eq_none
    {text : List Char}
    (plain : text.head? ≠ some '\x1b') :
    afterEscapeSequence? text = none := by
  unfold afterEscapeSequence?
  split
  · simp at plain
  · rfl

/-- A text without an escape character is printed as it is. -/
theorem withoutEscapeSequences_eq_self
    {text : List Char}
    (plain : '\x1b' ∉ text) :
    withoutEscapeSequences text = text := by
  induction text with
  | nil =>
      rw [withoutEscapeSequences, afterEscapeSequence?_eq_none (by simp)]
  | cons character rest inductionHypothesis =>
      rw [List.mem_cons, not_or] at plain
      rw [withoutEscapeSequences, afterEscapeSequence?_eq_none (by simpa using Ne.symm plain.1)]
      exact congrArg (character :: ·) (inductionHypothesis plain.2)

/-- A message without escapes is printed as it is, on a line of its own. -/
theorem messageLine_eq_append
    {message : String}
    (plain : '\x1b' ∉ message.toList) :
    messageLine message = message ++ "\n" := by
  rw [messageLine, withoutEscapeSequences_eq_self plain, String.ofList_toList]

theorem escape_not_mem_integerText (count : Nat) :
    '\x1b' ∉ (integerText count).toList := by
  intro member
  rw [toList_integerText] at member
  exact absurd (isNumeralCharacter_of_mem_integerNumeral count _ member) (by decide)

/-- The size of a history is printed as it is. -/
theorem messageLine_size (history : History) :
    messageLine ("   " ++ integerText history.commits.length ++ " commits, " ++
      integerText history.edges.length ++ " edges, " ++
        integerText history.branches.length ++ " branches") =
      history.sizeLine := by
  have lineEnd : " branches\n" = " branches" ++ "\n" := rfl
  rw [messageLine_eq_append (by simp [escape_not_mem_integerText]), History.sizeLine, lineEnd]
  exact String.append_assoc

/-- The size of a history is told between two other lines. -/
theorem successText_eq
    (history : History)
    (input output : String) :
    history.successText input output =
      messageLine ("Successfully converted " ++ input ++ " to " ++ output) ++ history.sizeLine ++
        messageLine ("   (Try 'Arrange > Layout > Horizontal Flow' in Draw.io if it looks " ++
          "messy, though coordinates are pre-calculated)") := by
  rw [History.successText, ← messageLine_size]

/-- The arguments that name an input and an output, with or without the option to tell more. -/
def conversionArguments (input output : String) (verbose : Bool) : List String :=
  ["--input", input, "--output", output] ++ if verbose then ["--verbose"] else []

theorem ofArguments_conversionArguments
    (input output : String)
    (verbose : Bool) :
    Invocation.ofArguments (conversionArguments input output verbose) =
      .ok (.conversion input output verbose) := by
  cases verbose <;> rfl

/-- A file that holds an encoded source is read as that source, with its line ends folded. -/
theorem sourceOfContents_encode (source : String) :
    sourceOfContents (Utf8.encode source.toList) =
      String.ofList (foldLineEnds source.toList) := by
  rw [sourceOfContents, Utf8.decode_encode]

/-- A drawing that was made and can be written is written, and the command succeeds. -/
theorem run_writeDrawing
    {system : FileSystem}
    {place : Place}
    {input output now document : String}
    {history : History}
    (log : String)
    (rendered : history.render {} ({} : Settings).spacingY now = .ok document)
    (writable : system.writablePlace output = .ok place) :
    (writeDrawing input output now log history).run system =
      (system.put place (Utf8.encode document.toList), ⟨0, history.successText input output, log⟩) := by
  have written :
      system.write output (Utf8.encode document.toList) =
        .ok (system.put place (Utf8.encode document.toList)) := by
    rw [FileSystem.write, writable]
    rfl
  simp only [writeDrawing, rendered, Action.run, written]

/-- A source that is converted is drawn into the output, whatever is logged on the way. -/
theorem run_drawContents
    {system : FileSystem}
    {place : Place}
    {input output now source document : String}
    (verbose : Bool)
    (writable : system.writablePlace output = .ok place)
    (converted : convert {} {} now (String.ofList (foldLineEnds source.toList)) = .ok document) :
    ∃ history log,
      layoutSource {} (String.ofList (foldLineEnds source.toList)) = .ok history ∧
        (drawContents input output now verbose (Utf8.encode source.toList)).run system =
          (system.put place (Utf8.encode document.toList),
            ⟨0, history.successText input output, log⟩) := by
  obtain ⟨history, laid, rendered⟩ := bind_eq_ok_iff.mp converted
  obtain ⟨script, read, rfl⟩ := map_eq_ok_iff.mp laid
  refine ⟨_, script.log verbose ++ (script.history {}).warnings, laid, ?_⟩
  simp only [drawContents, sourceOfContents_encode, read]
  exact run_writeDrawing _ rendered writable

/--
The command writes the document that the source in its input file is drawn as
with the standard settings, changes nothing but its output file, exits without a
fault and tells how many commits, edges and branches were laid out. Plain
arguments ask for this, whatever the two paths are.
-/
theorem command_writes_what_convert_draws
    {system : FileSystem}
    {place : Place}
    {arguments : List String}
    {input output now source document : String}
    {verbose : Bool}
    (asked : Invocation.ofArguments arguments = .ok (.conversion input output verbose))
    (readable : system.read input = .ok (Utf8.encode source.toList))
    (writable : system.writablePlace output = .ok place)
    (converted : convert {} {} now (String.ofList (foldLineEnds source.toList)) = .ok document) :
    (∃ history log,
      layoutSource {} (String.ofList (foldLineEnds source.toList)) = .ok history ∧
        (command arguments now).run system =
          (system.put place (Utf8.encode document.toList),
            { exitCode := 0
              output :=
                messageLine ("Successfully converted " ++ input ++ " to " ++ output) ++
                  history.sizeLine ++
                    messageLine ("   (Try 'Arrange > Layout > Horizontal Flow' in Draw.io if it " ++
                      "looks messy, though coordinates are pre-calculated)")
              errors := log })) ∧
      (system.put place (Utf8.encode document.toList)).read output =
        .ok (Utf8.encode document.toList) ∧
      Invocation.ofArguments (conversionArguments input output verbose) =
        .ok (.conversion input output verbose) := by
  obtain ⟨history, log, laid, ran⟩ := run_drawContents verbose writable converted
  refine ⟨⟨history, log, laid, ?_⟩, FileSystem.read_put writable _,
    ofArguments_conversionArguments input output verbose⟩
  rw [command, asked]
  simp only [Invocation.action, Action.run, readable]
  rw [ran, successText_eq]
  rfl

/-- A directory with one source, whose lines end in two ways. -/
def workshop : FileSystem where
  entries := [
    (["work"], .directory),
    (["work", "history.mmd"], .file (Utf8.encode "gitGraph\r\ncommit\rcommit".toList))]
  current := ["work"]

/--
In the workshop two commits are drawn, whichever way their lines end and the options are
given.
-/
theorem command_writes_what_convert_draws_in_the_workshop :
    ∃ document log,
      convert {} {} "noon" "gitGraph\ncommit\ncommit" = .ok document ∧
        (command ["-v", "-ihistory.mmd", "--output=history.drawio"] "noon").run workshop =
          (workshop.put ["work", "history.drawio"] (Utf8.encode document.toList),
            { exitCode := 0
              output :=
                messageLine "Successfully converted history.mmd to history.drawio" ++
                  "   2 commits, 1 edges, 1 branches\n" ++
                    messageLine ("   (Try 'Arrange > Layout > Horizontal Flow' in Draw.io if it " ++
                      "looks messy, though coordinates are pre-calculated)")
              errors := log }) := by
  have asked :
      Invocation.ofArguments ["-v", "-ihistory.mmd", "--output=history.drawio"] =
        .ok (.conversion "history.mmd" "history.drawio" true) := by
    rfl
  have readable :
      workshop.read "history.mmd" =
        .ok (Utf8.encode "gitGraph\r\ncommit\rcommit".toList) := by
    decide +kernel
  have writable : workshop.writablePlace "history.drawio" = .ok ["work", "history.drawio"] := by
    decide +kernel
  have laid : layoutSource {} (String.ofList (foldLineEnds "gitGraph\r\ncommit\rcommit".toList)) =
      .ok {
        branches := [{ name := "main", laneIndex := 0, color := "#1E90FF", tip := some "c1" }]
        commits := [
          { id := "c0", label := "c0", x := .int 0, y := .int 0, branch := "main",
            color := "#1E90FF", isMerge := false },
          { id := "c1", label := "c1", x := .int 150, y := .int 0, branch := "main",
            color := "#1E90FF", isMerge := false }]
        edges := [{ source := "c0", target := "c1", color := "#1E90FF", isMergeLine := false }] } := by
    rfl
  obtain ⟨document, converted⟩ :
      ∃ document,
        convert {} {} "noon" (String.ofList (foldLineEnds "gitGraph\r\ncommit\rcommit".toList)) =
          .ok document :=
    exists_eq_ok (by decide +kernel)
  obtain ⟨⟨history, log, laidOut, ran⟩, -⟩ :=
    command_writes_what_convert_draws asked readable writable converted
  obtain rfl := Except.ok.inj (laid.symm.trans laidOut)
  exact ⟨document, log, converted, ran⟩

end GitLanes
