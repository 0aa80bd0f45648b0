import GitLanes.Proofs.Command.Agreement
import GitLanes.Proofs.Drawing.Faithfulness
import GitLanes.Proofs.Drawing.Overflow
import GitLanes.Proofs.Script.Reading

namespace GitLanes

/-!
# What a command changes

A command has read, laid out and drawn everything before it opens its output. So
a command that fails has changed nothing, and tells of the first thing that kept
it from going on; and a command that opens its output writes it and succeeds.
-/

namespace ArgumentItem

/-- The value that an option has: the last one given to it, or else its default. -/
inductive Settles
    (option : CommandOption)
    (fallback : String)
    (items : List ArgumentItem) :
    String → Prop
  | given
      {value : String}
      {earlier later : List ArgumentItem}
      (shape : items = earlier ++ .valued option value :: later)
      (last : ∀ other, .valued option other ∉ later) :
      Settles option fallback items value
  | omitted
      (never : ∀ other, .valued option other ∉ items) :
      Settles option fallback items fallback

/-- The value that is looked up is the one that settles the option. -/
theorem settles_lastValue?
    (option : CommandOption)
    (fallback : String)
    (items : List ArgumentItem) :
    Settles option fallback items ((lastValue? option items).getD fallback) := by
  cases found : lastValue? option items with
  | none =>
      have noValue := List.filterMap_eq_nil_iff.mp (List.getLast?_eq_none_iff.mp found)
      refine .omitted fun other member => ?_
      simpa using noValue _ member
  | some value =>
      obtain ⟨values, isLast⟩ := List.getLast?_eq_some_iff.mp found
      obtain ⟨front, rest, rfl, -, fromRest⟩ := List.filterMap_eq_append_iff.mp isLast
      obtain ⟨skipped, item, later, rfl, -, isValue, fromLater⟩ :=
        List.filterMap_eq_cons_iff.mp fromRest
      have noValue := List.filterMap_eq_nil_iff.mp fromLater
      have isGiven : item = .valued option value := by
        cases item <;> simp_all
      have shape :
          front ++ (skipped ++ item :: later) =
            (front ++ skipped) ++ .valued option value :: later := by
        rw [isGiven, List.append_assoc]
      refine .given shape fun other member => ?_
      simpa using noValue _ member

end ArgumentItem

namespace FileSystem

/-- One file system is another one with a file at a place, new or in place of an older one. -/
structure WrittenAt
    (before after : FileSystem)
    (place : Place)
    (contents : List UInt8) :
    Prop where
  current : after.current = before.current
  atPlace : after.entry? place = some (.file contents)
  elsewhere : ∀ other, other ≠ place → after.entry? other = before.entry? other

/-- Putting a file at a place that can be written changes that place and no other. -/
theorem writtenAt_put
    {system : FileSystem}
    {path : String}
    {place : Place}
    (writable : system.writablePlace path = .ok place)
    (contents : List UInt8) :
    system.WrittenAt (system.put place contents) place contents := by
  have notRoot := ne_root_of_not_isDirectory (of_writablePlace writable).2.2.1
  have entries := entry?_put system notRoot contents
  refine ⟨rfl, ?_, ?_⟩
  · rw [entries, if_pos rfl]
  · intro other elsewhere
    rw [entries, if_neg elsewhere]

end FileSystem

/-! The endings of a command, and the runs that lead to them. -/

/--
What keeps a command from drawing its input, with all that it then has to say.
The input comes first, then the diagram in it, then the output.
-/
inductive Obstacle
    (system : FileSystem)
    (input output : String)
    (verbose : Bool) :
    String → Prop
  | unreadable
      {fault : FileFault}
      (closed : system.read input = .error fault) :
      Obstacle system input output verbose
        (messageLine ("Error: cannot read '" ++ input ++ "': " ++ fault.message input))
  | unsupported
      {contents : List UInt8}
      {kind : DiagramKind}
      (readable : system.read input = .ok contents)
      (announced : diagramKind (sourceOfContents contents).toList = kind)
      (foreign : kind ≠ .gitGraph) :
      Obstacle system input output verbose
        (messageLine ("Error: Unsupported diagram type: " ++ kind.keyword))
  | unwritable
      {contents : List UInt8}
      {script : Script}
      {fault : FileFault}
      (readable : system.read input = .ok contents)
      (read : Script.ofSource (sourceOfContents contents) = .ok script)
      (closed : system.writablePlace output = .error fault) :
      Obstacle system input output verbose
        (script.log verbose ++ (script.history {}).warnings ++
          messageLine ("Error: cannot write '" ++ output ++ "': " ++ fault.message output))

/-- Whether no coordinate overflows in the drawing of what an input holds, if it holds one. -/
def RendersInput (system : FileSystem) (input now : String) : Prop :=
  ∀ contents script,
    system.read input = .ok contents →
      Script.ofSource (sourceOfContents contents) = .ok script →
      ∃ document, (script.history {}).render {} ({} : Settings).spacingY now = .ok document

/-- Nothing overflows in the drawing of a file that is not longer than any real one. -/
theorem rendersInput_of_short
    {system : FileSystem}
    {input : String}
    (short :
      ∀ contents, system.read input = .ok contents → contents.length + 1 < powerOfTwo 1000)
    (now : String) :
    RendersInput system input now := by
  intro contents script readable read
  obtain ⟨-, rfl⟩ := Script.ofSource_eq_ok_iff.mp read
  refine Script.exists_render ?_ now
  calc (Script.ofLines (sourceOfContents contents).toList).directives.length
    _ ≤ (sourceOfContents contents).toList.length + 1 := Script.length_ofLines_le _
    _ ≤ (Utf8.decode contents).length + 1 := by
        rw [sourceOfContents, String.toList_ofList]
        exact Nat.succ_le_succ (length_foldLineEnds_le _)
    _ ≤ contents.length + 1 := Nat.succ_le_succ (Utf8.length_decode_le contents)
    _ < powerOfTwo 1000 := short contents readable

/-- All the ways in which a command can end. -/
inductive Ending
    (system : FileSystem)
    (arguments : List String)
    (now : String) :
    FileSystem × CommandResult → Prop
  | refused
      {fault : UsageFault}
      (invalid : Invocation.ofArguments arguments = .error fault) :
      Ending system arguments now (system, ⟨2, "", fault.report⟩)
  | helped
      (asked : Invocation.ofArguments arguments = .ok .help) :
      Ending system arguments now (system, ⟨0, helpText, ""⟩)
  | hindered
      {input output errors : String}
      {verbose : Bool}
      (asked : Invocation.ofArguments arguments = .ok (.conversion input output verbose))
      (obstacle : Obstacle system input output verbose errors) :
      Ending system arguments now (system, ⟨1, "", errors⟩)
  | overflowed
      {input output : String}
      {verbose : Bool}
      {contents : List UInt8}
      {script : Script}
      {fault : Fault}
      (asked : Invocation.ofArguments arguments = .ok (.conversion input output verbose))
      (readable : system.read input = .ok contents)
      (read : Script.ofSource (sourceOfContents contents) = .ok script)
      (overflow : (script.history {}).render {} ({} : Settings).spacingY now = .error fault) :
      Ending system arguments now
        (system,
          ⟨1, "",
            script.log verbose ++ (script.history {}).warnings ++
              messageLine ("Error: " ++ fault.message)⟩)
  | drawn
      {input output document : String}
      {verbose : Bool}
      {contents : List UInt8}
      {script : Script}
      {place : Place}
      (asked : Invocation.ofArguments arguments = .ok (.conversion input output verbose))
      (readable : system.read input = .ok contents)
      (read : Script.ofSource (sourceOfContents contents) = .ok script)
      (rendered : (script.history {}).render {} ({} : Settings).spacingY now = .ok document)
      (writable : system.writablePlace output = .ok place) :
      Ending system arguments now
        (system.put place (Utf8.encode document.toList),
          ⟨0, (script.history {}).successText input output,
            script.log verbose ++ (script.history {}).warnings⟩)

section Runs

variable {system : FileSystem} {arguments : List String} {input output now : String}
variable {verbose : Bool} {contents : List UInt8} {script : Script}

/-- An input that cannot be read is told, and nothing is done. -/
theorem run_command_of_unreadable
    {fault : FileFault}
    (asked : Invocation.ofArguments arguments = .ok (.conversion input output verbose))
    (closed : system.read input = .error fault) :
    (command arguments now).run system =
      (system,
        ⟨1, "",
          messageLine ("Error: cannot read '" ++ input ++ "': " ++ fault.message input)⟩) := by
  simp only [command, asked, Invocation.action, Action.run, closed, failure,
    String.empty_append, ← String.append_assoc, String.reduceAppend]

/-- An input that can be read leaves only its contents to be drawn. -/
theorem run_command_of_readable
    (asked : Invocation.ofArguments arguments = .ok (.conversion input output verbose))
    (readable : system.read input = .ok contents) :
    (command arguments now).run system =
      (drawContents input output now verbose contents).run system := by
  simp only [command, asked, Invocation.action, Action.run, readable]

theorem run_drawContents_of_foreign
    (foreign : diagramKind (sourceOfContents contents).toList ≠ .gitGraph) :
    (drawContents input output now verbose contents).run system =
      (system,
        ⟨1, "", messageLine ("Error: Unsupported diagram type: " ++
          (diagramKind (sourceOfContents contents).toList).keyword)⟩) := by
  have wording (kind : DiagramKind) :
      "Error: " ++ (Fault.unsupportedDiagram kind).message =
        "Error: Unsupported diagram type: " ++ kind.keyword := by
    change "Error: " ++ ("Unsupported diagram type: " ++ kind.keyword) = _
    simp only [← String.append_assoc, String.reduceAppend]
  simp only [drawContents, Script.ofSource_eq_error foreign, failure, Action.run,
    String.empty_append, wording]

/-- A source that was read leaves only its history to be written. -/
theorem run_drawContents_of_read
    (read : Script.ofSource (sourceOfContents contents) = .ok script) :
    (drawContents input output now verbose contents).run system =
      (writeDrawing input output now (script.log verbose ++ (script.history {}).warnings)
        (script.history {})).run system := by
  simp only [drawContents, read]

/-- A drawing that overflows is told behind the log, and nothing is done. -/
theorem run_writeDrawing_of_overflow
    {history : History}
    {fault : Fault}
    (log : String)
    (overflow : history.render {} ({} : Settings).spacingY now = .error fault) :
    (writeDrawing input output now log history).run system =
      (system, ⟨1, "", log ++ messageLine ("Error: " ++ fault.message)⟩) := by
  simp only [writeDrawing, overflow, failure, Action.run]

theorem run_writeDrawing_of_unwritable
    {history : History}
    {document : String}
    {fault : FileFault}
    (log : String)
    (rendered : history.render {} ({} : Settings).spacingY now = .ok document)
    (closed : system.writablePlace output = .error fault) :
    (writeDrawing input output now log history).run system =
      (system,
        ⟨1, "",
          log ++ messageLine ("Error: cannot write '" ++ output ++ "': " ++
            fault.message output)⟩) := by
  have unwritten : system.write output (Utf8.encode document.toList) = .error fault := by
    rw [FileSystem.write, closed]
    rfl
  have opening (rest : String) :
      "Error: cannot write '" ++ rest = "Error: " ++ ("cannot write '" ++ rest) := by
    simp only [← String.append_assoc, String.reduceAppend]
  simp only [writeDrawing, rendered, Action.run, unwritten, failure, String.append_assoc, opening]

/-- A drawing of the history is made and then written, if both can be done. -/
theorem ending_writeDrawing
    (asked : Invocation.ofArguments arguments = .ok (.conversion input output verbose))
    (readable : system.read input = .ok contents)
    (read : Script.ofSource (sourceOfContents contents) = .ok script) :
    Ending system arguments now
      ((writeDrawing input output now (script.log verbose ++ (script.history {}).warnings)
        (script.history {})).run system) := by
  cases rendered : (script.history {}).render {} ({} : Settings).spacingY now with
  | error fault =>
      rw [run_writeDrawing_of_overflow _ rendered]
      exact .overflowed asked readable read rendered
  | ok document =>
      cases writable : system.writablePlace output with
      | error fault =>
          rw [run_writeDrawing_of_unwritable _ rendered writable]
          exact .hindered asked (.unwritable readable read writable)
      | ok place =>
          rw [run_writeDrawing _ rendered writable]
          exact .drawn asked readable read rendered writable

/-- However the contents of an input are, drawing them ends in one of the known ways. -/
theorem ending_drawContents
    (asked : Invocation.ofArguments arguments = .ok (.conversion input output verbose))
    (readable : system.read input = .ok contents) :
    Ending system arguments now
      ((drawContents input output now verbose contents).run system) := by
  by_cases announced : diagramKind (sourceOfContents contents).toList = .gitGraph
  case pos =>
    have read := Script.ofSource_eq_ok_iff.mpr ⟨announced, rfl⟩
    rw [run_drawContents_of_read read]
    exact ending_writeDrawing asked readable read
  case neg =>
    rw [run_drawContents_of_foreign announced]
    exact .hindered asked (.unsupported readable rfl announced)

theorem ending_command
    (system : FileSystem)
    (arguments : List String)
    (now : String) :
    Ending system arguments now ((command arguments now).run system) := by
  cases asked : Invocation.ofArguments arguments with
  | error fault =>
      rw [command, asked]
      exact .refused asked
  | ok invocation =>
      cases invocation with
      | help =>
          rw [command, asked]
          exact .helped asked
      | conversion input output verbose =>
          cases readable : system.read input with
          | error fault =>
              rw [run_command_of_unreadable asked readable]
              exact .hindered asked (.unreadable readable)
          | ok contents =>
              rw [run_command_of_readable asked readable]
              exact ending_drawContents asked readable

/-- Whatever keeps a command from drawing its input is all that it tells. -/
theorem run_command_of_obstacle
    {errors : String}
    (asked : Invocation.ofArguments arguments = .ok (.conversion input output verbose))
    (renders : RendersInput system input now)
    (obstacle : Obstacle system input output verbose errors) :
    (command arguments now).run system = (system, ⟨1, "", errors⟩) := by
  cases obstacle with
  | unreadable closed =>
      exact run_command_of_unreadable asked closed
  | unsupported readable announced foreign =>
      subst announced
      rw [run_command_of_readable asked readable, run_drawContents_of_foreign foreign]
  | unwritable readable read closed =>
      obtain ⟨document, rendered⟩ := renders _ _ readable read
      rw [run_command_of_readable asked readable, run_drawContents_of_read read,
        run_writeDrawing_of_unwritable _ rendered closed]

end Runs

/-- A printed message starts with the first letter of the message. -/
theorem head?_messageLine
    {message : String}
    {first : Char}
    (opens : message.toList.head? = some first)
    (plain : first ≠ '\x1b') :
    (messageLine message).toList.head? = some first := by
  obtain ⟨rest, shape⟩ := List.head?_eq_some_iff.mp opens
  have kept : afterEscapeSequence? (first :: rest) = none :=
    afterEscapeSequence?_eq_none (by simpa using plain)
  rw [messageLine, shape, withoutEscapeSequences, kept]
  simp

theorem head?_helpText : helpText.toList.head? = some 'U' := by
  have usage : "Usage: gitgraph-drawio [OPTIONS]\n\n".toList.head? = some 'U' := rfl
  delta helpText
  simp only [String.toList_append, List.head?_append, usage, Option.some_or]

theorem helpText_ne_empty : helpText ≠ "" := by
  intro empty
  have opening := head?_helpText
  rw [empty] at opening
  contradiction

/-- What is told of a drawing that was written is never mistaken for the help. -/
theorem History.successText_ne_helpText
    (history : History)
    (input output : String) :
    history.successText input output ≠ helpText := by
  have message := head?_toList_append (head?_toList_append
    (head?_toList_append (rfl : "Successfully converted ".toList.head? = some 'S') input)
    " to ") output
  have success : (history.successText input output).toList.head? = some 'S' :=
    head?_toList_append (head?_toList_append (head?_messageLine message (by decide)) _) _
  intro same
  rw [same, head?_helpText] at success
  contradiction

/-- The output of a conversion is settled by the arguments that were read. -/
theorem read_and_output_of_ofArguments
    {arguments : List String}
    {input output : String}
    {verbose : Bool}
    (asked : Invocation.ofArguments arguments = .ok (.conversion input output verbose)) :
    ∃ items,
      ArgumentItem.readAll none arguments = .ok items ∧
        ArgumentItem.Settles .output defaultOutput items output := by
  obtain ⟨items, read, ofItems⟩ := bind_eq_ok_iff.mp asked
  refine ⟨items, read, ?_⟩
  unfold Invocation.ofItems at ofItems
  split at ofItems
  · cases ofItems
  · split at ofItems
    case h_2 =>
      obtain ⟨-, rfl, -⟩ := Invocation.conversion.inj (Except.ok.inj ofItems)
      exact ArgumentItem.settles_lastValue? .output defaultOutput items
    all_goals contradiction

namespace Ending

variable {system : FileSystem} {arguments : List String} {now : String}
variable {ended : FileSystem × CommandResult}

/-- A command that fails has changed nothing. -/
theorem unchanged_of_failure
    (ending : Ending system arguments now ended)
    (failed : ended.2.exitCode ≠ 0) :
    ended.1 = system := by
  cases ending with
  | helped | drawn =>
      exact absurd rfl failed
  | refused | hindered | overflowed =>
      rfl

/-- A command that prints the help succeeds and has changed nothing. -/
theorem unchanged_of_help
    (ending : Ending system arguments now ended)
    (printed : ended.2.output = helpText) :
    ended.2.exitCode = 0 ∧ ended.1 = system := by
  cases ending with
  | helped =>
      exact ⟨rfl, rfl⟩
  | drawn =>
      exact absurd printed (History.successText_ne_helpText _ _ _)
  | refused | hindered | overflowed =>
      exact absurd printed.symm helpText_ne_empty

/-- A command that succeeds without printing the help has written its output and nothing else. -/
theorem exists_output_of_success
    (ending : Ending system arguments now ended)
    (succeeded : ended.2.exitCode = 0)
    (otherOutput : ended.2.output ≠ helpText) :
    ∃ items input output verbose place contents document,
      Invocation.ofArguments arguments = .ok (.conversion input output verbose) ∧
        ArgumentItem.readAll none arguments = .ok items ∧
        ArgumentItem.Settles .output defaultOutput items output ∧
        system.writablePlace output = .ok place ∧
        system.read input = .ok contents ∧
        convert {} {} now (sourceOfContents contents) = .ok document ∧
        system.WrittenAt ended.1 place (Utf8.encode document.toList) ∧
        ended.1.read output = .ok (Utf8.encode document.toList) := by
  cases ending with
  | helped =>
      exact absurd rfl otherOutput
  | @drawn input output document verbose contents script place asked readable read rendered
      writable =>
      obtain ⟨items, itemsRead, named⟩ := read_and_output_of_ofArguments asked
      have written := FileSystem.writtenAt_put writable (Utf8.encode document.toList)
      have converted : convert {} {} now (sourceOfContents contents) = .ok document :=
        bind_eq_ok_iff.mpr ⟨_, map_eq_ok_iff.mpr ⟨script, read, rfl⟩, rendered⟩
      exact ⟨items, input, output, verbose, place, contents, document, asked, itemsRead, named,
        writable, readable, converted, written, FileSystem.read_put writable _⟩
  | refused | hindered | overflowed =>
      cases succeeded

/-- A drawing that is asked for and does not overflow fails only for an obstacle. -/
theorem exists_obstacle_of_failure
    (ending : Ending system arguments now ended)
    {input output : String}
    {verbose : Bool}
    (asked : Invocation.ofArguments arguments = .ok (.conversion input output verbose))
    (renders : RendersInput system input now)
    (failed : ended.2.exitCode = 1) :
    ∃ errors, Obstacle system input output verbose errors := by
  cases ending with
  | hindered askedFor obstacle =>
      rw [asked] at askedFor
      cases askedFor
      exact ⟨_, obstacle⟩
  | overflowed askedFor readable read overflow =>
      rw [asked] at askedFor
      cases askedFor
      obtain ⟨document, rendered⟩ := renders _ _ readable read
      rw [rendered] at overflow
      contradiction
  | refused | helped | drawn =>
      cases failed

end Ending

/--
A command that fails changes nothing, and one that prints the help does not
either. Any other command that succeeds leaves everything as it was but for one
file, which is the one that the last output option names, or else the standard
one: it now holds the drawing of what was read from the input, even if it is the
input itself.

If a drawing is asked for, and no coordinate in it overflows, then the command
fails exactly if its input cannot be read, or else announces another kind of
diagram, or else the output cannot be written, and after its log tells just that.
-/
theorem command_changes_its_output_or_nothing
    (system : FileSystem)
    (arguments : List String)
    (now : String) :
    let ended := (command arguments now).run system
    (ended.2.exitCode ≠ 0 → ended.1 = system) ∧
      (ended.2.output = helpText → ended.2.exitCode = 0 ∧ ended.1 = system) ∧
      (ended.2.exitCode = 0 → ended.2.output ≠ helpText →
        ∃ items input output verbose place contents document,
          Invocation.ofArguments arguments = .ok (.conversion input output verbose) ∧
            ArgumentItem.readAll none arguments = .ok items ∧
            ArgumentItem.Settles .output defaultOutput items output ∧
            system.writablePlace output = .ok place ∧
            system.read input = .ok contents ∧
            convert {} {} now (sourceOfContents contents) = .ok document ∧
            system.WrittenAt ended.1 place (Utf8.encode document.toList) ∧
            ended.1.read output = .ok (Utf8.encode document.toList)) ∧
      ∀ input output verbose,
        Invocation.ofArguments arguments = .ok (.conversion input output verbose) →
          RendersInput system input now →
          (ended.2.exitCode = 1 ↔ ∃ errors, Obstacle system input output verbose errors) ∧
            ∀ errors, Obstacle system input output verbose errors → ended.2.errors = errors := by
  intro ended
  have ending : Ending system arguments now ended := ending_command system arguments now
  refine ⟨ending.unchanged_of_failure, ending.unchanged_of_help,
    ending.exists_output_of_success, ?hindered⟩
  intro input output verbose asked renders
  have told : ∀ errors, Obstacle system input output verbose errors →
      ended = (system, ⟨1, "", errors⟩) :=
    fun errors => run_command_of_obstacle asked renders
  refine ⟨⟨ending.exists_obstacle_of_failure asked renders, ?fails⟩, ?tells⟩
  case fails =>
    rintro ⟨errors, obstacle⟩
    rw [told errors obstacle]
  case tells =>
    intro errors obstacle
    rw [told errors obstacle]

/--
The workshop stays as it is if the last output that is named lies in a directory
that does not exist, although another one could have been written.
-/
theorem command_changes_nothing_in_the_workshop :
    let ended :=
      (command ["-i", "history.mmd", "-o", "history.mmd", "--output=lost/history.drawio"]
        "noon").run workshop
    ended.1 = workshop ∧
      ended.2.exitCode = 1 ∧
      ended.2.errors =
        messageLine ("Error: cannot write 'lost/history.drawio': " ++
          FileFault.notFound.message "lost/history.drawio") := by
  have asked :
      Invocation.ofArguments
          ["-i", "history.mmd", "-o", "history.mmd", "--output=lost/history.drawio"] =
        .ok (.conversion "history.mmd" "lost/history.drawio" false) := by
    rfl
  have readable :
      workshop.read "history.mmd" =
        .ok (Utf8.encode "gitGraph\r\ncommit\rcommit".toList) := by
    decide +kernel
  have closed : workshop.writablePlace "lost/history.drawio" = .error .notFound := by
    decide +kernel
  let script : Script := ⟨[.commit 0 none none, .commit 1 none none]⟩
  have read :
      Script.ofSource (sourceOfContents (Utf8.encode "gitGraph\r\ncommit\rcommit".toList)) =
        .ok script := by
    rw [sourceOfContents_encode]
    rfl
  have renders : RendersInput workshop "history.mmd" "noon" := by
    refine rendersInput_of_short (fun contents isRead => ?_) "noon"
    obtain rfl := Except.ok.inj (readable.symm.trans isRead)
    decide +kernel
  have silent : script.log false ++ (script.history {}).warnings = "" := by
    decide +kernel
  have obstacle : Obstacle workshop "history.mmd" "lost/history.drawio" false _ :=
    .unwritable readable read closed
  have effects :=
    command_changes_its_output_or_nothing workshop
      ["-i", "history.mmd", "-o", "history.mmd", "--output=lost/history.drawio"] "noon"
  -- What the theorem says of the run is all that is needed, so the run is not carried out.
  generalize (command _ _).run workshop = ended at effects ⊢
  obtain ⟨unchanged, -, -, told⟩ := effects
  obtain ⟨failsExactly, tells⟩ := told _ _ _ asked renders
  have failed := failsExactly.mpr ⟨_, obstacle⟩
  have message := tells _ obstacle
  simp only [silent, String.empty_append, String.reduceAppend] at message
  exact ⟨unchanged (failed ▸ by decide), failed, message⟩

end GitLanes
