import GitLanes.Proofs.Command.Effects
import GitLanes.Proofs.Command.Wording
import GitLanes.Proofs.Layout.Notices
import GitLanes.Proofs.Layout.Topology
import GitLanes.Proofs.Topology.Cycles

namespace GitLanes

/-!
# The log

A command that succeeds logs one line for each thing there is to tell, and what
was logged can be read off the lines. Names and texts of a source only ever get
there between quotes, so no source can break a line or make up another one.
-/

/-- The components that log something. -/
inductive LogSource
  | parser
  | layout
  | command
  deriving Repr, DecidableEq

namespace LogSource

/-- The level and the name with which a component starts its lines. -/
def origin : LogSource → String
  | .parser => "DEBUG - gitgraph_drawio.parsers.gitgraph - "
  | .layout => "DEBUG - gitgraph_drawio.layout.engine - "
  | .command => "WARNING - gitgraph_drawio - "

theorem isPrintableText_origin (source : LogSource) :
    IsPrintableText source.origin := by
  cases source <;> exact .plain (by decide +kernel)

/-- The one letter at which the starts of the lines differ. -/
def letter : LogSource → Char
  | .parser => 'p'
  | .layout => 'l'
  | .command => 'o'

/-- No two components share their letter. -/
theorem letter_injective : Function.Injective letter := by
  intro first second same
  cases first <;> cases second <;> first | rfl | cases same

/-- The letter of a component stands at the same position of all its lines. -/
theorem getElem?_origin_append
    (source : LogSource)
    (message : String) :
    (source.origin ++ message).toList[24]? = some source.letter := by
  have inOrigin : source.origin.toList[24]? = some source.letter := by
    cases source <;> decide +kernel
  have within : 24 < source.origin.toList.length :=
    (List.getElem?_eq_some_iff.mp inOrigin).1
  rw [String.toList_append, List.getElem?_append_left within, inOrigin]

/-- A line tells which component has logged it and what. -/
theorem origin_append_inj
    {first second : LogSource}
    {firstMessage secondMessage : String}
    (same : first.origin ++ firstMessage = second.origin ++ secondMessage) :
    first = second ∧ firstMessage = secondMessage := by
  have sameLetter := first.getElem?_origin_append firstMessage
  rw [same, getElem?_origin_append, Option.some.injEq] at sameLetter
  obtain rfl := letter_injective sameLetter
  refine ⟨rfl, String.toList_injective ?_⟩
  have sameText := congrArg String.toList same
  rw [String.toList_append, String.toList_append] at sameText
  exact List.append_cancel_left sameText

end LogSource

/-- One thing that is logged by a command that succeeds. -/
inductive LogEvent
  | parsed (directives unrecognized : Nat)
  | noticed (notice : Notice)
  | cyclic
  deriving Repr, DecidableEq

namespace LogEvent

/-- The component that logs an event. -/
def source : LogEvent → LogSource
  | .parsed _ _ => .parser
  | .noticed _ => .layout
  | .cyclic => .command

/-- What is logged of an event. -/
def message : LogEvent → String
  | .parsed directives unrecognized =>
      "parsed " ++ integerText directives ++ " directives (" ++ integerText unrecognized ++
        " unrecognized)"
  | .noticed notice => notice.message
  | .cyclic => "history contains a cycle; check for repeated commit ids"

/-- The line of an event, without the newline that ends it. -/
def line (event : LogEvent) : String :=
  event.source.origin ++ event.message

/-- Every line of a log is printable, whatever the source was. -/
theorem isPrintableText_line (event : LogEvent) :
    IsPrintableText event.line := by
  refine event.source.isPrintableText_origin.append ?_
  cases event with
  | parsed directives unrecognized =>
      exact ((((IsPrintableText.plain (by decide +kernel)).append (.integer directives)).append
        (.plain (by decide +kernel))).append (.integer unrecognized)).append
          (.plain (by decide +kernel))
  | noticed notice =>
      exact notice.isPrintableText_message
  | cyclic =>
      exact .plain (by decide +kernel)

/-- The two counts are told apart, since no digit stands between or behind them. -/
theorem counts_of_message
    {directives unrecognized otherDirectives otherUnrecognized : Nat}
    (same :
      (parsed directives unrecognized).message =
        (parsed otherDirectives otherUnrecognized).message) :
    directives = otherDirectives ∧ unrecognized = otherUnrecognized := by
  have sameText := congrArg String.toList same
  simp only [message, String.toList_append, List.append_assoc] at sameText
  have noDigit
      {text : List Char}
      (blankFirst : text.head? = some ' ') :
      ∀ next ∈ text.head?, next.isDigit = false := by
    intro next starts
    obtain rfl := Option.some.inj (blankFirst.symm.trans starts)
    rfl
  obtain ⟨sameDirectives, sameRest⟩ :=
    run_append_inj isDigit_of_mem_integerText (noDigit rfl) isDigit_of_mem_integerText (noDigit rfl)
      (List.append_cancel_left sameText)
  obtain ⟨sameUnrecognized, -⟩ :=
    run_append_inj isDigit_of_mem_integerText (noDigit rfl) isDigit_of_mem_integerText (noDigit rfl)
      (List.append_cancel_left sameRest)
  have directivesAgree := integerText_injective (String.toList_injective sameDirectives)
  have unrecognizedAgree := integerText_injective (String.toList_injective sameUnrecognized)
  exact ⟨Int.ofNat_inj.mp directivesAgree, Int.ofNat_inj.mp unrecognizedAgree⟩

/-- An event can be told from its line. -/
theorem line_injective : Function.Injective line := by
  intro first second same
  obtain ⟨sameSource, sameMessage⟩ := LogSource.origin_append_inj same
  cases first with
  | parsed directives unrecognized =>
      cases second with
      | parsed otherDirectives otherUnrecognized =>
          obtain ⟨rfl, rfl⟩ := counts_of_message sameMessage
          rfl
      | noticed | cyclic =>
          cases sameSource
  | noticed notice =>
      cases second with
      | noticed other =>
          exact congrArg noticed (Notice.message_injective sameMessage)
      | parsed | cyclic =>
          cases sameSource
  | cyclic =>
      cases second with
      | cyclic =>
          rfl
      | parsed | noticed =>
          cases sameSource

end LogEvent

/-- The log that tells of events, each one on a line of its own. -/
def logText (events : List LogEvent) : String :=
  String.join (events.map fun event => event.line ++ "\n")

/-- Logs of events in a row are logs in a row. -/
theorem logText_append
    (first second : List LogEvent) :
    logText (first ++ second) = logText first ++ logText second := by
  rw [logText, List.map_append, String.join_append]
  rfl

theorem toList_logText_cons
    (event : LogEvent)
    (events : List LogEvent) :
    (logText (event :: events)).toList =
      event.line.toList ++ '\n' :: (logText events).toList := by
  rw [logText, List.map_cons, String.join_cons, String.toList_append, String.toList_append,
    List.append_assoc]
  rfl

/-- A log is broken into lines where one event ends, and nowhere else. -/
theorem splitOnP_logText (events : List LogEvent) :
    (logText events).toList.splitOnP isLineBreak =
      events.map (fun event => event.line.toList) ++ [[]] := by
  induction events with
  | nil =>
      exact List.splitOnP_nil
  | cons event events inductionHypothesis =>
      rw [toList_logText_cons,
        List.splitOnP_append_cons_of_forall_mem event.isPrintableText_line.isLineBreak_eq_false
          '\n' (by decide),
        inductionHypothesis]
      rfl

/-- A log tells of some events and of no others. -/
theorem logText_injective : Function.Injective logText := by
  intro first second same
  have sameLines := congrArg (·.toList.splitOnP isLineBreak) same
  simp only [splitOnP_logText] at sameLines
  have toList_line_injective : Function.Injective fun event : LogEvent => event.line.toList :=
    fun _ _ sameText => LogEvent.line_injective (String.toList_injective sameText)
  exact List.map_injective_iff.mpr toList_line_injective (List.append_cancel_right sameLines)

/-! The events of a script, in the order in which a command logs them. -/

namespace Script

/-- What is logged on request: that a script was read, and what there is to tell of it. -/
def toldEvents (script : Script) (verbose : Bool) : List LogEvent :=
  if verbose then
    .parsed script.length script.unrecognizedCount ::
      (toldAfter {} [] script.directives).map .noticed
  else
    []

/-- All that is logged of a script, with a cycle in its history at the end. -/
def logEvents (script : Script) (verbose : Bool) : List LogEvent :=
  script.toldEvents verbose ++ if (script.history {}).graph.isAcyclic then [] else [.cyclic]

/-- The line about a script that was read is the log of one event. -/
theorem logLine_eq (script : Script) :
    script.logLine = logText [.parsed script.length script.unrecognizedCount] := by
  have opening :
      "DEBUG - gitgraph_drawio.parsers.gitgraph - parsed " =
        "DEBUG - gitgraph_drawio.parsers.gitgraph - " ++ "parsed " := rfl
  change "DEBUG - gitgraph_drawio.parsers.gitgraph - parsed " ++ integerText script.length ++
      " directives (" ++ integerText script.unrecognizedCount ++ (" unrecognized)" ++ "\n") =
    "DEBUG - gitgraph_drawio.parsers.gitgraph - " ++
      ("parsed " ++ integerText script.length ++ " directives (" ++
        integerText script.unrecognizedCount ++ " unrecognized)") ++ "\n"
  rw [opening]
  simp only [String.append_assoc]

/-- What is logged on request tells of exactly the events on request. -/
theorem log_eq
    (script : Script)
    (verbose : Bool) :
    script.log verbose = logText (script.toldEvents verbose) := by
  cases verbose with
  | false =>
      rfl
  | true =>
      rw [toldEvents, if_pos rfl, ← List.singleton_append, logText_append, ← logLine_eq, logText,
        List.map_map, ← Layout.notices_replay]
      rfl

/-- No edge of a laid out history dangles. -/
theorem danglingEdges_history (settings : Settings) (script : Script) :
    (script.history settings).danglingEdges = [] :=
  History.danglingEdges_eq_nil (Layout.consistent_replay settings script.directives).edgesKnown

/-- The warnings about a history tell of its cycle, if it has one, and of nothing else. -/
theorem warnings_history (script : Script) :
    (script.history {}).warnings =
      logText (if (script.history {}).graph.isAcyclic then [] else [.cyclic]) := by
  rw [History.warnings, danglingEdges_history]
  cases (script.history {}).graph.isAcyclic with
  | true =>
      rfl
  | false =>
      decide +kernel

theorem log_append_warnings
    (script : Script)
    (verbose : Bool) :
    script.log verbose ++ (script.history {}).warnings = logText (script.logEvents verbose) := by
  rw [logEvents, logText_append, log_eq, warnings_history]

/-- The cycle of a history is logged, and nothing else is logged as one. -/
theorem cyclic_mem_logEvents_iff
    (script : Script)
    (verbose : Bool) :
    .cyclic ∈ script.logEvents verbose ↔
      ∃ id, Relation.TransGen (script.history {}).graph.Leads id id := by
  have notTold : .cyclic ∉ script.toldEvents verbose := by
    cases verbose <;> simp [toldEvents]
  have tested := Graph.isAcyclic_iff (Graph.wellFormed_graph (script.history {}))
  rw [← not_iff_not, not_exists, logEvents, List.mem_append, or_iff_right notTold]
  refine Iff.trans ?_ tested
  cases (script.history {}).graph.isAcyclic <;> simp

end Script

/--
A command that succeeds logs one line for each event. If it is asked to tell
more, the events are that the source was read, and then in the order of the
directives that something was not understood, that a branch was declared, that
an unknown branch was to be checked out, and that there was nothing to merge;
whether it is asked or not, a cycle in the history comes last. No line holds
another line break of any kind, no edge is ever said to dangle, and there are no
other events of which the same text could tell.
-/
theorem log_has_one_line_for_each_event
    {system : FileSystem}
    {arguments : List String}
    {now input output : String}
    {verbose : Bool}
    (asked : Invocation.ofArguments arguments = .ok (.conversion input output verbose))
    (succeeded : ((command arguments now).run system).2.exitCode = 0) :
    ∃ contents script,
      system.read input = .ok contents ∧
        Script.ofSource (sourceOfContents contents) = .ok script ∧
        let errors := ((command arguments now).run system).2.errors
        let events := script.logEvents verbose
        errors = String.join (events.map fun event => event.line ++ "\n") ∧
          errors.toList.splitOnP isLineBreak =
            events.map (fun event => event.line.toList) ++ [[]] ∧
          (∀ others,
            String.join (others.map fun event => event.line ++ "\n") = errors →
              others = events) ∧
          (.cyclic ∈ events ↔ ∃ id, Relation.TransGen (script.history {}).graph.Leads id id) ∧
          (script.history {}).danglingEdges = [] := by
  have ending := ending_command system arguments now
  generalize (command arguments now).run system = ended at ending succeeded ⊢
  cases ending with
  | refused invalid =>
      cases succeeded
  | helped askedHelp =>
      cases askedHelp.symm.trans asked
  | hindered | overflowed =>
      cases succeeded
  | drawn askedSame readable read rendered writable =>
      cases askedSame.symm.trans asked
      rename_i contents script place
      have told := script.log_append_warnings verbose
      refine ⟨contents, script, readable, read, told, told ▸ splitOnP_logText _, ?_,
        script.cyclic_mem_logEvents_iff verbose, script.danglingEdges_history {}⟩
      intro others same
      exact logText_injective (same.trans told)

/-- A source whose last line holds both quotes and a line separator. -/
def notebookSource : String :=
  "gitGraph\ncheckout gone\nbranch side\nmerge side\n'no'\u2028DEBUG - \""

/-- A directory with this source only. -/
def notebook : FileSystem where
  entries := [(["notes.mmd"], .file (Utf8.encode notebookSource.toList))]
  current := []

/-- The line separator and the quotes of the notebook stay within one line of the log. -/
theorem log_has_one_line_for_each_event_in_the_notebook :
    let ended := (command ["-v", "-inotes.mmd", "-onotes.drawio"] "noon").run notebook
    ended.2.exitCode = 0 ∧
      ended.2.errors =
        "DEBUG - gitgraph_drawio.parsers.gitgraph - parsed 4 directives (1 unrecognized)\n" ++
          "DEBUG - gitgraph_drawio.layout.engine - " ++
          "line 0: checkout of unknown branch 'gone' ignored\n" ++
          "DEBUG - gitgraph_drawio.layout.engine - branch 'side' created on lane 1\n" ++
          "DEBUG - gitgraph_drawio.layout.engine - line 2: nothing to merge from 'side'\n" ++
          "DEBUG - gitgraph_drawio.layout.engine - " ++
          "line 3 ignored: '\\'no\\'\\u2028DEBUG - \"'\n" := by
  have asked :
      Invocation.ofArguments ["-v", "-inotes.mmd", "-onotes.drawio"] =
        .ok (.conversion "notes.mmd" "notes.drawio" true) := by
    rfl
  have readable :
      notebook.read "notes.mmd" = .ok (Utf8.encode notebookSource.toList) := by
    decide +kernel
  have writable : notebook.writablePlace "notes.drawio" = .ok ["notes.drawio"] := by
    decide +kernel
  let script : Script := ⟨[
    .checkout 0 "gone", .branch 1 "side", .merge 2 "side",
    .unrecognized 3 "'no'\u2028DEBUG - \""]⟩
  have read :
      Script.ofSource (sourceOfContents (Utf8.encode notebookSource.toList)) = .ok script := by
    rw [sourceOfContents_encode]
    decide +kernel
  obtain ⟨document, rendered⟩ :
      ∃ document, (script.history {}).render {} ({} : Settings).spacingY "noon" = .ok document :=
    exists_eq_ok (by decide +kernel)
  have ran :=
    (run_command_of_readable asked readable).trans
      ((run_drawContents_of_read read).trans (run_writeDrawing _ rendered writable))
  have succeeded :
      ((command ["-v", "-inotes.mmd", "-onotes.drawio"] "noon").run notebook).2.exitCode = 0 := by
    rw [ran]
  obtain ⟨contents, sameScript, isRead, isScript, told, -⟩ :=
    log_has_one_line_for_each_event asked succeeded
  obtain rfl := Except.ok.inj (readable.symm.trans isRead)
  obtain rfl := Except.ok.inj (read.symm.trans isScript)
  refine ⟨succeeded, told.trans ?_⟩
  decide +kernel

end GitLanes
