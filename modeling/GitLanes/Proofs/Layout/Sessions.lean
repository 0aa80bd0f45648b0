import GitLanes.Proofs.Attempts
import GitLanes.Proofs.Layout.Growth
import GitLanes.Proofs.Layout.InPlace
import GitLanes.Proofs.Script.Reading

namespace GitLanes

/-!
# Sessions fail on foreign diagrams only

A step of a session either reads directives and carries them out, or it is a
source that announces another kind of diagram and does nothing at all. So the
steps that fail can be left out, and every layout in between is one that
directives have led to, on which work in place never breaks off.
-/

namespace Layout

/-- The two ways in which a step can end. -/
inductive StepEnding (settings : Settings) (layout : Layout) : Step → StepOutcome → Prop
  | refused
      {text : String}
      (foreign : diagramKind text.toList ≠ .gitGraph) :
      StepEnding settings layout (.source text)
        ⟨.source text, layout, layout, some (.unsupportedDiagram (diagramKind text.toList))⟩
  | carriedOut
      {step : Step}
      {directives : List Directive}
      (said : step.directives = .ok directives)
      (native : ∀ text, step = .source text → diagramKind text.toList = .gitGraph) :
      StepEnding settings layout step ⟨step, layout, layout.run settings directives, none⟩

/-- Every step ends in one of these ways. -/
theorem stepEnding_attempt
    (settings : Settings)
    (layout : Layout)
    (step : Step) :
    StepEnding settings layout step (layout.attempt settings step) := by
  cases step with
  | source text =>
      by_cases announced : diagramKind text.toList = .gitGraph
      case pos =>
        have read := Script.ofSource_eq_ok_iff.mpr ⟨announced, rfl⟩
        have said : (Step.source text).directives = .ok (Script.ofLines text.toList).directives :=
          map_eq_ok_iff.mpr ⟨_, read, rfl⟩
        rw [attempt, perform, said]
        exact .carriedOut said fun _ same => Step.source.inj same ▸ announced
      case neg =>
        rw [attempt, perform, Step.directives, Script.ofSource_eq_error announced]
        exact .refused announced
  | line index text =>
      exact .carriedOut rfl nofun
  | directive given =>
      exact .carriedOut rfl nofun
  | look =>
      exact .carriedOut rfl nofun

/-- A step fails exactly if it is a source of another kind, and then changes nothing. -/
theorem StepEnding.fault_and_after
    {settings : Settings}
    {layout : Layout}
    {step : Step}
    {outcome : StepOutcome}
    (ending : StepEnding settings layout step outcome) :
    (outcome.fault ≠ none ↔
        ∃ text, outcome.step = .source text ∧ diagramKind text.toList ≠ .gitGraph) ∧
      ∀ fault,
        outcome.fault = some fault →
          outcome.after = outcome.before ∧ ∃ kind, fault = .unsupportedDiagram kind := by
  cases ending with
  | refused foreign =>
      refine ⟨iff_of_true (Option.some_ne_none _) ⟨_, rfl, foreign⟩, ?_⟩
      intro fault told
      exact ⟨rfl, _, (Option.some.inj told).symm⟩
  | carriedOut said native =>
      refine ⟨iff_of_false (fun failed => failed rfl) ?_, nofun⟩
      rintro ⟨text, same, foreign⟩
      exact foreign (native text same)

theorem exists_stepEnding_of_mem
    {settings : Settings}
    {layout : Layout}
    {steps : List Step}
    {outcome : StepOutcome}
    (member : outcome ∈ layout.session settings steps) :
    ∃ earlier step, StepEnding settings earlier step outcome := by
  induction steps generalizing layout with
  | nil =>
      contradiction
  | cons step rest inductionHypothesis =>
      rcases List.mem_cons.mp member with rfl | later
      · exact ⟨layout, step, stepEnding_attempt settings layout step⟩
      · exact inductionHypothesis later

/-- A session has one outcome for each of its steps, in order. -/
theorem map_step_session
    (settings : Settings)
    (layout : Layout)
    (steps : List Step) :
    (layout.session settings steps).map StepOutcome.step = steps := by
  induction steps generalizing layout with
  | nil =>
      rfl
  | cons step rest inductionHypothesis =>
      have ending := stepEnding_attempt settings layout step
      rw [session, List.map_cons, inductionHypothesis]
      generalize layout.attempt settings step = outcome at ending ⊢
      cases ending <;> rfl

theorem afterSession_cons
    (settings : Settings)
    (layout : Layout)
    (step : Step)
    (steps : List Step) :
    layout.afterSession settings (step :: steps) =
      (layout.attempt settings step).after.afterSession settings steps :=
  rfl

/-- The outcomes of the steps that did not fail. -/
def succeeded (outcomes : List StepOutcome) : List StepOutcome :=
  outcomes.filter fun outcome => outcome.fault.isNone

/-- Without the steps that fail a session has the same outcomes otherwise, and ends the same. -/
theorem session_without_failures
    (settings : Settings)
    (layout : Layout)
    (steps : List Step) :
    layout.session settings ((succeeded (layout.session settings steps)).map StepOutcome.step) =
        succeeded (layout.session settings steps) ∧
      layout.afterSession settings
          ((succeeded (layout.session settings steps)).map StepOutcome.step) =
        layout.afterSession settings steps := by
  induction steps generalizing layout with
  | nil =>
      exact ⟨rfl, rfl⟩
  | cons step rest inductionHypothesis =>
      have ending := stepEnding_attempt settings layout step
      rw [session, afterSession_cons, succeeded]
      generalize attempted : layout.attempt settings step = outcome at ending ⊢
      cases ending with
      | refused foreign =>
          exact inductionHypothesis layout
      | @carriedOut _ directives said native =>
          obtain ⟨sameOutcomes, sameEnd⟩ := inductionHypothesis (layout.run settings directives)
          rw [List.filter_cons_of_pos rfl, List.map_cons, session, afterSession_cons, attempted]
          exact ⟨congrArg _ sameOutcomes, sameEnd⟩

/-- A step leads from a layout that directives have led to to another one. -/
theorem exists_replay_after_attempt
    (settings : Settings)
    (earlier : List Directive)
    (step : Step) :
    ∃ directives,
      ((replay settings earlier).attempt settings step).after = replay settings directives := by
  have ending := stepEnding_attempt settings (replay settings earlier) step
  generalize (replay settings earlier).attempt settings step = outcome at ending ⊢
  cases ending with
  | refused foreign =>
      exact ⟨earlier, rfl⟩
  | @carriedOut _ directives said native =>
      exact ⟨earlier ++ directives, (replay_append settings earlier directives).symm⟩

end Layout

namespace Work

/-- Directives one after the other do the same to the draft as to the layout. -/
theorem run_forM_apply
    {settings : Settings}
    (scalable : settings.Scalable)
    (earlier directives : List Directive) :
    (directives.forM (apply settings.given)).run (Layout.replay settings earlier).draft =
      .ok () (Layout.replay settings (earlier ++ directives)).draft := by
  induction directives generalizing earlier with
  | nil =>
      rw [List.append_nil]
      rfl
  | cons directive rest inductionHypothesis =>
      have applied := run_apply scalable (Layout.workable_replay settings earlier) directive
      rw [← Layout.replay_concat] at applied
      have continued := inductionHypothesis (earlier ++ [directive])
      rw [List.append_assoc] at continued
      rw [List.forM, EStateM.run_bind, applied]
      exact continued

/-- A step that says directives carries them out on the draft as well. -/
theorem run_perform_of_said
    {settings : Settings}
    (scalable : settings.Scalable)
    (earlier : List Directive)
    {step : Step}
    {directives : List Directive}
    (said : step.directives = .ok directives) :
    (perform settings.given step).run (Layout.replay settings earlier).draft =
      .ok () (Layout.replay settings (earlier ++ directives)).draft := by
  have workable := Layout.workable_replay settings earlier
  cases step with
  | source text =>
      obtain ⟨script, read, rfl⟩ := map_eq_ok_iff.mp said
      rw [perform, read]
      exact run_forM_apply scalable earlier script.directives
  | line | directive =>
      obtain rfl := Except.ok.inj said
      rw [perform, run_apply scalable workable, Layout.replay_concat]
  | look =>
      obtain rfl := Except.ok.inj said
      rw [List.append_nil]
      rfl

/-- A source of another kind is refused while the draft is still as it was. -/
theorem run_perform_foreign
    (settings : GivenSettings)
    (draft : Draft)
    {text : String}
    (foreign : diagramKind text.toList ≠ .gitGraph) :
    (perform settings (.source text)).run draft =
      .error (.refused (.unsupportedDiagram (diagramKind text.toList))) draft := by
  rw [perform, Script.ofSource_eq_error foreign]
  rfl

end Work

namespace Layout

/-- A step does in place what it does to a layout, and fails only as it does there. -/
theorem attempt_draft
    {settings : Settings}
    (scalable : settings.Scalable)
    (earlier : List Directive)
    (step : Step) :
    (replay settings earlier).draft.attempt settings.given step =
      (((replay settings earlier).attempt settings step).fault.map Mishap.refused,
        ((replay settings earlier).attempt settings step).after.draft) := by
  have ending := stepEnding_attempt settings (replay settings earlier) step
  generalize (replay settings earlier).attempt settings step = outcome at ending ⊢
  cases ending with
  | refused foreign =>
      rw [Draft.attempt, Work.run_perform_foreign _ _ foreign]
      rfl
  | carriedOut said native =>
      rw [Draft.attempt, Work.run_perform_of_said scalable earlier said, replay_append]
      rfl

/-- A session on the draft of a layout leaves what the session on the layout leaves. -/
theorem session_draft
    {settings : Settings}
    (scalable : settings.Scalable)
    (earlier : List Directive)
    (steps : List Step) :
    (replay settings earlier).draft.session settings.given steps =
      ((replay settings earlier).session settings steps).map fun outcome =>
        (outcome.fault.map Mishap.refused, outcome.after.draft) := by
  induction steps generalizing earlier with
  | nil =>
      rfl
  | cons step rest inductionHypothesis =>
      obtain ⟨directives, led⟩ := exists_replay_after_attempt settings earlier step
      rw [Draft.session, session, attempt_draft scalable, List.map_cons, led]
      exact congrArg _ (inductionHypothesis directives)

/--
A step of a session fails exactly if it is a source that announces another kind of
diagram, and then changes nothing. Without the steps that fail, the other steps
have the same outcomes and the session ends with the same layout.

The same holds of a layout that is worked on in place, where every color and every
branch, the current one among them, is looked up, and where work that breaks off
leaves what was done before it: nothing ever breaks off but the steps that fail, and
these have not begun to change anything.
-/
theorem sessions_fail_only_on_foreign_diagrams
    (spacingX spacingY : Int)
    (palette : Palette)
    (steps : List Step) :
    let settings : Settings := ⟨.int spacingX, .int spacingY, palette⟩
    let outcomes := (start settings).session settings steps
    let kept := (outcomes.filter fun outcome => outcome.fault.isNone).map StepOutcome.step
    outcomes.map StepOutcome.step = steps ∧
      (∀ outcome ∈ outcomes,
        (outcome.fault ≠ none ↔
            ∃ text, outcome.step = .source text ∧ diagramKind text.toList ≠ .gitGraph) ∧
          ∀ fault,
            outcome.fault = some fault →
              outcome.after = outcome.before ∧ ∃ kind, fault = .unsupportedDiagram kind) ∧
      (start settings).session settings kept =
        (outcomes.filter fun outcome => outcome.fault.isNone) ∧
      (start settings).afterSession settings kept = (start settings).afterSession settings steps ∧
      Draft.start settings.given = .ok (start settings).draft ∧
      (start settings).draft.session settings.given steps =
        outcomes.map fun outcome => (outcome.fault.map Mishap.refused, outcome.after.draft) := by
  intro settings outcomes kept
  have withoutFailures := session_without_failures settings (start settings) steps
  refine ⟨map_step_session settings (start settings) steps, ?outcomes, withoutFailures.1,
    withoutFailures.2, start_given settings, ?inPlace⟩
  case outcomes =>
    intro outcome member
    obtain ⟨earlier, step, ending⟩ := exists_stepEnding_of_mem member
    exact ending.fault_and_after
  case inPlace =>
    exact session_draft (Settings.scalable_of_integers spacingX spacingY palette) [] steps

end Layout

end GitLanes
