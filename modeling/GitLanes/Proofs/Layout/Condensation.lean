import GitLanes.Proofs.Layout.Growth

namespace GitLanes

/-!
# Condensed scripts

Some directives of a script have no effect of their own. What was not understood
is passed over, so is a checkout of a branch that nobody has declared, and to
declare a branch again is to check it out. A script that is freed of them lays
out the same history, and there is nothing left in it to be freed of.
-/

/-- Some directives make a branch known: it is the main one, or one of them declares it. -/
def IsKnownAfter (directives : List Directive) (name : String) : Prop :=
  name = "main" ∨ ∃ directive ∈ directives, directive.declared? = some name

instance (directives : List Directive) (name : String) :
    Decidable (IsKnownAfter directives name) :=
  inferInstanceAs
    (Decidable (name = "main" ∨ ∃ directive ∈ directives, directive.declared? = some name))

namespace Directive

/-- What a directive comes to behind others, if it has an effect there. -/
def condensed? (earlier : List Directive) : Directive → Option Directive
  | .unrecognized _ _ => none
  | .checkout index name =>
      if IsKnownAfter earlier name then
        some (.checkout index name)
      else
        none
  | .branch index name =>
      if IsKnownAfter earlier name then
        some (.checkout index name)
      else
        some (.branch index name)
  | directive => some directive

end Directive

/-- What directives that come after others come to, each one behind all that precede it. -/
def condensedAfter (earlier : List Directive) : List Directive → List Directive
  | [] => []
  | directive :: rest =>
      (directive.condensed? earlier).toList ++ condensedAfter (earlier ++ [directive]) rest

/-- A script without the directives that have no effect. -/
def Script.condensed (script : Script) : Script where
  directives := condensedAfter [] script.directives

theorem condensedAfter_append
    (earlier first second : List Directive) :
    condensedAfter earlier (first ++ second) =
      condensedAfter earlier first ++ condensedAfter (earlier ++ first) second := by
  induction first generalizing earlier with
  | nil =>
      simp [condensedAfter]
  | cons directive rest inductionHypothesis =>
      simp [condensedAfter, inductionHypothesis]

namespace Layout

/-- The names that directives make known are those of the table of branches. -/
theorem isKnownAfter_iff
    (settings : Settings)
    {directives : List Directive}
    {name : String} :
    IsKnownAfter directives name ↔ name ∈ (replay settings directives).table.names :=
  mem_names_replay_iff.symm

/-- Making a known branch current is the same whether it is declared again or checked out. -/
theorem branch_eq_checkout
    {settings : Settings}
    {layout : Layout}
    {name : String}
    (known : name ∈ layout.table.names) :
    layout.branch settings name = layout.checkout name := by
  cases found : layout.table.switch? name with
  | none =>
      exact absurd known (BranchTable.switch?_eq_none_iff.mp found)
  | some table =>
      simp only [branch, checkout, found]

/-- A checkout of a branch that does not exist changes nothing. -/
theorem checkout_of_unknown
    {layout : Layout}
    {name : String}
    (unknown : name ∉ layout.table.names) :
    layout.checkout name = layout := by
  simp only [checkout, BranchTable.switch?_eq_none_iff.mpr unknown]

/-- A directive does what it comes to. -/
theorem run_condensed?
    (settings : Settings)
    (earlier : List Directive)
    (directive : Directive) :
    (replay settings earlier).run settings (directive.condensed? earlier).toList =
      (replay settings earlier).apply settings directive := by
  cases directive with
  | branch index name =>
      by_cases known : IsKnownAfter earlier name
      · rw [Directive.condensed?, if_pos known]
        exact (branch_eq_checkout ((isKnownAfter_iff settings).mp known)).symm
      · rw [Directive.condensed?, if_neg known]
        rfl
  | checkout index name =>
      by_cases known : IsKnownAfter earlier name
      · rw [Directive.condensed?, if_pos known]
        rfl
      · rw [Directive.condensed?, if_neg known]
        exact (checkout_of_unknown (mt (isKnownAfter_iff settings).mpr known)).symm
  | _ =>
      rfl

/-- The directives that are kept lead from a layout to where all of them lead. -/
theorem run_condensedAfter
    (settings : Settings)
    (earlier directives : List Directive) :
    (replay settings earlier).run settings (condensedAfter earlier directives) =
      replay settings (earlier ++ directives) := by
  induction directives generalizing earlier with
  | nil =>
      rw [List.append_nil]
      rfl
  | cons directive rest inductionHypothesis =>
      rw [condensedAfter, run_append, run_condensed?, ← replay_concat, inductionHypothesis,
        List.append_assoc, List.singleton_append]

theorem replay_condensed
    (settings : Settings)
    (directives : List Directive) :
    replay settings (condensedAfter [] directives) = replay settings directives :=
  run_condensedAfter settings [] directives

/-- Directives that were not recognized have no effect. -/
theorem run_recognized
    (settings : Settings)
    (layout : Layout)
    (directives : List Directive) :
    layout.run settings (directives.filter Directive.isRecognized) =
      layout.run settings directives := by
  induction directives generalizing layout with
  | nil =>
      rfl
  | cons directive rest inductionHypothesis =>
      cases directive with
      | unrecognized index text =>
          exact inductionHypothesis layout
      | _ =>
          exact inductionHypothesis _

end Layout

/-- Condensed directives make the same names known. -/
theorem isKnownAfter_condensed_iff
    {directives : List Directive}
    {name : String} :
    IsKnownAfter (condensedAfter [] directives) name ↔ IsKnownAfter directives name := by
  rw [Layout.isKnownAfter_iff {}, Layout.replay_condensed, ← Layout.isKnownAfter_iff]

/-- What a directive comes to behind others comes to itself behind what those come to. -/
theorem Directive.condensed?_condensed
    {earlier : List Directive}
    {directive condensed : Directive}
    (comesTo : directive.condensed? earlier = some condensed) :
    condensed.condensed? (condensedAfter [] earlier) = some condensed := by
  cases directive with
  | branch index name =>
      by_cases known : IsKnownAfter earlier name
      · rw [condensed?, if_pos known] at comesTo
        obtain rfl := Option.some.inj comesTo
        exact if_pos (isKnownAfter_condensed_iff.mpr known)
      · rw [condensed?, if_neg known] at comesTo
        obtain rfl := Option.some.inj comesTo
        exact if_neg (isKnownAfter_condensed_iff.not.mpr known)
  | checkout index name =>
      by_cases known : IsKnownAfter earlier name
      · rw [condensed?, if_pos known] at comesTo
        obtain rfl := Option.some.inj comesTo
        exact if_pos (isKnownAfter_condensed_iff.mpr known)
      · rw [condensed?, if_neg known] at comesTo
        cases comesTo
  | unrecognized index text =>
      cases comesTo
  | _ =>
      cases comesTo
      rfl

/-- Condensing once more takes nothing away. -/
theorem condensedAfter_condensed
    (earlier directives : List Directive) :
    condensedAfter (condensedAfter [] earlier) (condensedAfter earlier directives) =
      condensedAfter earlier directives := by
  induction directives generalizing earlier with
  | nil =>
      rfl
  | cons directive rest inductionHypothesis =>
      have later := inductionHypothesis (earlier ++ [directive])
      rw [condensedAfter_append] at later
      cases comesTo : directive.condensed? earlier with
      | none =>
          simpa [condensedAfter, comesTo] using later
      | some condensed =>
          have kept := Directive.condensed?_condensed comesTo
          simpa [condensedAfter, comesTo, kept] using later

namespace Script

/--
Directives without an effect can be left out all at once.

What was not understood and checkouts of branches that are neither the main one
nor declared before are dropped, and a branch that is declared again is checked
out instead. The history stays what it was, also if only what was not understood
is dropped; and the rewriting makes no further directive one without an effect.
-/
theorem condensed_scripts_lay_out_the_same
    (settings : Settings)
    (script : Script) :
    script.condensed.history settings = script.history settings ∧
      Script.history settings ⟨script.recognized⟩ = script.history settings ∧
        script.condensed.condensed = script.condensed := by
  refine ⟨?condensed, ?recognized, ?settled⟩
  case condensed =>
    exact congrArg Layout.history (Layout.replay_condensed settings script.directives)
  case recognized =>
    exact congrArg Layout.history
      (Layout.run_recognized settings (Layout.start settings) script.directives)
  case settled =>
    exact congrArg Script.mk (condensedAfter_condensed [] script.directives)

end Script

end GitLanes
