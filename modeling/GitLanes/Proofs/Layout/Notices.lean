import GitLanes.Proofs.Layout.Condensation
import GitLanes.Proofs.Layout.Lanes

namespace GitLanes

/-!
# What is told of a script

A notice is about one directive and the directives in front of it. Whether a
name is known there and which lane is free can be read off the names declared so
far, and whether there is something to merge off the history they have laid out,
so nothing of the layout itself is needed to say what it tells.
-/

/-- The directives lay out a branch of a name that has a last commit. -/
def HasTipAfter (settings : Settings) (directives : List Directive) (name : String) : Prop :=
  ∃ branch ∈ (Script.history settings ⟨directives⟩).branches,
    branch.name = name ∧ branch.tip.isSome

instance (settings : Settings) (directives : List Directive) (name : String) :
    Decidable (HasTipAfter settings directives name) :=
  inferInstanceAs
    (Decidable
      (∃ branch ∈ (Script.history settings ⟨directives⟩).branches,
        branch.name = name ∧ branch.tip.isSome))

/-- What there is to tell of a directive behind others. -/
def Directive.told? (settings : Settings) (earlier : List Directive) :
    Directive → Option Notice
  | .commit _ _ _ => none
  | .branch _ name =>
      if IsKnownAfter earlier name then
        some (.revisited name)
      else
        some (.created name (declaredNames earlier).length)
  | .checkout index name =>
      if IsKnownAfter earlier name then none else some (.unknownCheckout index name)
  | .merge index name =>
      if HasTipAfter settings earlier name then none else some (.nothingToMerge index name)
  | .unrecognized index text => some (.ignored index text)

/-- What there is to tell of directives behind others, each one behind all that precede it. -/
def toldAfter (settings : Settings) (earlier : List Directive) : List Directive → List Notice
  | [] => []
  | directive :: rest =>
      (directive.told? settings earlier).toList ++
        toldAfter settings (earlier ++ [directive]) rest

namespace Layout

/-- The branches that are found are those that the directives make known. -/
theorem isSome_find?_replay_iff
    (settings : Settings)
    {directives : List Directive}
    {name : String} :
    ((replay settings directives).table.find? name).isSome ↔ IsKnownAfter directives name := by
  rw [Option.isSome_iff_ne_none, ne_eq, BranchTable.find?_eq_none_iff, not_not]
  exact (isKnownAfter_iff settings).symm

/-- The branches that have a tip are those that the directives give one. -/
theorem isSome_tip_replay_iff
    (settings : Settings)
    {directives : List Directive}
    {name : String} :
    (((replay settings directives).table.find? name).bind Branch.tip).isSome ↔
      HasTipAfter settings directives name := by
  have distinct := (consistent_replay settings directives).distinctNames
  constructor
  · intro hasTip
    obtain ⟨tip, found⟩ := Option.isSome_iff_exists.mp hasTip
    obtain ⟨branch, lookup, isTip⟩ := Option.bind_eq_some_iff.mp found
    obtain ⟨member, hasName⟩ := BranchTable.mem_of_find? lookup
    exact ⟨branch, member, hasName, Option.isSome_of_eq_some isTip⟩
  · rintro ⟨branch, member, hasName, hasTip⟩
    have lookup := (BranchTable.find?_eq_some_iff distinct).mpr ⟨member, hasName⟩
    rw [lookup]
    exact hasTip

/-- A layout tells what there is to tell of the directives that led to it and of the next one. -/
theorem notice?_replay
    (settings : Settings)
    (earlier : List Directive)
    (directive : Directive) :
    (replay settings earlier).notice? directive = directive.told? settings earlier := by
  cases directive with
  | branch index name =>
      have nextLane : (replay settings earlier).nextLane = (declaredNames earlier).length := by
        rw [(numbered_replay settings earlier).nextLane, ← names_replay settings earlier,
          BranchTable.names, List.length_map, branches]
      simp only [notice?, Directive.told?, isSome_find?_replay_iff, nextLane]
  | checkout index name =>
      simp only [notice?, Directive.told?, isSome_find?_replay_iff]
  | merge index name =>
      simp only [notice?, Directive.told?, isSome_tip_replay_iff]
  | commit | unrecognized =>
      rfl

/-- The notices of directives are told by the directives before each of them. -/
theorem notices_replay
    (settings : Settings)
    (earlier directives : List Directive) :
    (replay settings earlier).notices settings directives =
      toldAfter settings earlier directives := by
  induction directives generalizing earlier with
  | nil =>
      rfl
  | cons directive rest inductionHypothesis =>
      rw [notices, toldAfter, notice?_replay, ← replay_concat, inductionHypothesis]

end Layout

end GitLanes
