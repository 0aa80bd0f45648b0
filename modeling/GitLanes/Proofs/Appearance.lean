import Mathlib.Data.List.Induction
import Mathlib.Data.List.Nodup

namespace GitLanes

/-!
# Order of first appearance

Items that come with repetitions are often listed once each, where they come for
the first time. What is added at the end then makes a difference only if it is
new, and an item stands before another one exactly if it appeared earlier.
-/

section

variable {α : Type} [BEq α] [LawfulBEq α]

/-- An item that comes last is kept only if it was not there before. -/
theorem eraseDups_concat
    (items : List α)
    (item : α) :
    (items ++ [item]).eraseDups =
      if item ∈ items then items.eraseDups else items.eraseDups ++ [item] := by
  rw [List.eraseDups_append]
  by_cases known : item ∈ items <;> simp [List.removeAll, List.eraseDups_cons, known]

theorem nodup_eraseDups (items : List α) : items.eraseDups.Nodup := by
  induction items using List.reverseRecOn with
  | nil =>
      exact List.nodup_nil
  | append_singleton items item inductionHypothesis =>
      rw [eraseDups_concat]
      split
      · exact inductionHypothesis
      · rename_i fresh
        rw [← List.mem_eraseDups] at fresh
        rw [← List.concat_eq_append]
        exact inductionHypothesis.concat fresh

/-- Where nothing is listed twice, nothing is taken away. -/
theorem eraseDups_eq_self
    {items : List α}
    (distinct : items.Nodup) :
    items.eraseDups = items := by
  induction items using List.reverseRecOn with
  | nil =>
      rfl
  | append_singleton items item inductionHypothesis =>
      obtain ⟨itemsDistinct, -, apart⟩ := List.nodup_append.mp distinct
      have fresh : item ∉ items := fun member => apart item member item List.mem_cons_self rfl
      rw [eraseDups_concat, if_neg fresh, inductionHypothesis itemsDistinct]

end

/-- Names that some items bear, once each, in the order of the first item that bears them. -/
structure ListedByFirst
    {α : Type}
    (bears : α → String → Bool)
    (items : List α)
    (names : List String) :
    Prop where
  distinct : names.Nodup
  covers : ∀ name, name ∈ names ↔ ∃ item ∈ items, bears item name = true
  ordered :
    names.Pairwise fun left right =>
      items.findIdx (bears · left) < items.findIdx (bears · right)

namespace ListedByFirst

variable {α : Type} {bears : α → String → Bool} {items : List α} {names : List String} {item : α}

theorem nil : ListedByFirst bears [] [] where
  distinct := List.nodup_nil
  covers := by simp
  ordered := List.Pairwise.nil

theorem findIdx_lt_length
    (listed : ListedByFirst bears items names)
    {name : String}
    (member : name ∈ names) :
    items.findIdx (bears · name) < items.length :=
  List.findIdx_lt_length.mpr ((listed.covers name).mp member)

/-- The first item that bears a listed name stays the first when others follow. -/
theorem findIdx_append
    (listed : ListedByFirst bears items names)
    {name : String}
    (member : name ∈ names)
    (others : List α) :
    (items ++ others).findIdx (bears · name) = items.findIdx (bears · name) := by
  rw [List.findIdx_append, if_pos (listed.findIdx_lt_length member)]

/-- Items that come later do not change the order in which names appeared. -/
theorem ordered_append
    (listed : ListedByFirst bears items names)
    (others : List α) :
    names.Pairwise fun left right =>
      (items ++ others).findIdx (bears · left) < (items ++ others).findIdx (bears · right) := by
  refine listed.ordered.imp_of_mem fun leftMember rightMember inFront => ?_
  rwa [listed.findIdx_append leftMember, listed.findIdx_append rightMember]

/-- One more item that bears no new name changes nothing. -/
theorem concat_old
    (listed : ListedByFirst bears items names)
    (old : ∀ name, bears item name = true → name ∈ names) :
    ListedByFirst bears (items ++ [item]) names where
  distinct := listed.distinct
  covers := by
    intro name
    constructor
    · intro member
      obtain ⟨bearer, isItem, bearsName⟩ := (listed.covers name).mp member
      exact ⟨bearer, List.mem_append_left _ isItem, bearsName⟩
    · rintro ⟨bearer, isItem, bearsName⟩
      rcases List.mem_append.mp isItem with before | isLast
      · exact (listed.covers name).mpr ⟨bearer, before, bearsName⟩
      · exact old name (List.mem_singleton.mp isLast ▸ bearsName)
  ordered := listed.ordered_append [item]

/-- One more item that bears a single new name puts this name last. -/
theorem concat_new
    (listed : ListedByFirst bears items names)
    {new : String}
    (bearsOnly : ∀ name, bears item name = true ↔ name = new)
    (fresh : new ∉ names) :
    ListedByFirst bears (items ++ [item]) (names ++ [new]) where
  distinct := by
    rw [← List.concat_eq_append]
    exact listed.distinct.concat fresh
  covers := by
    intro name
    rw [List.mem_append, List.mem_singleton, listed.covers]
    simp only [List.mem_append, List.mem_singleton, or_and_right, exists_or, exists_eq_left,
      bearsOnly]
  ordered := by
    rw [List.pairwise_append]
    refine ⟨listed.ordered_append [item], List.pairwise_singleton _ _, ?_⟩
    intro left member last isLast
    obtain rfl := List.mem_singleton.mp isLast
    have unborne : ¬ items.findIdx (bears · last) < items.length := fun within =>
      fresh ((listed.covers last).mpr (List.findIdx_lt_length.mp within))
    rw [listed.findIdx_append member, List.findIdx_append, if_neg unborne]
    exact Nat.lt_of_lt_of_le (listed.findIdx_lt_length member) (Nat.le_add_left _ _)

end ListedByFirst

/-- The names of all items of a kind, without repetitions, are in the order of these items. -/
theorem listedByFirst_eraseDups
    {α : Type}
    (ofKind : α → Bool)
    (nameOf : α → String)
    (items : List α) :
    ListedByFirst (fun item name => nameOf item == name && ofKind item) items
      ((items.filter ofKind).map nameOf).eraseDups := by
  induction items using List.reverseRecOn with
  | nil =>
      exact .nil
  | append_singleton items item inductionHypothesis =>
      rw [List.filter_append]
      by_cases isOfKind : ofKind item = true
      · rw [List.filter_cons_of_pos isOfKind, List.filter_nil, List.map_append, List.map_singleton,
          eraseDups_concat]
        split
        · rename_i known
          refine inductionHypothesis.concat_old fun name bears => ?_
          rw [Bool.and_eq_true, beq_iff_eq] at bears
          exact bears.1 ▸ List.mem_eraseDups.mpr known
        · rename_i unknown
          refine inductionHypothesis.concat_new (fun name => ?_) (mt List.mem_eraseDups.mp unknown)
          rw [isOfKind, Bool.and_true, beq_iff_eq, eq_comm]
      · rw [List.filter_cons_of_neg isOfKind, List.filter_nil, List.append_nil]
        refine inductionHypothesis.concat_old fun name bears => ?_
        rw [Bool.and_eq_true] at bears
        exact absurd bears.2 isOfKind

end GitLanes
