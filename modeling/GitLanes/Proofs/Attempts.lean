import Mathlib.Data.List.Forall2

namespace GitLanes

/-!
# Attempts

An attempt either gives a value or says why not. An attempt for every item of a
list gives as many values as there are items, each paired with the item that it
was made of.
-/

/-- Two steps succeed exactly if the first one does and then the second one on its value. -/
theorem bind_eq_ok_iff
    {α β ε : Type}
    {first : Except ε α}
    {next : α → Except ε β}
    {result : β} :
    first >>= next = .ok result ↔ ∃ value, first = .ok value ∧ next value = .ok result := by
  cases first with
  | error fault =>
      exact ⟨nofun, nofun⟩
  | ok value =>
      exact ⟨fun found => ⟨value, rfl, found⟩, fun ⟨_, same, found⟩ => Except.ok.inj same ▸ found⟩

theorem pure_eq_ok_iff
    {α ε : Type}
    {value result : α} :
    (pure value : Except ε α) = .ok result ↔ result = value :=
  ⟨fun same => (Except.ok.inj same).symm, fun same => congrArg Except.ok same.symm⟩

/-- A value that is changed afterwards comes from an attempt that succeeded. -/
theorem map_eq_ok_iff
    {α β ε : Type}
    {onValue : α → β}
    {attempt : Except ε α}
    {result : β} :
    attempt.map onValue = .ok result ↔ ∃ value, attempt = .ok value ∧ onValue value = result := by
  cases attempt with
  | error fault =>
      exact ⟨nofun, nofun⟩
  | ok value =>
      exact ⟨fun found => ⟨value, rfl, Except.ok.inj found⟩,
        fun ⟨_, same, found⟩ => Except.ok.inj same ▸ congrArg Except.ok found⟩

/-- An attempt that succeeds has a value. -/
theorem exists_eq_ok
    {α ε : Type}
    {attempt : Except ε α}
    (succeeds : attempt.isOk = true) :
    ∃ value, attempt = .ok value := by
  cases attempt with
  | error fault =>
      contradiction
  | ok value =>
      exact ⟨value, rfl⟩

/-- An attempt under a condition has its one value, if it has any. -/
theorem eq_of_ite_eq_ok
    {α ε : Type}
    {allowed : Prop}
    [Decidable allowed]
    {value result : α}
    {fault : ε}
    (attempted : (if allowed then Except.ok value else Except.error fault) = .ok result) :
    result = value := by
  split_ifs at attempted
  exact (Except.ok.inj attempted).symm

/-- A list of attempts succeeds exactly if every one of them does, in order. -/
theorem mapM_eq_ok_iff
    {α β ε : Type}
    {step : α → Except ε β}
    {items : List α}
    {values : List β} :
    items.mapM step = .ok values ↔
      List.Forall₂ (fun item value => step item = .ok value) items values := by
  induction items generalizing values with
  | nil =>
      rw [List.mapM_nil, pure_eq_ok_iff, List.forall₂_nil_left_iff]
  | cons item rest inductionHypothesis =>
      simp only [List.mapM_cons, bind_eq_ok_iff, pure_eq_ok_iff, inductionHypothesis,
        List.forall₂_cons_left_iff]
      constructor
      · rintro ⟨value, first, others, related, same⟩
        exact ⟨value, others, first, related, same⟩
      · rintro ⟨value, others, first, related, same⟩
        exact ⟨value, first, others, related, same⟩

/-- What can be told of items alone can be told of what they became, if each pair agrees. -/
theorem map_eq_map_of_forall₂
    {α β γ : Type}
    {related : α → β → Prop}
    {ofItem : α → γ}
    {ofValue : β → γ}
    {items : List α}
    {values : List β}
    (paired : List.Forall₂ related items values)
    (told : ∀ item ∈ items, ∀ value, related item value → ofValue value = ofItem item) :
    values.map ofValue = items.map ofItem := by
  induction paired with
  | nil =>
      rfl
  | cons first rest inductionHypothesis =>
      rw [List.forall_mem_cons] at told
      rw [List.map_cons, List.map_cons, told.1 _ first, inductionHypothesis told.2]

/-- Every item of a paired list has its counterpart. -/
theorem exists_of_forall₂
    {α β : Type}
    {related : α → β → Prop}
    {items : List α}
    {values : List β}
    (paired : List.Forall₂ related items values)
    {item : α}
    (member : item ∈ items) :
    ∃ value ∈ values, related item value := by
  induction paired with
  | nil =>
      contradiction
  | cons first rest inductionHypothesis =>
      rcases List.mem_cons.mp member with rfl | later
      · exact ⟨_, List.mem_cons_self, first⟩
      · obtain ⟨value, listed, isRelated⟩ := inductionHypothesis later
        exact ⟨value, List.mem_cons_of_mem _ listed, isRelated⟩

theorem map_mapIdx
    {α β γ : Type}
    (items : List α)
    (ofItem : Nat → α → β)
    (ofValue : β → γ) :
    (items.mapIdx ofItem).map ofValue =
      items.mapIdx fun position item => ofValue (ofItem position item) :=
  List.ext_getElem (by simp) fun position _ _ => by simp

theorem mapIdx_eq_map
    {α β : Type}
    (items : List α)
    (ofItem : α → β) :
    (items.mapIdx fun _ => ofItem) = items.map ofItem :=
  List.ext_getElem (by simp) fun position _ _ => by simp

end GitLanes
