import Mathlib.Data.List.Induction
import PocketCalc.Proofs.Stage

/-!
Contract: the leftmost item that cannot follow the items before it.

Owns:
- sequences without an item that offends, and the leftmost item that does;
- every sequence is of the one or of the other form;
- a run takes all items if none offends, and fails at the leftmost one that does.

Does not own: which items offend; each stage states that for its own.

An item offends against the items before it, for a cause and with a reason. The state that a run has
reached is no part of this. What ties the two together is a relation between the items read and the
state reached, which every item that does not offend keeps.
-/

namespace PocketCalc.Stage

variable {Cause State Item Reason : Type}

/-- Whether no item of a sequence offends. -/
def NoneOffends (Offends : List Item → Item → Cause → Reason → Prop) (items : List Item) : Prop :=
  ∀ before item after, items = before ++ item :: after →
    ∀ cause reason, ¬Offends before item cause reason

/-- Whether the leftmost item that offends does so for a cause. -/
def FirstOffends (Offends : List Item → Item → Cause → Reason → Prop) (items : List Item)
    (cause : Cause) (reason : Reason) : Prop :=
  ∃ before item after, items = before ++ item :: after ∧ NoneOffends Offends before ∧
    Offends before item cause reason

variable {Offends : List Item → Item → Cause → Reason → Prop}

theorem noneOffends_nil : NoneOffends Offends [] := by
  intro before item after split
  simp at split

theorem noneOffends_snoc_iff {before : List Item} {item : Item} :
    NoneOffends Offends (before ++ [item]) ↔
      NoneOffends Offends before ∧ ∀ cause reason, ¬Offends before item cause reason := by
  constructor
  · intro none
    refine ⟨fun earlier other between split => ?_, none before item [] rfl⟩
    exact none earlier other (between ++ [item]) (by simp [split])
  · rintro ⟨none, lastKept⟩ earlier other after split
    rcases List.eq_nil_or_concat after with rfl | ⟨between, last, rfl⟩
    · obtain ⟨rfl, sameItem⟩ := List.append_inj' split rfl
      rw [← List.singleton_inj.mp sameItem]
      exact lastKept
    · rw [List.concat_eq_append, ← List.cons_append, ← List.append_assoc] at split
      exact none earlier other between (List.append_inj' split rfl).1

variable (Offends) in
/-- Some item offends first, unless none does. -/
theorem noneOffends_or_firstOffends (items : List Item) :
    NoneOffends Offends items ∨ ∃ cause reason, FirstOffends Offends items cause reason := by
  induction items using List.reverseRecOn with
  | nil => exact Or.inl noneOffends_nil
  | append_singleton before item inductionHypothesis =>
      rcases inductionHypothesis with none |
        ⟨cause, reason, earlier, other, between, rfl, none, offends⟩
      · by_cases lastOffends : ∃ cause reason, Offends before item cause reason
        · obtain ⟨cause, reason, offends⟩ := lastOffends
          exact Or.inr ⟨cause, reason, before, item, [], rfl, none, offends⟩
        · exact Or.inl (noneOffends_snoc_iff.mpr
            ⟨none, fun cause reason offends => lastOffends ⟨cause, reason, offends⟩⟩)
      · exact Or.inr ⟨cause, reason, earlier, other, between ++ [item], by simp, none, offends⟩

section Runs

variable {step : State → Item → Except Cause State} {Follows : List Item → State → Prop}
  {initial : State}

/-- A run takes items of which none offends, if it takes one that does not. -/
theorem foldlM_of_noneOffends (start : Follows [] initial)
    (takes : ∀ before item reached, Follows before reached →
      (∀ cause reason, ¬Offends before item cause reason) →
      ∃ next, step reached item = .ok next ∧ Follows (before ++ [item]) next)
    {items : List Item} (none : NoneOffends Offends items) :
    ∃ reached, items.foldlM step initial = .ok reached ∧ Follows items reached := by
  induction items using List.reverseRecOn with
  | nil => exact ⟨initial, rfl, start⟩
  | append_singleton before item inductionHypothesis =>
      obtain ⟨beforeNone, lastKept⟩ := noneOffends_snoc_iff.mp none
      obtain ⟨reached, ran, follows⟩ := inductionHypothesis beforeNone
      obtain ⟨next, stepped, nextFollows⟩ := takes before item reached follows lastKept
      refine ⟨next, ?_, nextFollows⟩
      rw [List.foldlM_append, ran, ok_bind, foldlM_cons_eq_ok_iff]
      exact ⟨next, stepped, rfl⟩

/-- A run fails for the cause of the leftmost item that offends. -/
theorem foldlM_of_firstOffends (start : Follows [] initial)
    (takes : ∀ before item reached, Follows before reached →
      (∀ cause reason, ¬Offends before item cause reason) →
      ∃ next, step reached item = .ok next ∧ Follows (before ++ [item]) next)
    (refuses : ∀ before item reached cause reason, Follows before reached →
      Offends before item cause reason → step reached item = .error cause)
    {items : List Item} {cause : Cause} {reason : Reason}
    (offence : FirstOffends Offends items cause reason) :
    items.foldlM step initial = .error cause := by
  obtain ⟨before, item, after, rfl, none, offends⟩ := offence
  obtain ⟨reached, ran, follows⟩ := foldlM_of_noneOffends start takes none
  rw [List.foldlM_append, ran, ok_bind, List.foldlM_cons,
    refuses before item reached cause reason follows offends]
  rfl

end Runs

end PocketCalc.Stage
