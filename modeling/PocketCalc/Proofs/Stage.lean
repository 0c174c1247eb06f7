import Mathlib.Control.Monad.Basic

/-!
Contract: laws of stages that may refuse, and of runs that pass a state along.

Owns:
- the two ways in which a stage followed by another succeeds or fails;
- runs: what every step keeps, a run keeps, also if it speaks of the items read so far, and what
  commutes with every step commutes with a run;
- the first failure of a stage that treats the items of a list one by one.

Does not own: any particular stage.
-/

namespace PocketCalc.Stage

variable {Cause State Item Value : Type}

@[simp]
theorem ok_bind (value : State) (next : State → Except Cause Value) :
    (Except.ok value >>= next) = next value :=
  rfl

@[simp]
theorem error_bind (cause : Cause) (next : State → Except Cause Value) :
    (Except.error cause >>= next) = .error cause :=
  rfl

theorem bind_eq_ok_iff {outcome : Except Cause State} {next : State → Except Cause Value}
    {result : Value} :
    outcome >>= next = .ok result ↔ ∃ value, outcome = .ok value ∧ next value = .ok result := by
  cases outcome <;> simp

theorem bind_eq_error_iff {outcome : Except Cause State} {next : State → Except Cause Value}
    {cause : Cause} :
    outcome >>= next = .error cause ↔
      outcome = .error cause ∨ ∃ value, outcome = .ok value ∧ next value = .error cause := by
  cases outcome <;> simp

/-! ## Runs -/

section Runs

variable {step : State → Item → Except Cause State}

theorem foldlM_cons_eq_ok_iff {item : Item} {items : List Item} {state final : State} :
    (item :: items).foldlM step state = .ok final ↔
      ∃ next, step state item = .ok next ∧ items.foldlM step next = .ok final := by
  rw [List.foldlM_cons, bind_eq_ok_iff]

theorem foldlM_cons_eq_error_iff {item : Item} {items : List Item} {state : State}
    {cause : Cause} :
    (item :: items).foldlM step state = .error cause ↔
      step state item = .error cause ∨
        ∃ next, step state item = .ok next ∧ items.foldlM step next = .error cause := by
  rw [List.foldlM_cons, bind_eq_error_iff]

/-- What every step of a run keeps, the run keeps. -/
theorem foldlM_keeps {Keeps : State → Prop} {items : List Item} {state final : State}
    (preserved : ∀ item ∈ items, ∀ state next, Keeps state → step state item = .ok next →
      Keeps next)
    (start : Keeps state) (run : items.foldlM step state = .ok final) : Keeps final := by
  induction items generalizing state with
  | nil =>
      cases run
      exact start
  | cons item items inductionHypothesis =>
      obtain ⟨next, stepped, rest⟩ := foldlM_cons_eq_ok_iff.mp run
      have kept := preserved item List.mem_cons_self state next start stepped
      exact inductionHypothesis
        (fun other member => preserved other (List.mem_cons_of_mem item member)) kept rest

/-- What every step hands on from the items read before it to those read after it, a run hands on to
all of its items. -/
theorem foldlM_follows (Follows : List Item → State → Prop) {before items : List Item}
    {state final : State}
    (followed : ∀ before item state next, Follows before state → step state item = .ok next →
      Follows (before ++ [item]) next)
    (start : Follows before state) (run : items.foldlM step state = .ok final) :
    Follows (before ++ items) final := by
  induction items generalizing before state with
  | nil =>
      cases run
      rw [List.append_nil]
      exact start
  | cons item items inductionHypothesis =>
      obtain ⟨next, stepped, rest⟩ := foldlM_cons_eq_ok_iff.mp run
      have nextFollows := followed before item state next start stepped
      have finalFollows := inductionHypothesis nextFollows rest
      rw [List.append_assoc, List.singleton_append] at finalFollows
      exact finalFollows

/-- A run fails at a step that fails, in a state that the steps before it keep. -/
theorem exists_step_of_foldlM_error (Keeps : State → Prop) {items : List Item} {state : State}
    {cause : Cause}
    (preserved : ∀ item ∈ items, ∀ state next, Keeps state → step state item = .ok next →
      Keeps next)
    (start : Keeps state) (run : items.foldlM step state = .error cause) :
    ∃ item ∈ items, ∃ reached, Keeps reached ∧ step reached item = .error cause := by
  induction items generalizing state with
  | nil => cases run
  | cons item items inductionHypothesis =>
      rcases foldlM_cons_eq_error_iff.mp run with failed | ⟨next, stepped, rest⟩
      · exact ⟨item, List.mem_cons_self, state, start, failed⟩
      · have kept := preserved item List.mem_cons_self state next start stepped
        obtain ⟨other, member, reached, keeps, failed⟩ := inductionHypothesis
          (fun other member => preserved other (List.mem_cons_of_mem item member)) kept rest
        exact ⟨other, List.mem_cons_of_mem item member, reached, keeps, failed⟩

/-- A run inside of a frame that every successful step leaves alone. -/
theorem foldlM_frame (frame : State → State) {items : List Item} {state final : State}
    (framed : ∀ state item next, step state item = .ok next →
      step (frame state) item = .ok (frame next))
    (run : items.foldlM step state = .ok final) :
    items.foldlM step (frame state) = .ok (frame final) := by
  induction items generalizing state with
  | nil =>
      cases run
      rfl
  | cons item items inductionHypothesis =>
      obtain ⟨next, stepped, rest⟩ := foldlM_cons_eq_ok_iff.mp run
      exact foldlM_cons_eq_ok_iff.mpr
        ⟨frame next, framed state item next stepped, inductionHypothesis rest⟩

/-- A map of states that commutes with every step commutes with a run. -/
theorem foldlM_map {map : State → State} {items : List Item}
    (commutes : ∀ state item, step (map state) item = (step state item).map map)
    (state : State) :
    items.foldlM step (map state) = (items.foldlM step state).map map := by
  induction items generalizing state with
  | nil => rfl
  | cons item items inductionHypothesis =>
      rw [List.foldlM_cons, List.foldlM_cons, commutes]
      cases step state item with
      | error cause => rfl
      | ok next => exact inductionHypothesis next

end Runs

/-! ## Items one by one -/

section Items

variable {treat : Item → Except Cause Value}

theorem mapM_cons_eq_ok_iff {item : Item} {items : List Item} {values : List Value} :
    (item :: items).mapM treat = .ok values ↔
      ∃ value rest, treat item = .ok value ∧ items.mapM treat = .ok rest ∧
        values = value :: rest := by
  rw [List.mapM_cons]
  simp only [bind_eq_ok_iff]
  constructor
  · rintro ⟨value, treated, rest, mapped, made⟩
    cases made
    exact ⟨value, rest, treated, mapped, rfl⟩
  · rintro ⟨value, rest, treated, mapped, rfl⟩
    exact ⟨value, treated, rest, mapped, rfl⟩

theorem forall_mem_of_mapM_eq_ok {Made : Value → Prop} {items : List Item} {values : List Value}
    (made : ∀ item ∈ items, ∀ value, treat item = .ok value → Made value)
    (mapped : items.mapM treat = .ok values) : ∀ value ∈ values, Made value := by
  induction items generalizing values with
  | nil =>
      cases mapped
      simp
  | cons item items inductionHypothesis =>
      obtain ⟨value, rest, treated, restMapped, rfl⟩ := mapM_cons_eq_ok_iff.mp mapped
      intro other member
      rcases List.mem_cons.mp member with rfl | inRest
      · exact made item List.mem_cons_self other treated
      · exact inductionHypothesis
          (fun item member => made item (List.mem_cons_of_mem _ member)) restMapped other inRest

theorem exists_of_mapM_eq_ok {items : List Item} {values : List Value}
    (mapped : items.mapM treat = .ok values) : ∀ item ∈ items, ∃ value, treat item = .ok value := by
  induction items generalizing values with
  | nil => simp
  | cons first items inductionHypothesis =>
      obtain ⟨value, rest, treated, restMapped, -⟩ := mapM_cons_eq_ok_iff.mp mapped
      intro item member
      rcases List.mem_cons.mp member with rfl | inItems
      · exact ⟨value, treated⟩
      · exact inductionHypothesis restMapped item inItems

/-- Items are refused for the first of them that is. -/
theorem mapM_eq_error_iff {items : List Item} {cause : Cause} :
    items.mapM treat = .error cause ↔
      ∃ before item after, items = before ++ item :: after ∧
        (∀ earlier ∈ before, ∃ value, treat earlier = .ok value) ∧
        treat item = .error cause := by
  induction items with
  | nil =>
      constructor
      · intro refused
        cases refused
      · rintro ⟨before, item, after, split, -⟩
        simp at split
  | cons item items inductionHypothesis =>
      rw [List.mapM_cons, bind_eq_error_iff]
      constructor
      · rintro (refused | ⟨value, treated, rest⟩)
        · exact ⟨[], item, items, rfl, by simp, refused⟩
        · rcases bind_eq_error_iff.mp rest with refused | ⟨values, -, impossible⟩
          · obtain ⟨before, other, after, rfl, treatedBefore, failed⟩ :=
              inductionHypothesis.mp refused
            refine ⟨item :: before, other, after, rfl, ?_, failed⟩
            intro earlier member
            rcases List.mem_cons.mp member with rfl | inBefore
            · exact ⟨value, treated⟩
            · exact treatedBefore earlier inBefore
          · cases impossible
      · rintro ⟨before, other, after, split, treatedBefore, failed⟩
        cases before with
        | nil =>
            cases split
            exact Or.inl failed
        | cons first before =>
            cases split
            obtain ⟨value, treated⟩ := treatedBefore item List.mem_cons_self
            refine Or.inr ⟨value, treated, bind_eq_error_iff.mpr (Or.inl ?_)⟩
            exact inductionHypothesis.mpr ⟨before, other, after, rfl,
              fun earlier member => treatedBefore earlier (List.mem_cons_of_mem _ member), failed⟩

end Items

end PocketCalc.Stage
