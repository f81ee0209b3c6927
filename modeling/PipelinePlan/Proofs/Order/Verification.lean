import PipelinePlan.Proofs.Order.LineUp

namespace PipelinePlan.Order

def rejections (knows : String → Bool) (effects : List SyntheticStep) : Diagnostics :=
  (effects.filter fun s => !knows s.identifier).map fun s =>
    .warning Diagnostic.unverifiedSyntheticStep s.identifier
      s!"side effect for aspect '{s.aspect}' does not resolve"

namespace Expander

def asking (x : Expander) (knows : Option (String → Bool)) : Expander := { x with knows }

theorem flatMap_unverified_none (x : Expander) (effects : List SyntheticStep) :
    effects.flatMap (x.asking none).unverified = [] :=
  List.flatMap_eq_nil_iff.mpr fun _ _ => rfl

theorem flatMap_unverified_some (x : Expander) (knows : String → Bool)
    (effects : List SyntheticStep) :
    effects.flatMap (x.asking (some knows)).unverified = rejections knows effects := by
  induction effects with
  | nil => rfl
  | cons s effects ih =>
    rw [List.flatMap_cons, ih]
    cases hknown : knows s.identifier <;> simp [rejections, unverified, asking, hknown]

/-- The remarks of a state are those on the side effects that it holds. -/
def State.Remarks (x : Expander) (state : State) : Prop :=
  state.diagnostics = state.expansion.synthetic.flatMap x.unverified

theorem remarks_insert {x : Expander} {state : State} (h : state.Remarks x) (step : String)
    (entry : String × Aspect) : (x.insert step state entry).Remarks x := by
  rw [insert_eq]
  cases x.candidate? step entry with
  | none => exact h
  | some s =>
    dsimp only
    split
    · exact h
    · simp only [State.Remarks, State.add, List.flatMap_append, List.flatMap_singleton]
      rw [h]

theorem remarks_insertAll {x : Expander} {state : State} (h : state.Remarks x) (step : String)
    (entries : List (String × Aspect)) : (entries.foldl (x.insert step) state).Remarks x := by
  induction entries generalizing state with
  | nil => exact h
  | cons entry entries ih => exact ih (remarks_insert h step entry)

theorem remarks_expandStep {x : Expander} {state : State} (h : state.Remarks x)
    (before after : List (String × Aspect)) (step : String) :
    (x.expandStep before after state step).Remarks x := by
  let placed := before.foldl (x.insert step) state
  have hbefore : placed.Remarks x := remarks_insertAll h step before
  -- The step itself is no side effect and is not remarked on.
  have hstep : State.Remarks x { placed with
      expansion := { placed.expansion with order := placed.expansion.order ++ [step] } } := hbefore
  exact remarks_insertAll hstep step after

theorem remarks_expandAll {x : Expander} {state : State} (h : state.Remarks x)
    (before after : List (String × Aspect)) (base : List String) :
    (base.foldl (x.expandStep before after) state).Remarks x := by
  induction base generalizing state with
  | nil => exact h
  | cons step base ih => exact ih (remarks_expandStep h before after step)

/-- An expansion remarks on the side effects that it adds, in the order in which it adds them. -/
theorem run_diagnostics (x : Expander) (base : List String) :
    (x.run base).diagnostics = (x.run base).value.synthetic.flatMap x.unverified := by
  rw [run]
  split
  · rfl
  · have hstart : State.Remarks x {} := rfl
    exact remarks_expandAll hstart _ _ base

/-- What is added, and where, does not depend on which identifiers exist. -/
theorem run_asking_value (x : Expander) (knows : Option (String → Bool)) (base : List String) :
    ((x.asking knows).run base).value = (x.run base).value := by
  by_cases h : x.Applies base
  · have h' : (x.asking knows).Applies base := h
    have horder := (order_of_applies h').trans (order_of_applies h).symm
    have hsynthetic := (synthetic_of_applies h').trans (synthetic_of_applies h).symm
    rw [Expansion.mk.injEq]
    exact ⟨horder, hsynthetic⟩
  · have h' : ¬(x.asking knows).Applies base := h
    rw [run_of_not_applies h, run_of_not_applies h']

theorem run_asking_none (x : Expander) (base : List String) :
    ((x.asking none).run base).diagnostics = [] := by
  rw [run_diagnostics, flatMap_unverified_none]

theorem run_asking_some (x : Expander) (knows : String → Bool) (base : List String) :
    ((x.asking (some knows)).run base).diagnostics =
      rejections knows (x.run base).value.synthetic := by
  rw [run_diagnostics, flatMap_unverified_some, run_asking_value]

end Expander

end PipelinePlan.Order
