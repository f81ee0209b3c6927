import PipelinePlan.Order.Expansion
import PipelinePlan.Proofs.List
import PipelinePlan.Proofs.Naming

namespace PipelinePlan.Order

def SyntheticStep.key (s : SyntheticStep) : Expander.Key := Expander.keyOf s.aspect s.type

def firstEffects (effects : List SyntheticStep) : List SyntheticStep :=
  effects.eraseDupsBy fun s t => s.key == t.key

/-- A place in an order: a step of the base order or a side effect. -/
inductive Slot where
  | step (identifier : String)
  | effect (s : SyntheticStep)

namespace Slot

def identifier : Slot → String
  | step identifier => identifier
  | effect s => s.identifier

def step? : Slot → Option String
  | step identifier => some identifier
  | effect _ => none

def effect? : Slot → Option SyntheticStep
  | step _ => none
  | effect s => some s

def repeats : Slot → Slot → Bool
  | effect s, effect t => s.key == t.key
  | _, _ => false

def firsts (slots : List Slot) : List Slot := slots.eraseDupsBy repeats

end Slot

namespace Expander

/-- The side effect of an aspect beside a step, if the aspect concerns the step and finds a type. -/
def candidate? (x : Expander) (step : String) (entry : String × Aspect) : Option SyntheticStep :=
  if x.inScope step entry.2 then
    (x.type? step entry.2.position).map (x.sideEffect step entry.1 · entry.2.position)
  else none

/-- The side effects that aspects in force could have on one side of a step. -/
def candidates (x : Expander) (position : Position) (step : String) : List SyntheticStep :=
  (x.eligible.filter (·.2.position == position)).filterMap (x.candidate? step)

def allCandidates (x : Expander) (base : List String) : List SyntheticStep :=
  base.flatMap fun step => x.candidates .before step ++ x.candidates .after step

def surrounded (x : Expander) (step : String) : List Slot :=
  (x.candidates .before step).map Slot.effect ++
    Slot.step step :: (x.candidates .after step).map Slot.effect

def lineUp (x : Expander) (base : List String) : List Slot := base.flatMap x.surrounded

/-- Whether there is anything to expand: steps, none of them a side effect, and an aspect in
force. -/
def Applies (x : Expander) (base : List String) : Prop :=
  base ≠ [] ∧ (∀ identifier ∈ base, Naming.isSideEffect identifier = false) ∧
    ∃ entry ∈ x.aspects.entries, entry.2.enabled = true ∧ Text.token entry.1 ≠ excludedAspect

end Expander

section Firsts

theorem firstEffects_concat (effects : List SyntheticStep) (s : SyntheticStep) :
    firstEffects (effects ++ [s]) =
      if (firstEffects effects).any (fun t => s.key == t.key) then firstEffects effects
      else firstEffects effects ++ [s] :=
  eraseDupsBy_concat effects s

theorem firsts_concat_step (slots : List Slot) (identifier : String) :
    Slot.firsts (slots ++ [Slot.step identifier]) =
      Slot.firsts slots ++ [Slot.step identifier] := by
  have hnone : (Slot.firsts slots).any (Slot.repeats (.step identifier)) = false := by
    simp [Slot.repeats]
  rw [Slot.firsts, eraseDupsBy_concat, ← Slot.firsts, hnone, if_neg Bool.false_ne_true]

theorem any_repeats_effect (slots : List Slot) (s : SyntheticStep) :
    slots.any (Slot.repeats (.effect s)) =
      (slots.filterMap Slot.effect?).any fun t => s.key == t.key := by
  induction slots with
  | nil => rfl
  | cons slot slots ih => cases slot <;> simp [Slot.repeats, Slot.effect?, ih]

theorem firsts_concat_effect (slots : List Slot) (s : SyntheticStep) :
    Slot.firsts (slots ++ [Slot.effect s]) =
      if ((Slot.firsts slots).filterMap Slot.effect?).any (fun t => s.key == t.key) then
        Slot.firsts slots
      else Slot.firsts slots ++ [Slot.effect s] := by
  rw [Slot.firsts, eraseDupsBy_concat, any_repeats_effect]
  rfl

theorem steps_firsts (slots : List Slot) :
    (Slot.firsts slots).filterMap Slot.step? = slots.filterMap Slot.step? := by
  induction slots using List.reverseRecOn with
  | nil => rfl
  | append_singleton slots slot ih =>
    cases slot with
    | step identifier => simp only [firsts_concat_step, List.filterMap_append, ih]
    | effect s =>
      rw [firsts_concat_effect]
      split <;> simp [Slot.step?, ih]

theorem effects_firsts (slots : List Slot) :
    (Slot.firsts slots).filterMap Slot.effect? = firstEffects (slots.filterMap Slot.effect?) := by
  -- From the end of the list: whether a slot stays depends on the slots before it.
  induction slots using List.reverseRecOn with
  | nil => rfl
  | append_singleton slots slot ih =>
    cases slot with
    | step identifier =>
      have hs : [Slot.step identifier].filterMap Slot.effect? = [] := rfl
      rw [firsts_concat_step, List.filterMap_append, List.filterMap_append, ih, hs,
        List.append_nil, List.append_nil]
    | effect s =>
      have hs : [Slot.effect s].filterMap Slot.effect? = [s] := rfl
      rw [firsts_concat_effect, ih, List.filterMap_append, hs, firstEffects_concat]
      split
      · exact ih
      · rw [List.filterMap_append, ih, hs]

/-- Without the side effects the steps are left. -/
theorem filter_identifiers {slots : List Slot} {identifiers : List String}
    (hstep : ∀ identifier, .step identifier ∈ slots → identifier ∉ identifiers)
    (heffect : ∀ s, .effect s ∈ slots → s.identifier ∈ identifiers) :
    (slots.map Slot.identifier).filter (· ∉ identifiers) = slots.filterMap Slot.step? := by
  induction slots with
  | nil => rfl
  | cons slot slots ih =>
    have hrest := ih (fun i hi => hstep i (List.mem_cons_of_mem _ hi))
      (fun s hs => heffect s (List.mem_cons_of_mem _ hs))
    cases slot with
    | step identifier =>
      have hout : (Slot.step identifier).identifier ∉ identifiers := hstep _ List.mem_cons_self
      rw [List.map_cons, List.filter_cons_of_pos (by simpa using hout), hrest]
      rfl
    | effect s =>
      have hin : (Slot.effect s).identifier ∈ identifiers := heffect _ List.mem_cons_self
      rw [List.map_cons, List.filter_cons_of_neg (by simpa using hin), hrest]
      rfl

end Firsts

namespace Expander

theorem filterMap_step_surrounded (x : Expander) (step : String) :
    (x.surrounded step).filterMap Slot.step? = [step] := by
  have hnone (effects : List SyntheticStep) :
      (effects.map Slot.effect).filterMap Slot.step? = [] := by
    simp [List.filterMap_map, Function.comp_def, Slot.step?]
  have hstep : (Slot.step step).step? = some step := rfl
  rw [surrounded, List.filterMap_append, hnone, List.filterMap_cons_some hstep, hnone]
  rfl

theorem filterMap_effect_surrounded (x : Expander) (step : String) :
    (x.surrounded step).filterMap Slot.effect? =
      x.candidates .before step ++ x.candidates .after step := by
  have hsome (effects : List SyntheticStep) :
      (effects.map Slot.effect).filterMap Slot.effect? = effects := by
    simp [List.filterMap_map, Function.comp_def, Slot.effect?]
  rw [surrounded, List.filterMap_append, hsome, List.filterMap_cons_none rfl, hsome]

theorem steps_lineUp (x : Expander) (base : List String) :
    (x.lineUp base).filterMap Slot.step? = base := by
  induction base with
  | nil => rfl
  | cons step base ih =>
    rw [lineUp, List.flatMap_cons, ← lineUp, List.filterMap_append, filterMap_step_surrounded, ih]
    rfl

theorem effects_lineUp (x : Expander) (base : List String) :
    (x.lineUp base).filterMap Slot.effect? = x.allCandidates base := by
  rw [lineUp, List.filterMap_flatMap, allCandidates]
  simp only [filterMap_effect_surrounded]

/-- A state has gone through some slots: it holds the ones that repeat no earlier one. -/
structure Records (state : State) (slots : List Slot) : Prop where
  order : state.expansion.order = (Slot.firsts slots).map Slot.identifier
  synthetic : state.expansion.synthetic = (Slot.firsts slots).filterMap Slot.effect?
  used : ∀ key, key ∈ state.used ↔ ∃ s ∈ state.expansion.synthetic, s.key = key

theorem Records.empty : Records {} [] := ⟨rfl, rfl, by simp⟩

theorem Records.any_key {state : State} {slots : List Slot} (h : Records state slots)
    (key : Key) :
    ((Slot.firsts slots).filterMap Slot.effect?).any (fun t => key == t.key) = true ↔
      key ∈ state.used := by
  rw [h.used, List.any_eq_true, h.synthetic]
  exact exists_congr fun t => and_congr_right fun _ => by rw [beq_iff_eq, eq_comm]

/-- A step of the base order is always added. -/
theorem Records.push {state : State} {slots : List Slot} (h : Records state slots)
    (step : String) :
    Records { state with
      expansion := { state.expansion with order := state.expansion.order ++ [step] } }
      (slots ++ [Slot.step step]) := by
  have hs : [Slot.step step].filterMap Slot.effect? = [] := rfl
  refine ⟨?_, ?_, h.used⟩
  · rw [firsts_concat_step, List.map_append, h.order]
    rfl
  · rw [firsts_concat_step, List.filterMap_append, hs, List.append_nil, h.synthetic]

def State.add (x : Expander) (state : State) (s : SyntheticStep) : State where
  expansion := {
    order := state.expansion.order ++ [s.identifier]
    synthetic := state.expansion.synthetic ++ [s] }
  used := s.key :: state.used
  diagnostics := state.diagnostics ++ x.unverified s

/-- An aspect adds its candidate unless a side effect with the same key stands already. -/
theorem insert_eq (x : Expander) (step : String) (state : State) (entry : String × Aspect) :
    x.insert step state entry =
      match x.candidate? step entry with
      | none => state
      | some s => if s.key ∈ state.used then state else state.add x s := by
  obtain ⟨name, aspect⟩ := entry
  simp only [insert, candidate?]
  cases x.inScope step aspect with
  | false => rfl
  | true =>
    cases x.type? step aspect.position with
    | none => rfl
    | some type =>
      by_cases hused : keyOf name type ∈ state.used <;>
        simp [hused, State.add, SyntheticStep.key, sideEffect]

theorem Records.add {state : State} {slots : List Slot} (h : Records state slots) (x : Expander)
    {s : SyntheticStep} (hs : s.key ∉ state.used) :
    Records (state.add x s) (slots ++ [Slot.effect s]) := by
  have hfirst : Slot.firsts (slots ++ [Slot.effect s]) = Slot.firsts slots ++ [Slot.effect s] := by
    rw [firsts_concat_effect, if_neg ((h.any_key s.key).not.mpr hs)]
  have heffect : [Slot.effect s].filterMap Slot.effect? = [s] := rfl
  refine ⟨?_, ?_, ?_⟩
  · rw [hfirst, List.map_append, ← h.order]
    rfl
  · rw [hfirst, List.filterMap_append, ← h.synthetic, heffect]
    rfl
  · intro key
    have hold := h.used key
    simp only [State.add, List.mem_cons, List.mem_append, hold]
    grind

theorem Records.skip {state : State} {slots : List Slot} (h : Records state slots)
    {s : SyntheticStep} (hs : s.key ∈ state.used) :
    Records state (slots ++ [Slot.effect s]) := by
  have hfirst : Slot.firsts (slots ++ [Slot.effect s]) = Slot.firsts slots := by
    rw [firsts_concat_effect, if_pos ((h.any_key s.key).mpr hs)]
  exact ⟨by rw [hfirst, h.order], by rw [hfirst, h.synthetic], h.used⟩

theorem Records.insert {state : State} {slots : List Slot} (h : Records state slots)
    (x : Expander) (step : String) (entry : String × Aspect) :
    Records (x.insert step state entry)
      (slots ++ (x.candidate? step entry).toList.map Slot.effect) := by
  rw [insert_eq]
  cases x.candidate? step entry with
  | none => simpa using h
  | some s =>
    by_cases hs : s.key ∈ state.used
    · simpa [hs] using h.skip hs
    · simpa [hs] using h.add x hs

theorem Records.insertAll {state : State} {slots : List Slot} (h : Records state slots)
    (x : Expander) (step : String) (entries : List (String × Aspect)) :
    Records (entries.foldl (x.insert step) state)
      (slots ++ (entries.filterMap (x.candidate? step)).map Slot.effect) := by
  induction entries generalizing state slots with
  | nil => simpa using h
  | cons entry entries ih =>
    have hnext := ih (h.insert x step entry)
    cases hc : x.candidate? step entry <;> simpa [hc] using hnext

theorem Records.expandStep {state : State} {slots : List Slot} (h : Records state slots)
    (x : Expander) (step : String) :
    Records (x.expandStep (x.eligible.filter (·.2.position == .before))
      (x.eligible.filter (·.2.position == .after)) state step) (slots ++ x.surrounded step) := by
  have hbefore := h.insertAll x step (x.eligible.filter (·.2.position == .before))
  have hafter := (hbefore.push step).insertAll x step (x.eligible.filter (·.2.position == .after))
  simpa [Expander.expandStep, surrounded, candidates] using hafter

theorem Records.expandAll {state : State} {slots : List Slot} (h : Records state slots)
    (x : Expander) (base : List String) :
    Records (base.foldl (x.expandStep (x.eligible.filter (·.2.position == .before))
      (x.eligible.filter (·.2.position == .after))) state) (slots ++ x.lineUp base) := by
  induction base generalizing state slots with
  | nil => simpa [lineUp] using h
  | cons step base ih =>
    have hnext := ih (h.expandStep x step)
    simpa [lineUp] using hnext

theorem mem_eligible {x : Expander} {entry : String × Aspect} :
    entry ∈ x.eligible ↔ entry ∈ x.aspects.entries ∧ entry.2.enabled = true ∧
      Text.token entry.1 ≠ excludedAspect := by
  simp [eligible]

theorem applies_iff (x : Expander) (base : List String) :
    x.Applies base ↔
      (base.isEmpty || x.aspects.isEmpty || base.any Naming.isSideEffect || x.eligible.isEmpty) =
        false := by
  simp only [Bool.or_eq_false_iff, List.any_eq_false, Bool.not_eq_true]
  constructor
  · rintro ⟨hbase, hnone, entry, hmem, hentry⟩
    have helig := mem_eligible.mpr ⟨hmem, hentry⟩
    refine ⟨⟨⟨?_, ?_⟩, hnone⟩, ?_⟩
    · simpa using hbase
    · simpa [Table.isEmpty] using List.ne_nil_of_mem hmem
    · simpa using List.ne_nil_of_mem helig
  · rintro ⟨⟨⟨hbase, -⟩, hnone⟩, helig⟩
    obtain ⟨entry, hentry⟩ := List.exists_mem_of_ne_nil x.eligible (by simpa using helig)
    exact ⟨by simpa using hbase, hnone, entry, mem_eligible.mp hentry⟩

theorem run_of_not_applies {x : Expander} {base : List String} (h : ¬x.Applies base) :
    x.run base = { value := { order := base } } := by
  rw [applies_iff, Bool.not_eq_false] at h
  rw [run, if_pos h]

theorem records_run {x : Expander} {base : List String} (h : x.Applies base) :
    ∃ state, Records state (x.lineUp base) ∧ (x.run base).value = state.expansion := by
  have hafter : x.eligible.filter (not ∘ fun entry => entry.2.position == .before) =
      x.eligible.filter (·.2.position == .after) := by
    apply List.filter_congr
    intro entry _
    cases hp : entry.2.position <;> simp [hp]
  refine ⟨_, Records.empty.expandAll x base, ?_⟩
  rw [applies_iff] at h
  rw [run, if_neg (by simp [h]), List.partition_eq_filter_filter, hafter]

theorem mem_candidates {x : Expander} {position : Position} {step : String} {s : SyntheticStep}
    (h : s ∈ x.candidates position step) :
    ∃ aspect type, s = x.sideEffect step aspect type position := by
  obtain ⟨⟨name, aspect⟩, hentry, hc⟩ := List.mem_filterMap.mp h
  have hposition : aspect.position = position := by simpa using (List.mem_filter.mp hentry).2
  unfold candidate? at hc
  split at hc
  · obtain ⟨type, -, hs⟩ := Option.map_eq_some_iff.mp hc
    exact ⟨name, type, by rw [← hs, hposition]⟩
  · cases hc

theorem mem_allCandidates {x : Expander} {base : List String} {s : SyntheticStep}
    (h : s ∈ x.allCandidates base) :
    ∃ step ∈ base, ∃ aspect type position, s = x.sideEffect step aspect type position := by
  obtain ⟨step, hstep, hs⟩ := List.mem_flatMap.mp h
  rcases List.mem_append.mp hs with hs | hs
  · obtain ⟨aspect, type, hs⟩ := mem_candidates hs
    exact ⟨step, hstep, aspect, type, _, hs⟩
  · obtain ⟨aspect, type, hs⟩ := mem_candidates hs
    exact ⟨step, hstep, aspect, type, _, hs⟩

theorem synthetic_of_applies {x : Expander} {base : List String} (h : x.Applies base) :
    (x.run base).value.synthetic = firstEffects (x.allCandidates base) := by
  obtain ⟨state, hrec, hrun⟩ := records_run h
  rw [hrun, hrec.synthetic, effects_firsts, effects_lineUp]

theorem order_of_applies {x : Expander} {base : List String} (h : x.Applies base) :
    (x.run base).value.order = (Slot.firsts (x.lineUp base)).map Slot.identifier := by
  obtain ⟨state, hrec, hrun⟩ := records_run h
  rw [hrun, hrec.order]

theorem mem_synthetic {x : Expander} {base : List String} {s : SyntheticStep}
    (h : s ∈ (x.run base).value.synthetic) :
    ∃ step ∈ base, ∃ aspect type position, s = x.sideEffect step aspect type position := by
  by_cases happ : x.Applies base
  · rw [synthetic_of_applies happ] at h
    exact mem_allCandidates ((eraseDupsBy_sublist _).mem h)
  · rw [run_of_not_applies happ] at h
    cases h

theorem isSideEffect_of_mem_synthetic {x : Expander} {base : List String} {s : SyntheticStep}
    (h : s ∈ (x.run base).value.synthetic) : Naming.isSideEffect s.identifier = true := by
  obtain ⟨step, -, aspect, type, position, rfl⟩ := mem_synthetic h
  simp only [sideEffect]
  exact Naming.isSideEffect_sideEffect _ aspect type x.transport

theorem order_erase_synthetic (x : Expander) (base : List String) :
    (x.run base).value.order.filter (· ∉ (x.run base).value.synthetic.map (·.identifier)) =
      base := by
  by_cases h : x.Applies base
  · obtain ⟨state, hrec, hrun⟩ := records_run h
    have hids (s : SyntheticStep) : s ∈ state.expansion.synthetic →
        Naming.isSideEffect s.identifier = true := by
      rw [← hrun]
      exact isSideEffect_of_mem_synthetic
    rw [hrun, hrec.order, filter_identifiers, steps_firsts, steps_lineUp]
    · intro identifier hi hmem
      obtain ⟨s, hs, rfl⟩ := List.mem_map.mp hmem
      -- No entry of the base order is marked as a side effect, or nothing would be expanded.
      have hbase : s.identifier ∈ base := by
        rw [← steps_lineUp x base, List.mem_filterMap]
        exact ⟨_, (eraseDupsBy_sublist _).mem hi, rfl⟩
      have hmark := hids s hs
      rw [h.2.1 _ hbase] at hmark
      cases hmark
    · intro s hs
      apply List.mem_map_of_mem
      rw [hrec.synthetic, List.mem_filterMap]
      exact ⟨_, hs, rfl⟩
  · rw [run_of_not_applies h]
    exact List.filter_eq_self.mpr (by simp)

end Expander

end PipelinePlan.Order
