import PipelinePlan.Proofs.Compilation.Boundary
import PipelinePlan.Proofs.Compilation.Isolation
import PipelinePlan.Proofs.Orchestrator
import PipelinePlan.Proofs.Placement.Ports

namespace PipelinePlan

theorem Compilation.orchestrator_error_kind {d : Description} {steps : List Step} {e : Error}
    (h : orchestrator d steps = .error e) : e.kind = .configuration := by
  unfold orchestrator at h
  split at h
  · by_cases hmany : 1 < d.orchestrator.length
    · rw [Orchestrator.marker?_of_many hmany] at h
      cases h
      rfl
    · obtain ⟨cli, hcli⟩ := Orchestrator.exists_marker?_eq_ok hmany
      rw [hcli] at h
      cases h
  · next hempty => exact Orchestrator.derive_error_kind (by simpa using hempty) h

namespace Source

variable {source : Source} {knows : Option (String → Bool)} {e : Error}

def placed (source : Source) (knows : Option (String → Bool)) : Except Error (List Placement) :=
  Placement.resolve (Compilation.expanded source knows source.extracted).value source.extracted
    source.description.transport source.overrides

theorem compileWith_eq_error_iff :
    source.compileWith knows = .error e ↔
      Compilation.orchestrator source.description source.extracted = .error e ∨
      (∃ found, Compilation.orchestrator source.description source.extracted = .ok found) ∧
        source.placed knows = .error e := by
  rw [Compilation.compileWith_eq, Compilation.compileFrom]
  change Except.bind (Compilation.orchestrator source.description source.extracted)
    (fun found => (source.placed knows).map _) = .error e ↔ _
  cases Compilation.orchestrator source.description source.extracted with
  | error e' => simp [Except.bind]
  | ok found => cases source.placed knows <;> simp [Except.bind, Except.map]

theorem exists_compileWith_eq_error_iff :
    (∃ e, source.compileWith knows = .error e) ↔
      (∃ e, Compilation.orchestrator source.description source.extracted = .error e) ∨
        ∃ e, source.placed knows = .error e := by
  simp only [compileWith_eq_error_iff]
  cases Compilation.orchestrator source.description source.extracted <;> simp

/-- Whatever makes a compilation fail, the configuration has to change. -/
theorem compileWith_error_kind (h : source.compileWith knows = .error e) :
    e.kind = .configuration := by
  rcases compileWith_eq_error_iff.mp h with horchestrator | ⟨-, hplaced⟩
  · exact Compilation.orchestrator_error_kind horchestrator
  · obtain ⟨_, _, _, -, -, -, rfl⟩ := Placement.resolve_eq_error_iff.mp hplaced
    rfl

def Misstated (source : Source) : Prop :=
  ∃ entry ∈ source.entries, ∃ e, entry.1.Misstates entry.2 e

theorem misstated_iff :
    source.Misstated ↔ ∃ e, source.description.topology.shapes source.extracted = .error e :=
  Topology.exists_shapes_eq_error_iff.symm

theorem Misstated.topology_ne_nil (h : source.Misstated) : source.description.topology ≠ [] := by
  intro hempty
  obtain ⟨entry, hentry, -⟩ := h
  rw [entries, hempty] at hentry
  cases hentry

theorem Misstated.orchestrator_eq (h : source.Misstated) :
    Compilation.orchestrator source.description source.extracted =
      Orchestrator.derive source.description.topology source.description.baseSpace
        source.description.transport source.description.orchestrator source.extracted := by
  rw [Compilation.orchestrator, if_neg (by simpa using h.topology_ne_nil)]

/-- A source with a misstated entry is refused exactly if there is another reason to refuse it or
both types at its boundary are given. In the latter case the error is about the first misstated
entry. -/
theorem compileWith_misstated_iff (hmisstated : source.Misstated)
    (knows : Option (String → Bool)) :
    ((∃ e, source.compileWith knows = .error e ∧ e.kind = .configuration) ↔
      Text.trim source.description.baseSpace = "" ∨
      1 < source.description.orchestrator.length ∨
      source.description.topology.BoundaryGiven ∨
      ∃ e, source.placed knows = .error e) ∧
    (Text.trim source.description.baseSpace ≠ "" → ¬1 < source.description.orchestrator.length →
      source.description.topology.BoundaryGiven →
      ∃ before entry after e, source.entries = before ++ entry :: after ∧
        (∀ other ∈ before, ∀ e, ¬other.1.Misstates other.2 e) ∧ entry.1.Misstates entry.2 e ∧
        source.compileWith knows = .error e) := by
  have htopology := hmisstated.topology_ne_nil
  have hshapes := misstated_iff.mp hmisstated
  constructor
  · have hkind : (∃ e, source.compileWith knows = .error e ∧ e.kind = .configuration) ↔
        ∃ e, source.compileWith knows = .error e :=
      exists_congr fun e => and_iff_left_of_imp compileWith_error_kind
    rw [hkind, exists_compileWith_eq_error_iff, hmisstated.orchestrator_eq,
      Orchestrator.exists_derive_eq_error_iff htopology hshapes, or_assoc, or_assoc]
  · intro hspace hmarkers hgiven
    obtain ⟨e, he⟩ := hshapes
    obtain ⟨before, entry, after, hsplit, hbefore, hentry⟩ := Topology.shapes_eq_error_iff.mp he
    refine ⟨before, entry, after, e, hsplit, hbefore, hentry, ?_⟩
    rw [compileWith_eq_error_iff, hmisstated.orchestrator_eq]
    exact .inl ((Orchestrator.derive_eq_error_iff htopology).mpr
      (.inr (.inr ⟨hspace, hmarkers, hgiven, he⟩)))

def paying (cardinality inputType : String) : Source where
  name := "paying"
  description := {
    baseSpace := "acme"
    steps := [{ name := "pay", grpcEnabled := some false, restEnabled := some true }]
    topology := [{ name := "pay", inputType, outputType := "acme.Bill",
                   cardinality := some cardinality }] }

def payingShapes (cardinality inputType : String) : Except Error (List Shape) :=
  (paying cardinality inputType).description.topology.shapes (paying cardinality inputType).extracted

theorem paying_facts :
    (payingShapes "rarely" "acme.Raw").toOption = none ∧
    (payingShapes "rarely" "").toOption = none ∧
    (payingShapes "EXPANSION" "").toOption = none ∧
    Text.trim "acme.Raw" ≠ "" ∧ Text.trim "acme.Bill" ≠ "" ∧
    (paying "rarely" "").compile.toOption.isSome = true ∧
    (paying "EXPANSION" "").compile.toOption.isSome = true := by
  decide +kernel

theorem paying_misstated {cardinality inputType : String}
    (h : (payingShapes cardinality inputType).toOption = none) :
    (paying cardinality inputType).Misstated :=
  misstated_iff.mpr (toOption_eq_none_iff.mp h)

theorem paying_refused : (paying "rarely" "acme.Raw").Misstated ∧
    ∃ e, (paying "rarely" "acme.Raw").compileWith none = .error e ∧ e.kind = .configuration := by
  obtain ⟨hshapes, -, -, hinput, houtput, -⟩ := paying_facts
  have hmisstated := paying_misstated hshapes
  refine ⟨hmisstated, (compileWith_misstated_iff hmisstated none).1.mpr ?_⟩
  exact .inr (.inr (.inl ⟨_, _, rfl, rfl, hinput, houtput⟩))

/-- Neither an unknown cardinality nor one that is not that of the step is noticed where the first
entry has no type. -/
theorem paying_unnoticed :
    ((paying "rarely" "").Misstated ∧ ∃ result, (paying "rarely" "").compile = .ok result) ∧
    (paying "EXPANSION" "").Misstated ∧ ∃ result, (paying "EXPANSION" "").compile = .ok result := by
  obtain ⟨-, hunknown, hother, -, -, hcompiles, hcompiles'⟩ := paying_facts
  obtain ⟨result, hresult⟩ := Option.isSome_iff_exists.mp hcompiles
  obtain ⟨result', hresult'⟩ := Option.isSome_iff_exists.mp hcompiles'
  exact ⟨⟨paying_misstated hunknown, result, toOption_eq_some_iff.mp hresult⟩,
    paying_misstated hother, result', toOption_eq_some_iff.mp hresult'⟩

end Source

end PipelinePlan
