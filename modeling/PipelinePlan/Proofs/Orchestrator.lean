import PipelinePlan.Compilation.Basic
import PipelinePlan.Proofs.Description.Matching
import PipelinePlan.Proofs.Except
import PipelinePlan.Proofs.List

namespace PipelinePlan

@[simp] theorem Shape.inputStreaming_ofFlags (input output : Bool) :
    (ofFlags input output).inputStreaming = input := by
  cases input <;> cases output <;> rfl

@[simp] theorem Shape.outputStreaming_ofFlags (input output : Bool) :
    (ofFlags input output).outputStreaming = output := by
  cases input <;> cases output <;> rfl

def TopologyEntry.contradiction (shape : Shape) (step : Step) : String :=
  s!"topology cardinality {shape.label} contradicts step '{step.name}' declared as {step.shape.label}"

/-- An entry that refers to a step, or to none, is misstated, and what is said about it. -/
inductive TopologyEntry.Misstates (entry : TopologyEntry) : Option Step → Error → Prop where
  | unknown {step : Option Step} {token : String} (hgiven : givenText entry.cardinality = some token)
      (hunknown : Shape.ofToken? token = none) :
      Misstates entry step (.unknownStepKind entry.name token)
  | contradicts {step : Step} {token : String} {shape : Shape}
      (hgiven : givenText entry.cardinality = some token)
      (hknown : Shape.ofToken? token = some shape) (hother : shape ≠ step.shape) :
      Misstates entry (some step) (.configuration entry.name (contradiction shape step))

namespace TopologyEntry

variable {entry : TopologyEntry} {step : Option Step} {e : Error}

theorem shapeWith_of_not_given (step : Option Step) (h : givenText entry.cardinality = none) :
    ∃ shape, entry.shapeWith step = .ok shape := by
  cases step <;> simp [shapeWith, shape, Declaration.shape?, h]

theorem shapeWith_of_unknown {token : String} (hgiven : givenText entry.cardinality = some token)
    (hunknown : Shape.ofToken? token = none) :
    entry.shapeWith step = .error (.unknownStepKind entry.name token) := by
  cases step <;>
    simp [shapeWith, shape, Declaration.shape?, hgiven, hunknown, bind, Except.bind]

theorem shapeWith_of_known {token : String} {shape : Shape}
    (hgiven : givenText entry.cardinality = some token)
    (hknown : Shape.ofToken? token = some shape) :
    entry.shapeWith none = .ok shape ∧
      ∀ step : Step, entry.shapeWith (some step) = if shape = step.shape then .ok shape
        else .error (.configuration entry.name (contradiction shape step)) := by
  have hshape : entry.shape = .ok shape := by
    simp [TopologyEntry.shape, Declaration.shape?, hgiven, hknown]
  refine ⟨hshape, fun step => ?_⟩
  simp only [shapeWith, hgiven, hshape, bind, Except.bind, beq_iff_eq]
  rfl

theorem Misstates.kind_eq (h : entry.Misstates step e) : e.kind = .configuration := by
  cases h <;> rfl

/-- An entry has a shape unless it is misstated. -/
theorem shapeWith_eq_error_iff : entry.shapeWith step = .error e ↔ entry.Misstates step e := by
  constructor
  · intro h
    cases hgiven : givenText entry.cardinality with
    | none =>
      obtain ⟨shape, hshape⟩ := shapeWith_of_not_given step hgiven
      rw [hshape] at h
      cases h
    | some token =>
      cases hknown : Shape.ofToken? token with
      | none =>
        rw [shapeWith_of_unknown hgiven hknown] at h
        cases h
        exact .unknown hgiven hknown
      | some shape =>
        obtain ⟨hnone, hsome⟩ := shapeWith_of_known hgiven hknown
        cases step with
        | none =>
          rw [hnone] at h
          cases h
        | some step =>
          rw [hsome] at h
          split at h
          · cases h
          · next hother =>
            cases h
            exact .contradicts hgiven hknown hother
  · intro h
    cases h with
    | unknown hgiven hunknown => exact shapeWith_of_unknown hgiven hunknown
    | contradicts hgiven hknown hother =>
      rw [(shapeWith_of_known hgiven hknown).2, if_neg hother]

theorem exists_shapeWith_eq_ok_iff :
    (∃ shape, entry.shapeWith step = .ok shape) ↔ ∀ e, ¬entry.Misstates step e := by
  simp only [← shapeWith_eq_error_iff]
  cases entry.shapeWith step <;> simp

theorem eq_shape_of_shapeWith {step : Step} {shape : Shape}
    (h : entry.shapeWith (some step) = .ok shape) : shape = step.shape := by
  simp only [shapeWith] at h
  split at h
  · cases h
    rfl
  · obtain ⟨declared, -, hdeclared⟩ := bind_eq_ok_iff.mp h
    split at hdeclared
    · next hsame =>
      cases hdeclared
      exact eq_of_beq hsame
    · cases hdeclared

end TopologyEntry

namespace Topology

/-- The shapes of the entries, or what is wrong with the first of them that is misstated. -/
def shapes (topology : Topology) (steps : List Step) : Except Error (List Shape) :=
  (topology.matched steps).mapM fun (entry, step) => entry.shapeWith step

def BoundaryGiven (topology : Topology) : Prop :=
  ∃ first last, topology.head? = some first ∧ topology.getLast? = some last ∧
    Text.trim first.inputType ≠ "" ∧ Text.trim last.outputType ≠ ""

variable {topology : Topology} {steps : List Step} {shapes : List Shape} {i : Nat}

/-- The error is about the first entry that is misstated. -/
theorem shapes_eq_error_iff {e : Error} :
    topology.shapes steps = .error e ↔ ∃ before entry after,
      topology.matched steps = before ++ entry :: after ∧
      (∀ other ∈ before, ∀ e, ¬other.1.Misstates other.2 e) ∧ entry.1.Misstates entry.2 e := by
  simp only [shapes, mapM_eq_error_iff, TopologyEntry.exists_shapeWith_eq_ok_iff,
    TopologyEntry.shapeWith_eq_error_iff]

theorem exists_shapes_eq_error_iff :
    (∃ e, topology.shapes steps = .error e) ↔
      ∃ entry ∈ topology.matched steps, ∃ e, entry.1.Misstates entry.2 e := by
  simp only [shapes, exists_mapM_eq_error_iff, TopologyEntry.shapeWith_eq_error_iff]

/-- The entry at a position has the shape, from the step it refers to or from its own
cardinality. -/
def ShapeAt (topology : Topology) (steps : List Step) (i : Nat) (shape : Shape) : Prop :=
  ∃ entry step, (topology.matched steps)[i]? = some (entry, step) ∧
    entry.shapeWith step = .ok shape

theorem shapeAt_iff (h : topology.shapes steps = .ok shapes) {shape : Shape} :
    topology.ShapeAt steps i shape ↔ shapes[i]? = some shape := by
  rcases getElem?_of_forall₂ (mapM_eq_ok_iff.mp h) i with
    ⟨hpair, hshape⟩ | ⟨pair, found, hpair, hfound, hshapeWith⟩
  · simp [ShapeAt, hpair, hshape]
  · rw [hfound, Option.some.injEq]
    constructor
    · rintro ⟨entry, step, hentry, hshape⟩
      cases hpair.symm.trans hentry
      exact Except.ok.inj (hshapeWith.symm.trans hshape)
    · rintro rfl
      exact ⟨pair.1, pair.2, hpair, hshapeWith⟩

theorem length_shapes (h : topology.shapes steps = .ok shapes) :
    shapes.length = topology.length := by
  rw [← (mapM_eq_ok_iff.mp h).length_eq, length_matched]

theorem matched_getElem?_of_matches? {entry : TopologyEntry} {position : Option Nat}
    (hentry : topology[i]? = some entry)
    (hposition : (topology.matches? steps)[i]? = some position) :
    (topology.matched steps)[i]? = some (entry, position.bind (steps[·]?)) := by
  rw [matched, List.getElem?_zip_eq_some]
  exact ⟨hentry, by rw [List.getElem?_map, hposition, Option.map_some]⟩

theorem lt_length_of_matches? {position : Option Nat}
    (h : (topology.matches? steps)[i]? = some position) : i < topology.length := by
  obtain ⟨hlt, -⟩ := List.getElem?_eq_some_iff.mp h
  rwa [matches?, length_matchFrom] at hlt

/-- The shape of an entry that refers to a step is that of the step. -/
theorem shapeAt_of_matches? (h : topology.shapes steps = .ok shapes) {position : Nat}
    (hposition : (topology.matches? steps)[i]? = some (some position)) :
    ∃ step, steps[position]? = some step ∧ topology.ShapeAt steps i step.shape := by
  obtain ⟨step, hstep⟩ := exists_step_of_mem_matches? (List.mem_of_getElem? hposition)
  have hlt := lt_length_of_matches? hposition
  have hmatched := matched_getElem?_of_matches? (List.getElem?_eq_getElem hlt) hposition
  rw [Option.bind_some, hstep] at hmatched
  rcases getElem?_of_forall₂ (mapM_eq_ok_iff.mp h) i with
    ⟨hpair, -⟩ | ⟨pair, shape, hpair, -, hshape⟩
  · cases hpair.symm.trans hmatched
  · cases hpair.symm.trans hmatched
    obtain rfl := TopologyEntry.eq_shape_of_shapeWith hshape
    exact ⟨step, hstep, _, _, hmatched, hshape⟩

end Topology

namespace Orchestrator

variable {topology : Topology} {baseSpace : String} {transport : Transport}
  {markers : List Marker} {steps : List Step}

/-- The orchestrator of a topology from `first` to `last` whose entries have the given shapes. -/
def ofShapes (topology : Topology) (baseSpace : String) (transport : Transport) (steps : List Step)
    (first last : TopologyEntry) (cli : Option Marker) (shapes : List Shape) : Orchestrator :=
  let space := Text.trim baseSpace
  let inputType := Text.trim first.inputType
  let outputType := Text.trim last.outputType
  let firstShape := shapes.head?.getD .unaryUnary
  let outputStreaming := shapes.any Shape.outputStreaming
  { entrypoint := entrypointFor space transport inputType outputType
      (.ofFlags firstShape.inputStreaming outputStreaming)
    baseSpace := space
    transport
    inputType
    outputType
    inputStreaming := firstShape.inputStreaming
    outputStreaming
    firstService := match (topology.matched steps).head?.bind (·.2) with
      | some step => step.serviceName
      | none => Naming.serviceOfStep first.name
    firstShape
    cli }

theorem exists_ends (h : topology ≠ []) :
    ∃ first last, topology.head? = some first ∧ topology.getLast? = some last :=
  ⟨topology.head h, topology.getLast h, List.head?_eq_some_head h, List.getLast?_eq_some_getLast h⟩

theorem derive_eq {first last : TopologyEntry} (hfirst : topology.head? = some first)
    (hlast : topology.getLast? = some last) :
    derive topology baseSpace transport markers steps =
      if Text.trim baseSpace = "" then .error (.configuration stepName "base namespace is blank")
      else (marker? markers).bind fun cli =>
        if Text.trim first.inputType = "" ∨ Text.trim last.outputType = "" then .ok none
        else (Topology.shapes topology steps).map
          (some ∘ ofShapes topology baseSpace transport steps first last cli) := by
  unfold derive
  simp only [hfirst, hlast, bind, Except.bind, pure, Except.pure, throw, throwThe,
    MonadExceptOf.throw, String.isEmpty_iff, Bool.or_eq_true]
  split
  · rfl
  · cases marker? markers with
    | error e => rfl
    | ok cli =>
      dsimp only
      split
      · rfl
      · rw [Topology.shapes]
        cases (topology.matched steps).mapM fun (entry, step) => entry.shapeWith step <;> rfl

theorem marker?_of_many (h : 1 < markers.length) :
    marker? markers = .error (.multipleOrchestrators (markers.map (·.name))) := by
  match markers, h with
  | _ :: _ :: _, _ => rfl

theorem exists_marker?_eq_ok (h : ¬1 < markers.length) : ∃ cli, marker? markers = .ok cli := by
  match markers, h with
  | [], _ => exact ⟨none, rfl⟩
  | [marker], _ => exact ⟨some marker, rfl⟩
  | _ :: _ :: _, h => exact absurd (by simp) h

/-- An orchestrator is not derived if the namespace is blank, if there are several markers, or if
both types at the boundary are given and an entry has no shape. -/
theorem derive_eq_error_iff (htopology : topology ≠ []) {e : Error} :
    derive topology baseSpace transport markers steps = .error e ↔
      (Text.trim baseSpace = "" ∧ e = .configuration stepName "base namespace is blank") ∨
      (Text.trim baseSpace ≠ "" ∧ 1 < markers.length ∧
        e = .multipleOrchestrators (markers.map (·.name))) ∨
      (Text.trim baseSpace ≠ "" ∧ ¬1 < markers.length ∧ topology.BoundaryGiven ∧
        topology.shapes steps = .error e) := by
  obtain ⟨first, last, hfirst, hlast⟩ := exists_ends htopology
  have hgiven : topology.BoundaryGiven ↔
      ¬(Text.trim first.inputType = "" ∨ Text.trim last.outputType = "") := by
    simp [Topology.BoundaryGiven, hfirst, hlast]
  rw [derive_eq hfirst hlast, hgiven]
  by_cases hspace : Text.trim baseSpace = ""
  · simp only [hspace, if_true, Except.error.injEq, ne_eq, not_true_eq_false, false_and, or_false,
      true_and]
    exact eq_comm
  · by_cases hmany : 1 < markers.length
    · simp only [hspace, hmany, marker?_of_many hmany, Except.bind, if_false, Except.error.injEq,
        false_and, not_true_eq_false, not_false_eq_true, ne_eq, and_false, or_false, false_or,
        true_and]
      exact eq_comm
    · obtain ⟨cli, hcli⟩ := exists_marker?_eq_ok hmany
      by_cases hblank : Text.trim first.inputType = "" ∨ Text.trim last.outputType = ""
      · simp [hspace, hmany, hcli, hblank, Except.bind]
      · cases topology.shapes steps <;>
          simp [hspace, hmany, hcli, hblank, Except.bind, Except.map]

theorem derive_error_kind (htopology : topology ≠ []) {e : Error}
    (h : derive topology baseSpace transport markers steps = .error e) :
    e.kind = .configuration := by
  rcases (derive_eq_error_iff htopology).mp h with ⟨-, rfl⟩ | ⟨-, -, rfl⟩ | ⟨-, -, -, hshapes⟩
  · rfl
  · rfl
  · obtain ⟨_, _, _, -, -, hmisstated⟩ := Topology.shapes_eq_error_iff.mp hshapes
    exact hmisstated.kind_eq

/-- With a misstated entry there is an error unless a type at the boundary is blank. -/
theorem exists_derive_eq_error_iff (htopology : topology ≠ [])
    (hmisstated : ∃ e, topology.shapes steps = .error e) :
    (∃ e, derive topology baseSpace transport markers steps = .error e) ↔
      Text.trim baseSpace = "" ∨ 1 < markers.length ∨ topology.BoundaryGiven := by
  simp only [derive_eq_error_iff htopology]
  constructor
  · rintro ⟨e, ⟨hspace, -⟩ | ⟨-, hmany, -⟩ | ⟨-, -, hgiven, -⟩⟩
    · exact .inl hspace
    · exact .inr (.inl hmany)
    · exact .inr (.inr hgiven)
  · intro h
    by_cases hspace : Text.trim baseSpace = ""
    · exact ⟨_, .inl ⟨hspace, rfl⟩⟩
    · by_cases hmany : 1 < markers.length
      · exact ⟨_, .inr (.inl ⟨hspace, hmany, rfl⟩)⟩
      · obtain ⟨e, hshapes⟩ := hmisstated
        have hgiven := (h.resolve_left hspace).resolve_left hmany
        exact ⟨e, .inr (.inr ⟨hspace, hmany, hgiven, hshapes⟩)⟩

theorem derive_nil : derive [] baseSpace transport markers steps =
    .error (.configuration stepName "topology is empty") :=
  rfl

theorem derive_eq_none_iff : derive topology baseSpace transport markers steps = .ok none ↔
    topology ≠ [] ∧ Text.trim baseSpace ≠ "" ∧ markers.length ≤ 1 ∧
      ∃ first last, topology.head? = some first ∧ topology.getLast? = some last ∧
        (Text.trim first.inputType = "" ∨ Text.trim last.outputType = "") := by
  by_cases htopology : topology = []
  · simp [htopology, derive_nil]
  obtain ⟨first, last, hfirst, hlast⟩ := exists_ends htopology
  rw [derive_eq hfirst hlast]
  simp only [hfirst, hlast, Option.some.injEq, exists_and_left, exists_eq_left']
  by_cases hspace : Text.trim baseSpace = ""
  · simp [hspace]
  by_cases hmany : 1 < markers.length
  · simp [hspace, marker?_of_many hmany, Except.bind, Nat.not_le.mpr hmany]
  obtain ⟨cli, hcli⟩ := exists_marker?_eq_ok hmany
  by_cases hblank : Text.trim first.inputType = "" ∨ Text.trim last.outputType = ""
  · simp [htopology, hspace, hcli, Except.bind, hblank, Nat.not_lt.mp hmany]
  · cases topology.shapes steps <;> simp [hspace, hcli, Except.bind, hblank, Except.map]

theorem exists_shapes_of_derive {b : Orchestrator}
    (h : derive topology baseSpace transport markers steps = .ok (some b)) :
    ∃ first last cli shapes, topology.head? = some first ∧ topology.getLast? = some last ∧
      Text.trim first.inputType ≠ "" ∧ Text.trim last.outputType ≠ "" ∧
      topology.shapes steps = .ok shapes ∧
      b = ofShapes topology baseSpace transport steps first last cli shapes := by
  by_cases htopology : topology = []
  · rw [htopology, derive_nil] at h
    cases h
  obtain ⟨first, last, hfirst, hlast⟩ := exists_ends htopology
  rw [derive_eq hfirst hlast] at h
  split at h
  · cases h
  cases hcli : marker? markers with
  | error e =>
    rw [hcli] at h
    cases h
  | ok cli =>
    simp only [hcli, Except.bind] at h
    split at h
    · cases h
    next hgiven =>
      cases hshapes : topology.shapes steps with
      | error e =>
        rw [hshapes] at h
        cases h
      | ok shapes =>
        rw [hshapes] at h
        cases h
        obtain ⟨hinput, houtput⟩ := not_or.mp hgiven
        exact ⟨first, last, cli, shapes, hfirst, hlast, hinput, houtput, rfl, rfl⟩

/-- The orchestrator spans the topology: at its ends it has the types, the streaming and the service
that the entries and the steps they refer to give it. -/
structure Spans (b : Orchestrator) (topology : Topology) (steps : List Step) : Prop where
  inputType : b.inputType ≠ "" ∧
    ∃ first, topology.head? = some first ∧ b.inputType = Text.trim first.inputType
  outputType : b.outputType ≠ "" ∧
    ∃ last, topology.getLast? = some last ∧ b.outputType = Text.trim last.outputType
  shaped : ∀ i < topology.length, ∃! shape, topology.ShapeAt steps i shape
  shapeOfStep : ∀ i position, (topology.matches? steps)[i]? = some (some position) →
    ∃ step, steps[position]? = some step ∧ topology.ShapeAt steps i step.shape
  inputStreaming : b.inputStreaming = true ↔
    ∃ shape, topology.ShapeAt steps 0 shape ∧ shape.inputStreaming = true
  outputStreaming : b.outputStreaming = true ↔
    ∃ i shape, topology.ShapeAt steps i shape ∧ shape.outputStreaming = true
  entrypoint : b.entrypoint.shape.inputStreaming = b.inputStreaming ∧
    b.entrypoint.shape.outputStreaming = b.outputStreaming
  serviceOfStep : ∀ position step, (topology.matches? steps)[0]? = some (some position) →
    steps[position]? = some step → b.firstService = step.serviceName
  serviceOfName : ∀ first, topology.head? = some first →
    (topology.matches? steps)[0]? = some none →
      b.firstService = Naming.serviceOfStep first.name

theorem ofShapes_spans {first last : TopologyEntry} {shapes : List Shape}
    (hfirst : topology.head? = some first) (hlast : topology.getLast? = some last)
    (hinput : Text.trim first.inputType ≠ "") (houtput : Text.trim last.outputType ≠ "")
    (hshapes : topology.shapes steps = .ok shapes) (cli : Option Marker) :
    (ofShapes topology baseSpace transport steps first last cli shapes).Spans topology steps := by
  have hlength := Topology.length_shapes hshapes
  have hentry : topology[0]? = some first := by rw [← List.head?_eq_getElem?, hfirst]
  have hmatched {position : Option Nat} (h : (topology.matches? steps)[0]? = some position) :
      (topology.matched steps).head? = some (first, position.bind (steps[·]?)) := by
    rw [List.head?_eq_getElem?, Topology.matched_getElem?_of_matches? hentry h]
  constructor
  case inputType => exact ⟨hinput, first, hfirst, rfl⟩
  case outputType => exact ⟨houtput, last, hlast, rfl⟩
  case shaped =>
    intro i hi
    simp only [Topology.shapeAt_iff hshapes]
    have hget := List.getElem?_eq_getElem (hlength ▸ hi)
    exact ⟨_, hget, fun shape h => Option.some.inj (h.symm.trans hget)⟩
  case shapeOfStep => exact fun i position => Topology.shapeAt_of_matches? hshapes
  case inputStreaming =>
    have hpos : 0 < shapes.length := hlength ▸ (List.getElem?_eq_some_iff.mp hentry).1
    obtain ⟨shape, rest, rfl⟩ := List.exists_cons_of_length_pos hpos
    simp [Topology.shapeAt_iff hshapes, ofShapes]
  case outputStreaming =>
    simp only [Topology.shapeAt_iff hshapes, ofShapes, List.any_eq_true, List.mem_iff_getElem?]
    constructor
    · rintro ⟨shape, ⟨i, hi⟩, hstreaming⟩
      exact ⟨i, shape, hi, hstreaming⟩
    · rintro ⟨i, shape, hi, hstreaming⟩
      exact ⟨shape, ⟨i, hi⟩, hstreaming⟩
  case entrypoint => simp [ofShapes, entrypointFor]
  case serviceOfStep =>
    intro position step hposition hstep
    simp [ofShapes, hmatched hposition, hstep]
  case serviceOfName =>
    intro other hother hnone
    cases hfirst.symm.trans hother
    simp [ofShapes, hmatched hnone]

/-- An orchestrator spans the topology that it is derived from. There is none exactly if a type at
the boundary is blank and nothing else is wrong. -/
theorem derive_spans (topology : Topology) (baseSpace : String) (transport : Transport)
    (markers : List Marker) (steps : List Step) :
    (∀ b, derive topology baseSpace transport markers steps = .ok (some b) →
      b.Spans topology steps) ∧
    (derive topology baseSpace transport markers steps = .ok none ↔
      topology ≠ [] ∧ Text.trim baseSpace ≠ "" ∧ markers.length ≤ 1 ∧
        ∃ first last, topology.head? = some first ∧ topology.getLast? = some last ∧
          (Text.trim first.inputType = "" ∨ Text.trim last.outputType = "")) := by
  refine ⟨fun b h => ?_, derive_eq_none_iff⟩
  obtain ⟨first, last, cli, shapes, hfirst, hlast, hinput, houtput, hshapes, rfl⟩ :=
    exists_shapes_of_derive h
  exact ofShapes_spans hfirst hlast hinput houtput hshapes cli

/-- A stream in the middle: the second step gives one, the third entry has no step. -/
def mailing : Description where
  baseSpace := "acme"
  steps := [{ name := "box", kind := some "one-to-many" }, { name := "pay" }]
  topology := [
    { name := "Pay", inputType := " acme.Bill ", outputType := "acme.Paid" },
    { name := "box", inputType := "acme.Paid", outputType := "acme.Box" },
    { name := "fly", inputType := "acme.Box", outputType := "acme.Sky",
      cardinality := some "reduction" }]

def mailingSteps : List Step := (Compilation.extractAll mailing mailing.steps).1

theorem mailing_spans : ∃ b,
    derive mailing.topology mailing.baseSpace .grpc [] mailingSteps = .ok (some b) ∧
    b.Spans mailing.topology mailingSteps ∧
    b.inputType = "acme.Bill" ∧ b.outputType = "acme.Sky" ∧
    b.inputStreaming = false ∧ b.outputStreaming = true ∧
    b.firstService = "ProcessPayService" := by
  have hderived : (derive mailing.topology mailing.baseSpace .grpc [] mailingSteps).toOption.any
      (·.any fun b => b.inputType == "acme.Bill" && b.outputType == "acme.Sky" &&
        b.inputStreaming == false && b.outputStreaming == true &&
        b.firstService == "ProcessPayService") = true := by
    decide +kernel
  obtain ⟨found, hfound, hany⟩ := (Option.any_eq_true _ _).mp hderived
  obtain ⟨b, rfl, hb⟩ := (Option.any_eq_true _ _).mp hany
  have hok := toOption_eq_some_iff.mp hfound
  simp only [Bool.and_eq_true, beq_iff_eq] at hb
  obtain ⟨⟨⟨⟨hinput, houtput⟩, hin⟩, hout⟩, hservice⟩ := hb
  exact ⟨b, hok, (derive_spans _ _ _ _ _).1 b hok, hinput, houtput, hin, hout, hservice⟩

end Orchestrator

end PipelinePlan
