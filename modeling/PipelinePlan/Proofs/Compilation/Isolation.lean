import PipelinePlan.Compilation.Basic
import PipelinePlan.Proofs.List

namespace PipelinePlan.Compilation

inductive Fate where
  | compiled (step : CompiledStep)
  /-- The declaration gives no step. -/
  | unusable (failure : StepFailure)
  /-- The step is not bound. -/
  | unbound (failure : StepFailure)

namespace Fate

def compiled? : Fate → Option CompiledStep
  | compiled step => some step
  | _ => none

def unusable? : Fate → Option StepFailure
  | unusable failure => some failure
  | _ => none

def unbound? : Fate → Option StepFailure
  | unbound failure => some failure
  | _ => none

end Fate

def fateOfStep (pool : Except Schema.Error Schema.Pool) (step : Step) : Fate :=
  match bindStep pool step with
  | .ok outcome => .compiled outcome.value
  | .error e => .unbound ⟨step.name, e⟩

/-- What becomes of a declaration, given the namespace of the pipeline, the settings attached to
steps and the descriptor set. -/
def fate (space : String) (configs : Table StepConfig)
    (descriptors : List Schema.FileDescriptor) (declaration : Declaration) : Fate :=
  match (declaration.withSpace space).toStep (stepConfigFor configs declaration.name) with
  | .error e => .unusable ⟨declaration.name, e⟩
  | .ok step => fateOfStep (Schema.Pool.build descriptors) step

theorem extractAll_append (d : Description) (first second : List Declaration) :
    extractAll d (first ++ second) = ((extractAll d first).1 ++ (extractAll d second).1,
      (extractAll d first).2 ++ (extractAll d second).2) := by
  induction first with
  | nil => rfl
  | cons declaration rest ih =>
    simp only [List.cons_append, extractAll, ih]
    cases extract d declaration <;> rfl

/-- Of a description, extraction reads the namespace and the settings of steps. -/
theorem extractAll_congr {d d' : Description} (hspace : d.baseSpace = d'.baseSpace)
    (hconfig : d.stepConfig = d'.stepConfig) (declarations : List Declaration) :
    extractAll d declarations = extractAll d' declarations := by
  have hextract (declaration : Declaration) : extract d declaration = extract d' declaration := by
    simp only [extract, hspace, hconfig]
  induction declarations with
  | nil => rfl
  | cons declaration rest ih => simp only [extractAll, hextract, ih]

/-- A declaration that gives no step only adds its failure, after those of earlier declarations. -/
theorem extractAll_insert {d : Description} {declaration : Declaration} {e : Error}
    (h : extract d declaration = .error e) (before after : List Declaration) :
    extractAll d (before ++ declaration :: after) = ((extractAll d (before ++ after)).1,
      (extractAll d before).2 ++ ⟨declaration.name, e⟩ :: (extractAll d after).2) := by
  rw [extractAll_append, extractAll_append]
  simp only [extractAll, h]

theorem bindAll_steps (pool : Except Schema.Error Schema.Pool) (steps : List Step) :
    (bindAll pool steps).steps = steps.filterMap fun step => (fateOfStep pool step).compiled? := by
  induction steps with
  | nil => rfl
  | cons step rest ih =>
    simp only [bindAll, List.filterMap_cons, fateOfStep]
    cases bindStep pool step with
    | ok outcome => simp only [Fate.compiled?, ih, fateOfStep]
    | error e => simp only [Fate.compiled?, ih, fateOfStep]

theorem bindAll_failures (pool : Except Schema.Error Schema.Pool) (steps : List Step) :
    (bindAll pool steps).failures = steps.filterMap fun step => (fateOfStep pool step).unbound? := by
  induction steps with
  | nil => rfl
  | cons step rest ih =>
    simp only [bindAll, List.filterMap_cons, fateOfStep]
    cases bindStep pool step with
    | ok outcome => simp only [Fate.unbound?, ih, fateOfStep]
    | error e => simp only [Fate.unbound?, ih, fateOfStep]

/-- What is said of the fates of extracted steps is said of the fates of their declarations. -/
theorem filterMap_extractAll {β : Type} {f : Fate → Option β}
    (hf : ∀ failure, f (.unusable failure) = none) (d : Description)
    (descriptors : List Schema.FileDescriptor) (declarations : List Declaration) :
    ((extractAll d declarations).1.filterMap fun step =>
        f (fateOfStep (Schema.Pool.build descriptors) step)) =
      (declarations.map (fate d.baseSpace d.stepConfig descriptors)).filterMap f := by
  induction declarations with
  | nil => rfl
  | cons declaration rest ih =>
    simp only [extractAll, extract, List.map_cons, List.filterMap_cons, fate]
    cases (declaration.withSpace d.baseSpace).toStep
      (stepConfigFor d.stepConfig declaration.name) with
    | ok step => simp only [List.filterMap_cons, ih]
    | error e => simp only [hf, ih]

theorem extractAll_failures (d : Description) (descriptors : List Schema.FileDescriptor)
    (declarations : List Declaration) :
    (extractAll d declarations).2 =
      (declarations.map (fate d.baseSpace d.stepConfig descriptors)).filterMap Fate.unusable? := by
  have hbound (pool : Except Schema.Error Schema.Pool) (step : Step) :
      (fateOfStep pool step).unusable? = none := by
    unfold fateOfStep
    cases bindStep pool step <;> rfl
  induction declarations with
  | nil => rfl
  | cons declaration rest ih =>
    simp only [extractAll, extract, List.map_cons, List.filterMap_cons, fate]
    cases (declaration.withSpace d.baseSpace).toStep
      (stepConfigFor d.stepConfig declaration.name) with
    | ok step => simp only [hbound, ih]
    | error e => simp only [Fate.unusable?, ih]

def expanded (source : Source) (knows : Option (String → Bool)) (steps : List Step) :
    Outcome Order.Expansion :=
  (expander source.description steps knows).run
    (Order.base source.description.topology steps source.description.transport).value

def assemble (source : Source) (knows : Option (String → Bool)) (steps : List Step)
    (unusable : List StepFailure) (orchestrator : Option Orchestrator)
    (placements : List Placement) : Compiled × Summary :=
  let d := source.description
  let pool := Schema.Pool.build source.descriptors
  let bound := bindAll pool steps
  let base := Order.base d.topology steps d.transport
  let expansion := (expanded source knows steps).value
  let diagnostics :=
    bound.diagnostics ++ base.diagnostics ++ (expanded source knows steps).diagnostics
  ({ name := source.name
     transport := d.transport
     steps := bound.steps
     failures := unusable ++ bound.failures
     orchestrator
     baseOrder := base.value
     expansion
     placements
     artifacts := Artifacts.build orchestrator base.value expansion
     diagnostics },
   { name := source.name
     transport := d.transport
     schemaFiles := pool.toOption.map (·.files.length)
     schemaPasses := pool.toOption.map (·.passes)
     stepsDeclared := d.steps.length
     stepsCompiled := bound.steps.length
     stepsFailed := (unusable ++ bound.failures).length
     syntheticSteps := expansion.synthetic.length
     orderLength := expansion.order.length
     orchestrator := orchestrator.isSome
     warnings := diagnostics.warnings })

def compileFrom (source : Source) (knows : Option (String → Bool))
    (extracted : List Step × List StepFailure) : Except Error (Compiled × Summary) :=
  (orchestrator source.description extracted.1).bind fun orchestrator =>
    (Placement.resolve (expanded source knows extracted.1).value extracted.1
      source.description.transport source.overrides).map
        (assemble source knows extracted.1 extracted.2 orchestrator)

theorem compileWith_eq (source : Source) (knows : Option (String → Bool)) :
    source.compileWith knows =
      compileFrom source knows (extractAll source.description source.description.steps) := by
  simp only [Source.compileWith, compileFrom, bind, Except.bind, Except.map, expanded]
  split
  · rfl
  · split <;> rfl

theorem compileFrom_eq_ok {source : Source} {knows : Option (String → Bool)}
    {extracted : List Step × List StepFailure} {result : Compiled × Summary}
    (h : compileFrom source knows extracted = .ok result) :
    ∃ found placements, orchestrator source.description extracted.1 = .ok found ∧
      Placement.resolve (expanded source knows extracted.1).value extracted.1
        source.description.transport source.overrides = .ok placements ∧
      result = assemble source knows extracted.1 extracted.2 found placements := by
  simp only [compileFrom, Except.bind, Except.map] at h
  split at h
  · cases h
  · next found hfound =>
    split at h
    · cases h
    · next placements hplacements =>
      exact ⟨found, placements, hfound, hplacements, (Except.ok.inj h).symm⟩

end PipelinePlan.Compilation

namespace PipelinePlan

def Source.extracted (source : Source) : List Step :=
  (Compilation.extractAll source.description source.description.steps).1

theorem Source.compileWith_eq_ok {source : Source} {knows : Option (String → Bool)}
    {compiled : Compiled} {summary : Summary}
    (h : source.compileWith knows = .ok (compiled, summary)) :
    ∃ found placements,
      Compilation.orchestrator source.description source.extracted = .ok found ∧
      Placement.resolve (Compilation.expanded source knows source.extracted).value
        source.extracted source.description.transport source.overrides = .ok placements ∧
      (compiled, summary) = Compilation.assemble source knows source.extracted
        (Compilation.extractAll source.description source.description.steps).2 found
          placements := by
  rw [Compilation.compileWith_eq] at h
  exact Compilation.compileFrom_eq_ok h

def Source.withSteps (source : Source) (steps : List Declaration) : Source :=
  { source with description := { source.description with steps } }

/-- A result with one more failure, at a position among the others. -/
def Compiled.addFailure (c : Compiled) (position : Nat) (failure : StepFailure) : Compiled :=
  { c with failures := c.failures.insertIdx position failure }

def Summary.addFailed (s : Summary) : Summary :=
  { s with stepsDeclared := s.stepsDeclared + 1, stepsFailed := s.stepsFailed + 1 }

namespace Compilation

theorem assemble_insert {source : Source} {declarations : List Declaration}
    (h : declarations.length = source.description.steps.length + 1)
    (knows : Option (String → Bool)) (steps : List Step) (before after : List StepFailure)
    (failure : StepFailure) (orchestrator : Option Orchestrator) (placements : List Placement) :
    assemble (source.withSteps declarations) knows steps (before ++ failure :: after)
        orchestrator placements =
      ((assemble source knows steps (before ++ after) orchestrator placements).1.addFailure
          before.length failure,
        (assemble source knows steps (before ++ after) orchestrator placements).2.addFailed) := by
  have hinsert (bound : List StepFailure) : before ++ failure :: after ++ bound =
      (before ++ after ++ bound).insertIdx before.length failure := by
    rw [List.append_assoc before after, insertIdx_length_append, List.append_assoc,
      List.cons_append]
  have hlength (bound : List StepFailure) :
      ((before ++ after ++ bound).insertIdx before.length failure).length =
        (before ++ after ++ bound).length + 1 := by
    rw [← hinsert]
    simp only [List.length_append, List.length_cons]
    omega
  simp only [assemble, Source.withSteps, Compiled.addFailure, Summary.addFailed, h, hinsert,
    hlength]
  rfl

theorem compileFrom_insert {source : Source} {declarations : List Declaration}
    (h : declarations.length = source.description.steps.length + 1)
    (knows : Option (String → Bool)) (steps : List Step) (before after : List StepFailure)
    (failure : StepFailure) :
    compileFrom (source.withSteps declarations) knows (steps, before ++ failure :: after) =
      (compileFrom source knows (steps, before ++ after)).map fun result =>
        (result.1.addFailure before.length failure, result.2.addFailed) := by
  have hexpanded : expanded (source.withSteps declarations) knows steps =
      expanded source knows steps := rfl
  have horchestrator : orchestrator (source.withSteps declarations).description steps =
      orchestrator source.description steps := rfl
  simp only [compileFrom, hexpanded, horchestrator]
  cases orchestrator source.description steps with
  | error e => rfl
  | ok found =>
    have hplaced : Placement.resolve (expanded source knows steps).value steps
        (source.withSteps declarations).description.transport
        (source.withSteps declarations).overrides =
      Placement.resolve (expanded source knows steps).value steps
        source.description.transport source.overrides := rfl
    simp only [Except.bind, hplaced]
    cases Placement.resolve (expanded source knows steps).value steps
        source.description.transport source.overrides with
    | error e => rfl
    | ok placements => simp only [Except.map, assemble_insert h]

theorem compileWith_insert {source : Source} {declaration : Declaration} {e : Error}
    (h : extract source.description declaration = .error e) (knows : Option (String → Bool))
    {before after : List Declaration} (hsteps : source.description.steps = before ++ after) :
    (source.withSteps (before ++ declaration :: after)).compileWith knows =
      (source.compileWith knows).map fun result =>
        (result.1.addFailure (extractAll source.description before).2.length
          ⟨declaration.name, e⟩, result.2.addFailed) := by
  have hlength : (before ++ declaration :: after).length =
      source.description.steps.length + 1 := by
    rw [hsteps]
    simp only [List.length_append, List.length_cons]
    omega
  have hextracted : extractAll (source.withSteps (before ++ declaration :: after)).description
      (before ++ declaration :: after) =
        extractAll source.description (before ++ declaration :: after) := by
    apply extractAll_congr <;> rfl
  rw [compileWith_eq, compileWith_eq]
  change compileFrom (source.withSteps (before ++ declaration :: after)) knows
    (extractAll (source.withSteps (before ++ declaration :: after)).description
      (before ++ declaration :: after)) = _
  rw [hextracted, extractAll_insert h, compileFrom_insert hlength, hsteps, extractAll_append]

/-- What becomes of the declared steps of a source, in order. -/
def fates (source : Source) : List Fate :=
  source.description.steps.map
    (fate source.description.baseSpace source.description.stepConfig source.descriptors)

/-- In a compilation every declaration comes to what it comes to on its own. The steps that compile
stand in the order of declaration, and so do the failures, first those of declarations that give no
step and then those of steps that are not bound. A declaration that gives no step, put anywhere among
the others, adds its failure to the result and leaves everything else, an error too, as it is. -/
theorem compileWith_isolates (source : Source) (knows : Option (String → Bool)) :
    (∀ compiled summary, source.compileWith knows = .ok (compiled, summary) →
      compiled.steps = (fates source).filterMap Fate.compiled? ∧
      compiled.failures =
        (fates source).filterMap Fate.unusable? ++ (fates source).filterMap Fate.unbound?) ∧
    ∀ declaration e before after, extract source.description declaration = .error e →
      source.description.steps = before ++ after →
      (source.withSteps (before ++ declaration :: after)).compileWith knows =
        (source.compileWith knows).map fun result =>
          (result.1.addFailure (extractAll source.description before).2.length
            ⟨declaration.name, e⟩, result.2.addFailed) := by
  refine ⟨?_, fun declaration e before after h hsteps => compileWith_insert h knows hsteps⟩
  intro compiled summary h
  rw [compileWith_eq] at h
  obtain ⟨found, placements, -, -, hresult⟩ := compileFrom_eq_ok h
  obtain ⟨rfl, -⟩ := Prod.mk.inj hresult
  constructor
  · exact (bindAll_steps _ _).trans (filterMap_extractAll (fun _ => rfl) _ _ _)
  · exact congrArg₂ (· ++ ·) (extractAll_failures _ _ _)
      ((bindAll_failures _ _).trans (filterMap_extractAll (fun _ => rfl) _ _ _))

def ship : Declaration := { name := "ship", grpcEnabled := some false, restEnabled := some true }

def price : Declaration := { name := "price" }

def shipping : Source where
  name := "shipping"
  description := { baseSpace := "acme", steps := [ship, price] }

theorem shipping_with_nameless :
    ∃ compiled summary, shipping.compileWith none = .ok (compiled, summary) ∧
      compiled.steps.length = 1 ∧ compiled.failures.map (·.step) = ["price"] ∧
    ∃ e, extract shipping.description {} = .error e ∧
      (shipping.withSteps [ship, {}, price]).compileWith none =
        .ok (compiled.addFailure 0 ⟨"", e⟩, summary.addFailed) := by
  obtain ⟨hfates, hinsert⟩ := compileWith_isolates shipping none
  obtain ⟨⟨compiled, summary⟩, hresult⟩ : ∃ result, shipping.compileWith none = .ok result := by
    have hsome : (shipping.compileWith none).toOption.isSome = true := by decide +kernel
    cases hresult : shipping.compileWith none with
    | ok result => exact ⟨result, rfl⟩
    | error e =>
      rw [hresult] at hsome
      cases hsome
  have hextract : extract shipping.description {} =
      .error (.configuration "<unnamed>" "step name is empty") := rfl
  obtain ⟨hsteps, hfailures⟩ := hfates compiled summary hresult
  refine ⟨compiled, summary, hresult, ?_, ?_, _, hextract, ?_⟩
  · rw [hsteps]
    decide +kernel
  · rw [hfailures]
    decide +kernel
  · have h := hinsert {} _ [ship] [price] hextract rfl
    rw [hresult] at h
    exact h

end Compilation

end PipelinePlan
