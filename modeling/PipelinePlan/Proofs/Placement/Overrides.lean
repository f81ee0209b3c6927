import PipelinePlan.Placement.Overrides
import PipelinePlan.Proofs.Except

namespace PipelinePlan.Overrides

def modulePort? (o : Overrides) (module : String) : Option UInt16 :=
  (o.module? module).bind (·.port)

def Directive.portFor? (module : String) : Directive → Option UInt16
  | .module name (.port value) => if name = module then some value else none
  | _ => none

/-- The port that the first port property of a module in a text gives. -/
def portIn? (text module : String) : Option UInt16 :=
  (readLines 1 (Text.lines text.toList)).toOption.bind
    (List.findSome? (Directive.portFor? module))

theorem find?_declareModule (name other : String) (modules : List Module) :
    (declareModule name modules).find? (·.name == other) =
      (modules.find? (·.name == other)).or
        (if name = other then some { name := name } else none) := by
  unfold declareModule
  split
  · next hany =>
    split
    · next heq =>
      subst heq
      have hsome : (modules.find? (·.name == name)).isSome = true := by
        simpa [List.find?_isSome] using hany
      rw [Option.or_of_isSome hsome]
    · rw [Option.or_none]
  · rw [List.find?_append]
    by_cases heq : name = other <;> simp [heq]

theorem find?_updateModule {change : Module → Module} (hchange : ∀ m, (change m).name = m.name)
    (name other : String) (modules : List Module) :
    (updateModule name change modules).find? (·.name == other) =
      (modules.find? (·.name == other)).map fun m => if name = other then change m else m := by
  have hname : ((·.name == other) ∘ fun m : Module => if m.name == name then change m else m) =
      (·.name == other) := by
    funext m
    simp only [Function.comp]
    split
    · rw [hchange]
    · rfl
  rw [updateModule, List.find?_map, hname]
  cases hfind : modules.find? (·.name == other) with
  | none => rfl
  | some m =>
    have hother : m.name = other := by simpa using List.find?_some hfind
    by_cases hsame : name = other
    · simp [hother, hsame]
    · simp [hother, hsame, Ne.symm hsame]

section Port

variable (o : Overrides) (name module : String)

theorem modulePort?_declare :
    modulePort? { o with modules := declareModule name o.modules } module =
      o.modulePort? module := by
  simp only [modulePort?, module?, find?_declareModule]
  cases o.modules.find? (·.name == module) with
  | some m => rfl
  | none =>
    rw [Option.none_or]
    split <;> rfl

theorem modulePort?_update {change : Module → Module} (hchange : ∀ m, (change m).name = m.name) :
    modulePort? { o with modules := updateModule name change o.modules } module =
      if name = module then (o.module? module).bind fun m => (change m).port
      else o.modulePort? module := by
  simp only [modulePort?, module?, find?_updateModule hchange]
  split
  · exact Option.bind_map
  · rw [Option.map_id']

/-- A setting gives a declared module its port if it had none. -/
theorem modulePort?_applySetting (hdeclared : (o.module? name).isSome = true) (setting : Setting) :
    (o.applySetting name setting).value.modulePort? module =
      (o.modulePort? module).or ((Directive.module name setting).portFor? module) := by
  cases setting with
  | host value =>
    have hport : (o.applySetting name (.host value)).value.modulePort? module =
        o.modulePort? module := by
      simp only [applySetting]
      split
      · rfl
      · refine (modulePort?_update o name module (by simp)).trans ?_
        split <;> rfl
    exact hport.trans Option.or_none.symm
  | port value =>
    have hfor : (Directive.module name (.port value)).portFor? module =
        if name = module then some value else none := rfl
    simp only [applySetting, hfor]
    split
    · next hset =>
      split
      · next hsame =>
        subst hsame
        exact (Option.or_of_isSome hset).symm
      · exact Option.or_none.symm
    · next hunset =>
      refine (modulePort?_update o name module (by simp)).trans ?_
      split
      · next hsame =>
        subst hsame
        obtain ⟨m, hm⟩ := Option.isSome_iff_exists.mp hdeclared
        have hnone : o.modulePort? name = none := by simpa [modulePort?] using hunset
        rw [hnone, hm]
        rfl
      · exact Option.or_none.symm
  | steps names => exact Option.or_none.symm
  | aspects names => exact Option.or_none.symm

end Port

theorem modulePort?_apply (o : Overrides) (directive : Directive) (module : String) :
    (o.apply directive).value.modulePort? module =
      (o.modulePort? module).or (directive.portFor? module) := by
  cases directive with
  | nothing => exact Option.or_none.symm
  | basePort port => exact Option.or_none.symm
  | tlsName name => exact Option.or_none.symm
  | module name setting =>
    have hdeclared : (module? { o with modules := declareModule name o.modules } name).isSome =
        true := by
      simp [module?, find?_declareModule]
    rw [apply, modulePort?_applySetting _ _ _ hdeclared, modulePort?_declare]

/-- What is set first stays: directives give a module the port of the first of them that has one
for it. -/
theorem modulePort?_foldl (directives : List Directive) (state : Outcome Overrides)
    (module : String) :
    (directives.foldl advance state).value.modulePort? module =
      (state.value.modulePort? module).or (directives.findSome? (Directive.portFor? module)) := by
  induction directives generalizing state with
  | nil => exact Option.or_none.symm
  | cons directive rest ih =>
    have hstep : (advance state directive).value.modulePort? module =
        (state.value.modulePort? module).or (directive.portFor? module) :=
      modulePort?_apply state.value directive module
    rw [List.foldl_cons, ih, hstep, Option.or_assoc, List.findSome?_cons]
    cases directive.portFor? module <;> rfl

theorem modulePort?_parse {text : String} {outcome : Outcome Overrides}
    (h : parse text = .ok outcome) (module : String) :
    outcome.value.modulePort? module = portIn? text module := by
  obtain ⟨directives, hread, houtcome⟩ := bind_eq_ok_iff.mp h
  cases houtcome
  rw [modulePort?_foldl, portIn?, hread]
  rfl

end PipelinePlan.Overrides
