import PipelinePlan.Description.Declaration
import PipelinePlan.Proofs.Except
import PipelinePlan.Proofs.Naming
import PipelinePlan.Proofs.Text.Blank

namespace PipelinePlan

section GivenText

variable {s : Option String}

theorem givenText_eq_some_iff {text : String} :
    givenText s = some text ↔ ∃ raw, s = some raw ∧ Text.trim raw ≠ "" ∧ text = Text.trim raw := by
  cases s with
  | none => simp [givenText]
  | some raw =>
    simp only [givenText, Option.map_some, Option.filter_eq_some_iff, Option.some.injEq,
      exists_eq_left', Bool.not_eq_true', String.isEmpty_eq_false_iff]
    constructor
    · rintro ⟨rfl, hne⟩
      exact ⟨hne, rfl⟩
    · rintro ⟨hne, rfl⟩
      exact ⟨rfl, hne⟩

theorem givenText_eq_none_iff :
    givenText s = none ↔ ∀ raw, s = some raw → Text.trim raw = "" := by
  cases s with
  | none => simp [givenText]
  | some raw => simp [givenText, Option.filter_eq_none_iff]

end GivenText

namespace Shape

def vocabulary : List String := [
  "onetoone", "unaryunary", "manytoone", "reduction", "streamingunary", "onetomany", "expansion",
  "unarystreaming", "manytomany", "streamingstreaming"]

/-- Whether a text is a word for a shape, alone or after `step`. Case and punctuation do not
matter. -/
def Named (s : String) : Prop :=
  ∃ word ∈ vocabulary, Text.token s = word ∨ Text.token s = "step" ++ word

instance : DecidablePred Named := fun s => inferInstanceAs
  (Decidable (∃ word ∈ vocabulary, Text.token s = word ∨ Text.token s = "step" ++ word))

theorem dropPrefix_mem_vocabulary_iff {s : String} :
    Text.dropPrefix "step" s ∈ vocabulary ↔ ∃ word ∈ vocabulary, s = word ∨ s = "step" ++ word := by
  have hplain : ∀ word ∈ vocabulary, Text.dropPrefix "step" word = word := by decide +kernel
  constructor
  · intro hmem
    rw [Text.dropPrefix] at hmem
    cases hafter : Text.afterPrefix? "step" s with
    | none =>
      rw [hafter] at hmem
      exact ⟨s, hmem, .inl rfl⟩
    | some rest =>
      rw [hafter] at hmem
      exact ⟨rest, hmem, .inr (Text.afterPrefix?_eq_some_iff.mp hafter)⟩
  · rintro ⟨word, hword, rfl | rfl⟩
    · rwa [hplain s hword]
    · rwa [Text.dropPrefix, Text.afterPrefix?_eq_some_iff.mpr rfl]

theorem ofToken?_eq_none_iff {s : String} : ofToken? s = none ↔ ¬Named s := by
  rw [Named, ← dropPrefix_mem_vocabulary_iff]
  unfold ofToken? vocabulary
  split <;> simp_all

end Shape

namespace Role

def vocabulary : List String := [
  "pipelineserver", "server", "orchestratorclient", "orchestrator", "pluginserver", "plugin",
  "pluginclient", "restserver", "rest"]

def Named (s : String) : Prop := Text.token s ∈ vocabulary

theorem ofToken?_eq_none_iff {s : String} : ofToken? s = none ↔ ¬Named s := by
  unfold ofToken? Named vocabulary
  split <;> simp_all

end Role

namespace Declaration

/-- What is set for a step. What is attached from outside counts before what is declared. -/
def setting {α : Type} (config : Option StepConfig) (attached : StepConfig → Option α)
    (declared : Option α) : Option α :=
  (config.bind attached).or declared

section Settings

variable (d : Declaration) (config : Option StepConfig)

def GrpcEnabled : Prop := setting config (·.grpcEnabled) d.grpcEnabled ≠ some false

def RestEnabled : Prop := setting config (·.restEnabled) d.restEnabled = some true

def namedRole : Option String := setting config (·.role) d.role

end Settings

/-- What can be wrong with a declaration, in the order in which it is looked at. -/
inductive Fault where
  | nameless
  | spaceless
  | unknownKind
  | untargeted
  | unknownRole
  | strayParent

/-- Something is wrong with a declaration, and what is said about it. -/
inductive Faulty (d : Declaration) (config : Option StepConfig) : Fault → Error → Prop where
  | nameless (h : Text.trim d.name = "") :
      Faulty d config .nameless (.configuration "<unnamed>" "step name is empty")
  | spaceless (h : ∀ space, d.space = some space → Text.trim space = "") :
      Faulty d config .spaceless (.configuration (Text.trim d.name) "no namespace declared")
  | unknownKind {kind : String} (hkind : d.kind = some kind) (hgiven : Text.trim kind ≠ "")
      (hunknown : ¬Shape.Named (Text.trim kind)) :
      Faulty d config .unknownKind (.unknownStepKind (Text.trim d.name) (Text.trim kind))
  | untargeted (hgrpc : ¬d.GrpcEnabled config) (hrest : ¬d.RestEnabled config) :
      Faulty d config .untargeted
        (.configuration (Text.trim d.name) "neither gRPC nor REST generation is enabled")
  | unknownRole {role : String} (hrole : d.namedRole config = some role)
      (hgiven : Text.trim role ≠ "") (hunknown : ¬Role.Named (Text.trim role)) :
      Faulty d config .unknownRole (.unknownRole (Text.trim d.name) (Text.trim role))
  | strayParent {parent : String} (hparent : d.parent = some parent)
      (hgiven : Text.trim parent ≠ "") (hside : d.sideEffect = false) :
      Faulty d config .strayParent
        (.configuration (Text.trim d.name) "only side-effect steps may declare a parent")

def Free (d : Declaration) (config : Option StepConfig) (fault : Fault) : Prop :=
  ∀ e, ¬Faulty d config fault e

/-- A fault of a declaration before which it has none. -/
def FirstFault (d : Declaration) (config : Option StepConfig) (fault : Fault) (e : Error) : Prop :=
  Faulty d config fault e ∧
    ∀ earlier : Fault, earlier.ctorIdx < fault.ctorIdx → d.Free config earlier

section Stages

variable (d : Declaration) (config : Option StepConfig) (space : String)

def grpc : Bool := (setting config (·.grpcEnabled) d.grpcEnabled).getD true

def rest : Bool := (setting config (·.restEnabled) d.restEnabled).getD false

def serviceOf : String :=
  (givenText d.serviceName).getD (Naming.serviceOfStep (Text.trim d.name))

def build (shape : Shape) (role : Role) : Step where
  name := Text.trim d.name
  serviceName := d.serviceOf
  serviceSpace := space
  qualifiedService := Name.qualify space d.serviceOf
  input := .ofDeclared d.inputType d.inputConverter
  output := .ofDeclared d.outputType d.outputConverter
  shape
  targets := { grpcService := d.grpc config, clientStep := d.grpc config,
               restResource := d.rest config }
  execution := if (setting config (·.dedicatedWorkerPool) d.dedicatedWorkerPool).getD false
    then .workerPool else .default
  role
  sideEffect := d.sideEffect
  parent := givenText d.parent

def buildAs (shape : Shape) (role : Role) : Except Error Step :=
  if (givenText d.parent).isSome && !d.sideEffect then
    .error (.configuration (Text.trim d.name) "only side-effect steps may declare a parent")
  else .ok (d.build config space shape role)

def buildShaped (shape : Shape) : Except Error Step :=
  if !d.grpc config && !d.rest config then
    .error (.configuration (Text.trim d.name) "neither gRPC nor REST generation is enabled")
  else (role? (Text.trim d.name) (d.namedRole config) d.sideEffect (d.grpc config)).bind
    (d.buildAs config space shape)

theorem toStep_eq :
    d.toStep config =
      if (Text.trim d.name).isEmpty then .error (.configuration "<unnamed>" "step name is empty")
      else match givenText d.space with
        | none => .error (.configuration (Text.trim d.name) "no namespace declared")
        | some space =>
          (shape? (Text.trim d.name) d.kind).bind (d.buildShaped config space) := by
  unfold toStep
  simp only [bind, pure, Except.pure, throw, throwThe, MonadExceptOf.throw]
  split
  · rfl
  · cases givenText d.space with
    | none => rfl
    | some space => rfl

end Stages

section Checks

variable {d : Declaration} {config : Option StepConfig} {space : String} {shape : Shape} {e : Error}

theorem grpcEnabled_iff : d.GrpcEnabled config ↔ d.grpc config = true := by
  unfold GrpcEnabled grpc
  rcases setting config (·.grpcEnabled) d.grpcEnabled with _ | _ | _ <;> decide

theorem restEnabled_iff : d.RestEnabled config ↔ d.rest config = true := by
  unfold RestEnabled rest
  rcases setting config (·.restEnabled) d.restEnabled with _ | _ | _ <;> decide

theorem shape?_eq_error_iff :
    shape? (Text.trim d.name) d.kind = .error e ↔ Faulty d config .unknownKind e := by
  unfold shape?
  constructor
  · intro h
    split at h
    · cases h
    · next token htoken =>
      obtain ⟨kind, hkind, hgiven, rfl⟩ := givenText_eq_some_iff.mp htoken
      split at h
      · cases h
      · next hunknown =>
        cases h
        exact .unknownKind hkind hgiven (Shape.ofToken?_eq_none_iff.mp hunknown)
  · intro h
    cases h with
    | @unknownKind kind hkind hgiven hunknown =>
      rw [givenText_eq_some_iff.mpr ⟨kind, hkind, hgiven, rfl⟩]
      simp only [Shape.ofToken?_eq_none_iff.mpr hunknown]

theorem role?_eq_error_iff {grpc : Bool} :
    role? (Text.trim d.name) (d.namedRole config) d.sideEffect grpc = .error e ↔
      Faulty d config .unknownRole e := by
  unfold role?
  constructor
  · intro h
    split at h
    · next token htoken =>
      obtain ⟨role, hrole, hgiven, rfl⟩ := givenText_eq_some_iff.mp htoken
      split at h
      · cases h
      · next hunknown =>
        cases h
        exact .unknownRole hrole hgiven (Role.ofToken?_eq_none_iff.mp hunknown)
    · cases h
  · intro h
    cases h with
    | @unknownRole role hrole hgiven hunknown =>
      rw [givenText_eq_some_iff.mpr ⟨role, hrole, hgiven, rfl⟩]
      simp only [Role.ofToken?_eq_none_iff.mpr hunknown]

theorem buildAs_eq_error_iff {role : Role} :
    d.buildAs config space shape role = .error e ↔ Faulty d config .strayParent e := by
  unfold buildAs
  constructor
  · intro h
    split at h
    · next hstray =>
      cases h
      obtain ⟨hgiven, hside⟩ := (Bool.and_eq_true _ _).mp hstray
      obtain ⟨text, htext⟩ := Option.isSome_iff_exists.mp hgiven
      obtain ⟨parent, hparent, hne, -⟩ := givenText_eq_some_iff.mp htext
      exact .strayParent hparent hne (by simpa using hside)
    · cases h
  · intro h
    cases h with
    | @strayParent parent hparent hgiven hside =>
      rw [givenText_eq_some_iff.mpr ⟨parent, hparent, hgiven, rfl⟩, if_pos (by simp [hside])]

theorem toStep_of_named (h : d.Free config .nameless) :
    d.toStep config = match givenText d.space with
      | none => .error (.configuration (Text.trim d.name) "no namespace declared")
      | some space => (shape? (Text.trim d.name) d.kind).bind (d.buildShaped config space) := by
  rw [toStep_eq, if_neg]
  intro hempty
  exact h _ (.nameless (by simpa using hempty))

theorem toStep_of_spaced (h : d.Free config .nameless) (hspace : givenText d.space = some space) :
    d.toStep config = (shape? (Text.trim d.name) d.kind).bind (d.buildShaped config space) := by
  rw [toStep_of_named h, hspace]

theorem exists_space (h : d.Free config .spaceless) :
    ∃ space, givenText d.space = some space := by
  rw [← Option.ne_none_iff_exists']
  intro hnone
  exact h _ (.spaceless (givenText_eq_none_iff.mp hnone))

theorem exists_shape (h : d.Free config .unknownKind) :
    ∃ shape, shape? (Text.trim d.name) d.kind = .ok shape := by
  cases hshape : shape? (Text.trim d.name) d.kind with
  | ok shape => exact ⟨shape, rfl⟩
  | error e => exact absurd (shape?_eq_error_iff.mp hshape) (h e)

theorem exists_role (h : d.Free config .unknownRole) (grpc : Bool) :
    ∃ role, role? (Text.trim d.name) (d.namedRole config) d.sideEffect grpc = .ok role := by
  cases hrole : role? (Text.trim d.name) (d.namedRole config) d.sideEffect grpc with
  | ok role => exact ⟨role, rfl⟩
  | error e => exact absurd (role?_eq_error_iff.mp hrole) (h e)

theorem targeted (h : d.Free config .untargeted) : d.GrpcEnabled config ∨ d.RestEnabled config := by
  by_contra hnot
  obtain ⟨hgrpc, hrest⟩ := not_or.mp hnot
  exact h _ (.untargeted hgrpc hrest)

theorem buildShaped_of_untargeted (h : Faulty d config .untargeted e) :
    d.buildShaped config space shape = .error e := by
  cases h with
  | untargeted hgrpc hrest =>
    rw [grpcEnabled_iff] at hgrpc
    rw [restEnabled_iff] at hrest
    rw [buildShaped, if_pos (by simp [hgrpc, hrest])]

theorem buildShaped_of_targeted (h : d.Free config .untargeted) :
    d.buildShaped config space shape =
      (role? (Text.trim d.name) (d.namedRole config) d.sideEffect (d.grpc config)).bind
        (d.buildAs config space shape) := by
  have htarget := targeted h
  rw [grpcEnabled_iff, restEnabled_iff] at htarget
  rw [buildShaped, if_neg]
  rcases htarget with hgrpc | hrest
  · simp [hgrpc]
  · simp [hrest]

/-- What is said about the first fault is the answer. -/
theorem toStep_of_firstFault {fault : Fault} (h : d.FirstFault config fault e) :
    d.toStep config = .error e := by
  obtain ⟨hfaulty, hfree⟩ := h
  cases fault with
  | nameless =>
    cases hfaulty with
    | nameless hname => rw [toStep_eq, if_pos (by simp [hname])]
  | spaceless =>
    cases hfaulty with
    | spaceless hspace =>
      rw [toStep_of_named (hfree .nameless (by decide)), givenText_eq_none_iff.mpr hspace]
  | unknownKind =>
    obtain ⟨space, hspace⟩ := exists_space (hfree .spaceless (by decide))
    rw [toStep_of_spaced (hfree .nameless (by decide)) hspace, shape?_eq_error_iff.mpr hfaulty]
    rfl
  | untargeted =>
    obtain ⟨space, hspace⟩ := exists_space (hfree .spaceless (by decide))
    obtain ⟨shape, hshape⟩ := exists_shape (hfree .unknownKind (by decide))
    rw [toStep_of_spaced (hfree .nameless (by decide)) hspace, hshape]
    exact buildShaped_of_untargeted hfaulty
  | unknownRole =>
    obtain ⟨space, hspace⟩ := exists_space (hfree .spaceless (by decide))
    obtain ⟨shape, hshape⟩ := exists_shape (hfree .unknownKind (by decide))
    rw [toStep_of_spaced (hfree .nameless (by decide)) hspace, hshape, Except.bind,
      buildShaped_of_targeted (hfree .untargeted (by decide)), role?_eq_error_iff.mpr hfaulty]
    rfl
  | strayParent =>
    obtain ⟨space, hspace⟩ := exists_space (hfree .spaceless (by decide))
    obtain ⟨shape, hshape⟩ := exists_shape (hfree .unknownKind (by decide))
    obtain ⟨role, hrole⟩ := exists_role (hfree .unknownRole (by decide)) (d.grpc config)
    rw [toStep_of_spaced (hfree .nameless (by decide)) hspace, hshape, Except.bind,
      buildShaped_of_targeted (hfree .untargeted (by decide)), hrole]
    exact buildAs_eq_error_iff.mpr hfaulty

/-- A declaration with nothing wrong gives a step. -/
theorem toStep_of_free (h : ∀ fault, d.Free config fault) :
    ∃ space shape role, givenText d.space = some space ∧
      d.toStep config = .ok (d.build config space shape role) := by
  obtain ⟨space, hspace⟩ := exists_space (h .spaceless)
  obtain ⟨shape, hshape⟩ := exists_shape (h .unknownKind)
  obtain ⟨role, hrole⟩ := exists_role (h .unknownRole) (d.grpc config)
  refine ⟨space, shape, role, hspace, ?_⟩
  rw [toStep_of_spaced (h .nameless) hspace, hshape, Except.bind,
    buildShaped_of_targeted (h .untargeted), hrole, Except.bind]
  cases hbuilt : d.buildAs config space shape role with
  | error e => exact absurd (buildAs_eq_error_iff.mp hbuilt) (h .strayParent e)
  | ok step =>
    rw [buildAs] at hbuilt
    split at hbuilt
    · cases hbuilt
    · exact hbuilt.symm

end Checks

/-- Of the faults of a declaration one is the first. -/
theorem exists_firstFault {d : Declaration} {config : Option StepConfig}
    (h : ¬∀ fault, d.Free config fault) : ∃ fault e, d.FirstFault config fault e := by
  obtain ⟨fault, hfaulty, hleast⟩ :=
    (measure Fault.ctorIdx).wf.has_min {fault | ¬d.Free config fault} (not_forall.mp h)
  obtain ⟨e, he⟩ := not_forall_not.mp hfaulty
  refine ⟨fault, e, he, ?_⟩
  intro earlier hlt
  by_contra hnot
  exact hleast earlier hnot hlt

end Declaration

/-- A mapping that is empty, one with the type of the domain only, or one with a converter, which
alone is enabled. No text in it stands for the absence of a type. -/
inductive TypeMapping.WellFormed : TypeMapping → Prop where
  | empty : WellFormed ⟨none, none, false⟩
  | domainOnly {type : String} (htype : Text.Neat type) (hvoid : Name.isVoid type = false) :
      WellFormed ⟨some type, none, false⟩
  | converted {type converter : String} (htype : Text.Neat type)
      (hvoid : Name.isVoid type = false) (hconverter : Text.Neat converter)
      (hgiven : Name.isVoid converter = false) : WellFormed ⟨some type, some converter, true⟩

/-- What holds for every step that a declaration gives. -/
structure Step.WellFormed (step : Step) : Prop where
  name : Text.Neat step.name
  space : Text.Neat step.serviceSpace
  qualified : step.qualifiedService = step.serviceSpace ++ "." ++ step.serviceName
  targeted : ∃ target, step.targets.has target = true
  client_iff : step.targets.has .clientStep = true ↔ step.targets.has .grpcService = true
  parent : ∀ parent, step.parent = some parent → step.sideEffect = true
  input : step.input.WellFormed
  output : step.output.WellFormed

theorem Name.isVoid_trim (s : String) : isVoid (Text.trim s) = isVoid s := by
  rw [isVoid, Text.toList_trim, Text.trimChars_trimChars, isVoid]

theorem Name.neat_trim_of_not_isVoid {s : String} (h : isVoid s = false) :
    Text.Neat (Text.trim s) := by
  apply Text.neat_trim
  intro hempty
  rw [← isVoid_trim, hempty] at h
  cases h

theorem TypeMapping.wellFormed_ofDeclared (type converter : Option String) :
    (ofDeclared type converter).WellFormed := by
  unfold ofDeclared
  split
  · exact .empty
  · next type htype =>
    obtain ⟨-, hvoid⟩ := Option.filter_eq_some_iff.mp htype
    rw [Bool.not_eq_true'] at hvoid
    have hneat := Name.neat_trim_of_not_isVoid hvoid
    rw [← Name.isVoid_trim] at hvoid
    split
    · exact .domainOnly hneat hvoid
    · next converter hconverter =>
      obtain ⟨-, hgiven⟩ := Option.filter_eq_some_iff.mp hconverter
      rw [Bool.not_eq_true'] at hgiven
      exact .converted hneat hvoid (Name.neat_trim_of_not_isVoid hgiven)
        ((Name.isVoid_trim converter).trans hgiven)

namespace Declaration

variable {d : Declaration} {config : Option StepConfig}

theorem wellFormed_build (h : ∀ fault, d.Free config fault) {space : String}
    (hspace : givenText d.space = some space) (shape : Shape) (role : Role) :
    (d.build config space shape role).WellFormed where
  name := by
    apply Text.neat_trim
    intro hempty
    exact h .nameless _ (.nameless hempty)
  space := by
    obtain ⟨raw, -, hne, rfl⟩ := givenText_eq_some_iff.mp hspace
    exact Text.neat_trim hne
  qualified := by
    obtain ⟨raw, -, hne, rfl⟩ := givenText_eq_some_iff.mp hspace
    exact if_neg (by simpa using hne)
  targeted := by
    rcases targeted (h .untargeted) with hgrpc | hrest
    · exact ⟨.grpcService, grpcEnabled_iff.mp hgrpc⟩
    · exact ⟨.restResource, restEnabled_iff.mp hrest⟩
  client_iff := Iff.rfl
  parent := by
    intro parent hparent
    obtain ⟨raw, hraw, hne, -⟩ := givenText_eq_some_iff.mp hparent
    rw [← Bool.not_eq_false]
    intro hside
    exact h .strayParent _ (.strayParent hraw hne hside)
  input := TypeMapping.wellFormed_ofDeclared _ _
  output := TypeMapping.wellFormed_ofDeclared _ _

theorem toStep_cases (d : Declaration) (config : Option StepConfig) :
    (∃ fault e, d.FirstFault config fault e ∧ d.toStep config = .error e) ∨
      (∀ fault, d.Free config fault) ∧
        ∃ step, d.toStep config = .ok step ∧ step.WellFormed := by
  by_cases hfree : ∀ fault, d.Free config fault
  · obtain ⟨space, shape, role, hspace, hok⟩ := toStep_of_free hfree
    exact .inr ⟨hfree, _, hok, wellFormed_build hfree hspace shape role⟩
  · obtain ⟨fault, e, hfirst⟩ := exists_firstFault hfree
    exact .inl ⟨fault, e, hfirst, toStep_of_firstFault hfirst⟩

theorem toStep_serviceName {step : Step} (h : d.toStep config = .ok step) :
    step.serviceName = (givenText d.serviceName).getD (Naming.serviceOfStep step.name) := by
  rcases toStep_cases d config with ⟨fault, e, -, herror⟩ | ⟨hfree, -⟩
  · rw [h] at herror
    cases herror
  · obtain ⟨space, shape, role, -, hok⟩ := toStep_of_free hfree
    obtain rfl := Except.ok.inj (h.symm.trans hok)
    rfl

/-- A declaration gives no step exactly if something is wrong with it, and the error is about the
first thing that is. Every step that it gives is well formed. -/
theorem toStep_refuses_first_fault (d : Declaration) (config : Option StepConfig) :
    ((∃ e, d.toStep config = .error e) ↔ ∃ fault e, Faulty d config fault e) ∧
    (∀ e, d.toStep config = .error e ↔ ∃ fault, d.FirstFault config fault e) ∧
    ∀ step, d.toStep config = .ok step → step.WellFormed := by
  rcases toStep_cases d config with ⟨fault, e, hfirst, herror⟩ | ⟨hfree, step, hok, hwell⟩
  · refine ⟨iff_of_true ⟨e, herror⟩ ⟨fault, e, hfirst.1⟩, ?_, ?_⟩
    · intro e'
      constructor
      · intro herror'
        obtain rfl := Except.error.inj (herror.symm.trans herror')
        exact ⟨fault, hfirst⟩
      · rintro ⟨fault', hfirst'⟩
        exact toStep_of_firstFault hfirst'
    · intro step hok
      rw [herror] at hok
      cases hok
  · have hnone (e : Error) : d.toStep config ≠ .error e := by
      intro herror
      rw [hok] at herror
      cases herror
    refine ⟨iff_of_false ?_ ?_, ?_, ?_⟩
    · rintro ⟨e, herror⟩
      exact hnone e herror
    · rintro ⟨fault, e, hfaulty⟩
      exact hfree fault e hfaulty
    · intro e
      refine iff_of_false (hnone e) ?_
      rintro ⟨fault, hfaulty, -⟩
      exact hfree fault e hfaulty
    · intro step' hok'
      obtain rfl := Except.ok.inj (hok.symm.trans hok')
      exact hwell

def restOnly : StepConfig where
  grpcEnabled := some false
  restEnabled := some true

def billing : Declaration where
  name := " bill\t"
  space := some " acme "
  kind := some "One-To_Many"
  inputType := some " Cart "
  inputConverter := some "void"
  outputType := some "Bill"
  outputConverter := some "Mapper"

/-- The same with an unknown kind and an unknown role. -/
def misbilling : Declaration :=
  { billing with kind := some "sideways", role := some "janitor" }

/-- The second declaration has an unknown kind and an unknown role, and nothing is enabled for it;
the kind is reported. -/
theorem billing_extracted :
    (∃ step, billing.toStep (some restOnly) = .ok step ∧ step.WellFormed) ∧
    misbilling.toStep (some { restOnly with restEnabled := none }) =
      .error (.unknownStepKind "bill" "sideways") := by
  have hfacts : (billing.toStep (some restOnly)).toOption.isSome = true ∧
      Text.trim misbilling.name = "bill" ∧ Text.trim " acme " ≠ "" ∧
      Text.trim "sideways" = "sideways" ∧ ¬Shape.Named "sideways" := by
    decide +kernel
  obtain ⟨hsome, hname, hspace, hkind, hunknown⟩ := hfacts
  constructor
  · obtain ⟨step, hstep⟩ := Option.isSome_iff_exists.mp hsome
    have hok := toOption_eq_some_iff.mp hstep
    exact ⟨step, hok, (toStep_refuses_first_fault _ _).2.2 step hok⟩
  · have hfaulty : Faulty misbilling (some { restOnly with restEnabled := none }) .unknownKind
        (.unknownStepKind (Text.trim misbilling.name) (Text.trim "sideways")) :=
      .unknownKind rfl (by rw [hkind]; decide) (by rwa [hkind])
    rw [hname, hkind] at hfaulty
    refine ((toStep_refuses_first_fault _ _).2.1 _).mpr ⟨.unknownKind, hfaulty, ?_⟩
    intro earlier hlt e he
    cases he with
    | nameless hempty => exact absurd (hname.symm.trans hempty) (by decide)
    | spaceless hblank => exact hspace (hblank _ rfl)
    | _ => exact absurd hlt (by decide)

end Declaration

end PipelinePlan
