import PipelinePlan.Proofs.Except
import PipelinePlan.Proofs.Naming
import PipelinePlan.Proofs.Schema.BuiltPool

namespace PipelinePlan

namespace Schema

theorem Pool.length_servicesNamed (pool : Pool) (name : String) :
    (pool.servicesNamed name).length = pool.serviceNames.count name := by
  simp only [Pool.servicesNamed, Pool.serviceNames, List.length_flatMap, List.length_map,
    ← List.countP_eq_length_filter, List.count_eq_countP, List.countP_flatMap, List.countP_map,
    Function.comp_def]

theorem Service.length_methodsNamed (service : Service) (name : String) :
    (service.methodsNamed name).length = (service.methods.map (·.name)).count name := by
  simp only [Service.methodsNamed, ← List.countP_eq_length_filter, List.count_eq_countP,
    List.countP_map, Function.comp_def]

theorem Service.mem_methodsNamed {service : Service} {name : String} {method : Method} :
    method ∈ service.methodsNamed name ↔ method ∈ service.methods ∧ method.name = name := by
  simp [Service.methodsNamed]

end Schema

namespace Binding

open Schema

/-- What a step needs to be bound, in the order in which it is asked for. -/
inductive Need where
  | mark
  | service
  | method
  | shape
  deriving DecidableEq, Repr

structure Offers (pool : Pool) (step : Step) (file : File) (service : Service) : Prop where
  file_mem : file ∈ pool.files
  service_mem : service ∈ file.services
  name_eq : service.name = step.serviceName

def remoteCount (service : Service) : Nat :=
  (service.methods.map (·.name)).count Naming.remoteMethod

def shapeOf (method : Method) : Shape :=
  Shape.ofFlags method.clientStreaming method.serverStreaming

/-- Whether a pool gives a step what it needs. -/
def Met (pool : Pool) (step : Step) : Need → Prop
  | .mark => Naming.serviceMark.toList <+: step.serviceName.toList
  | .service => pool.serviceNames.count step.serviceName = 1
  | .method => ∀ file service, Offers pool step file service → remoteCount service = 1
  | .shape => ∀ file service, Offers pool step file service → ∀ method ∈ service.methods,
      method.name = Naming.remoteMethod → shapeOf method = step.shape

def FirstUnmet (pool : Pool) (step : Step) (need : Need) : Prop :=
  ¬Met pool step need ∧ ∀ earlier : Need, earlier.ctorIdx < need.ctorIdx → Met pool step earlier

inductive Reports (pool : Pool) (step : Step) : Need → Error → Prop
  | unmarked : Reports pool step .mark (.invalidServiceName step.name step.serviceName)
  | noService (hcount : pool.serviceNames.count step.serviceName = 0) :
      Reports pool step .service
        (.serviceNotFound step.name step.serviceName (pool.suggestServices step.serviceName))
  | manyServices (hcount : 1 < pool.serviceNames.count step.serviceName) :
      Reports pool step .service (.duplicateService step.name step.serviceName
        ((pool.servicesNamed step.serviceName).map (·.1.name)))
  | noMethod {file : File} {service : Service} (hoffers : Offers pool step file service)
      (hcount : remoteCount service = 0) :
      Reports pool step .method (.methodNotFound step.name service.name file.name)
  | manyMethods {file : File} {service : Service} (hoffers : Offers pool step file service)
      (hcount : 1 < remoteCount service) :
      Reports pool step .method
        (.duplicateMethod step.name service.name file.name (remoteCount service))
  | otherShape {file : File} {service : Service} {method : Method}
      (hoffers : Offers pool step file service) (hmethod : method ∈ service.methods)
      (hname : method.name = Naming.remoteMethod) :
      Reports pool step .shape
        (.shapeMismatch step.name service.name method.name step.shape (shapeOf method))

def bindTo (step : Step) (file : File) (service : Service) (method : Method) :
    Except Error (Outcome Binding) :=
  if shapeOf method ≠ step.shape then
    .error (.shapeMismatch step.name service.name method.name step.shape (shapeOf method))
  else .ok ⟨⟨step, file.name, service, method⟩, extraMethods step service⟩

section Resolution

variable {pool : Pool} {step : Step} {file : File} {service : Service} {method : Method}

theorem mem_servicesNamed_iff_offers :
    (file, service) ∈ pool.servicesNamed step.serviceName ↔ Offers pool step file service := by
  rw [Pool.mem_servicesNamed]
  exact ⟨fun ⟨hfile, hservice, hname⟩ => ⟨hfile, hservice, hname⟩,
    fun hoffers => ⟨hoffers.file_mem, hoffers.service_mem, hoffers.name_eq⟩⟩

theorem service?_eq_ok_iff_offers :
    service? step pool = .ok (file, service) ↔
      Met pool step .service ∧ Offers pool step file service := by
  rw [service?_eq_ok_iff, eq_singleton_iff, Pool.length_servicesNamed,
    mem_servicesNamed_iff_offers, Met]

theorem method?_eq_ok_iff_remoteCount :
    method? step file service = .ok method ↔
      remoteCount service = 1 ∧ method ∈ service.methods ∧
        method.name = Naming.remoteMethod := by
  rw [method?_eq_ok_iff, eq_singleton_iff, Service.length_methodsNamed, Service.mem_methodsNamed,
    remoteCount]

/-- A service that is named once is in one file. -/
theorem exists_offers (h : Met pool step .service) :
    ∃ file service, Offers pool step file service := by
  have hpos : 0 < (pool.servicesNamed step.serviceName).length := by
    rw [Pool.length_servicesNamed, h]
    omega
  obtain ⟨⟨file, service⟩, hfound⟩ := List.exists_mem_of_length_pos hpos
  exact ⟨file, service, mem_servicesNamed_iff_offers.mp hfound⟩

theorem exists_remote_method (h : remoteCount service = 1) :
    ∃ method ∈ service.methods, method.name = Naming.remoteMethod := by
  have hpos : 0 < (service.methodsNamed Naming.remoteMethod).length := by
    rw [Service.length_methodsNamed, ← remoteCount, h]
    omega
  obtain ⟨method, hmethod⟩ := List.exists_mem_of_length_pos hpos
  exact ⟨method, Service.mem_methodsNamed.mp hmethod⟩

theorem offers_unique (h : Met pool step .service) {file' : File} {service' : Service}
    (hoffers : Offers pool step file service) (hoffers' : Offers pool step file' service') :
    file = file' ∧ service = service' := by
  have hservice := service?_eq_ok_iff_offers.mpr ⟨h, hoffers⟩
  have hservice' := service?_eq_ok_iff_offers.mpr ⟨h, hoffers'⟩
  exact Prod.mk.inj (Except.ok.inj (hservice.symm.trans hservice'))

theorem remote_unique (h : remoteCount service = 1) {method' : Method}
    (hmethod : method ∈ service.methods) (hname : method.name = Naming.remoteMethod)
    (hmethod' : method' ∈ service.methods) (hname' : method'.name = Naming.remoteMethod) :
    method = method' := by
  rw [remoteCount, ← Service.length_methodsNamed] at h
  obtain ⟨only, honly⟩ := List.length_eq_one_iff.mp h
  have hmem := Service.mem_methodsNamed.mpr ⟨hmethod, hname⟩
  have hmem' := Service.mem_methodsNamed.mpr ⟨hmethod', hname'⟩
  rw [honly, List.mem_singleton] at hmem hmem'
  rw [hmem, hmem']

theorem service?_of_reports {e : Error} (h : Reports pool step .service e) :
    service? step pool = .error e := by
  cases h with
  | noService hcount =>
    rw [← Pool.length_servicesNamed, List.length_eq_zero_iff] at hcount
    exact service?_of_nil hcount
  | manyServices hcount =>
    rw [← Pool.length_servicesNamed] at hcount
    obtain ⟨first, second, rest, hfound⟩ := exists_cons_cons_of_one_lt_length hcount
    rw [hfound]
    exact service?_of_cons_cons hfound

theorem method?_of_remoteCount_eq_zero (h : remoteCount service = 0) :
    method? step file service = .error (.methodNotFound step.name service.name file.name) := by
  rw [remoteCount, ← Service.length_methodsNamed, List.length_eq_zero_iff] at h
  rw [method?, h]

theorem method?_of_one_lt_remoteCount (h : 1 < remoteCount service) :
    method? step file service =
      .error (.duplicateMethod step.name service.name file.name (remoteCount service)) := by
  rw [remoteCount, ← Service.length_methodsNamed] at h
  obtain ⟨first, second, rest, hfound⟩ := exists_cons_cons_of_one_lt_length h
  rw [remoteCount, ← Service.length_methodsNamed, method?, hfound]

end Resolution

/-- Of the needs that are not met one is the first. -/
theorem exists_firstUnmet {pool : Pool} {step : Step} (h : ¬∀ need, Met pool step need) :
    ∃ need, FirstUnmet pool step need := by
  obtain ⟨need, hunmet, hleast⟩ :=
    (measure Need.ctorIdx).wf.has_min {need | ¬Met pool step need} (not_forall.mp h)
  refine ⟨need, hunmet, ?_⟩
  intro earlier hlt
  by_contra hnot
  exact hleast earlier hnot hlt

theorem exists_reports {pool : Pool} {step : Step} {need : Need}
    (h : FirstUnmet pool step need) : ∃ e, Reports pool step need e := by
  obtain ⟨hunmet, hearlier⟩ := h
  cases need with
  | mark => exact ⟨_, .unmarked⟩
  | service =>
    rcases Nat.lt_or_gt_of_ne hunmet with hcount | hcount
    · exact ⟨_, .noService (by omega)⟩
    · exact ⟨_, .manyServices hcount⟩
  | method =>
    obtain ⟨file, service, hoffers⟩ := exists_offers (hearlier .service (by decide))
    have hcount : remoteCount service ≠ 1 := by
      intro hcount
      apply hunmet
      intro file' service' hoffers'
      obtain ⟨rfl, rfl⟩ := offers_unique (hearlier .service (by decide)) hoffers hoffers'
      exact hcount
    rcases Nat.lt_or_gt_of_ne hcount with hcount | hcount
    · exact ⟨_, .noMethod hoffers (by omega)⟩
    · exact ⟨_, .manyMethods hoffers hcount⟩
  | shape =>
    obtain ⟨file, service, hoffers⟩ := exists_offers (hearlier .service (by decide))
    have hcount := hearlier .method (by decide) file service hoffers
    obtain ⟨method, hmethod, hname⟩ := exists_remote_method hcount
    exact ⟨_, .otherShape hoffers hmethod hname⟩

theorem exists_warning_iff (step : Step) (service : Service) :
    (∃ d ∈ extraMethods step service, d.severity = .warning ∧ d.code = Diagnostic.extraMethod) ↔
      ∃ other ∈ service.methods, other.name ≠ Naming.remoteMethod := by
  unfold extraMethods
  dsimp only
  split
  · next hnone => simpa [List.isEmpty_iff, List.filter_eq_nil_iff] using hnone
  · next hsome =>
    have hother : ∃ other ∈ service.methods, other.name ≠ Naming.remoteMethod := by
      simpa [List.isEmpty_iff, List.filter_eq_nil_iff] using hsome
    simp [hother, Diagnostic.warning]

section Owned

variable {pool : Pool} {step : Step} {file : File} {service : Service} {method : Method}
  (howned : ∀ file ∈ pool.files, ∀ service ∈ file.services, ∀ method ∈ service.methods,
    (pool.owner? method.inputType).isSome = true ∧ (pool.owner? method.outputType).isSome = true)
include howned

theorem resolve_of_mark (hmark : Met pool step .mark) :
    resolve step pool = (service? step pool).bind fun found =>
      (method? step found.1 found.2).bind (bindTo step found.1 found.2) := by
  have hstarts := Text.startsWith_iff.mpr hmark
  rw [resolve_eq_of_owned howned, if_neg (by simp [hstarts])]
  rfl

theorem resolve_of_offers (hmark : Met pool step .mark) (hservice : Met pool step .service)
    (hoffers : Offers pool step file service) :
    resolve step pool = (method? step file service).bind (bindTo step file service) := by
  rw [resolve_of_mark howned hmark, service?_eq_ok_iff_offers.mpr ⟨hservice, hoffers⟩]
  rfl

theorem resolve_of_remote (hmark : Met pool step .mark) (hservice : Met pool step .service)
    (hoffers : Offers pool step file service) (hcount : remoteCount service = 1)
    (hmethod : method ∈ service.methods) (hname : method.name = Naming.remoteMethod) :
    resolve step pool = bindTo step file service method := by
  rw [resolve_of_offers howned hmark hservice hoffers,
    method?_eq_ok_iff_remoteCount.mpr ⟨hcount, hmethod, hname⟩]
  rfl

/-- An error about the first need that is not met is the answer. -/
theorem resolve_of_reports {need : Need} {e : Error} (hfirst : FirstUnmet pool step need)
    (hreports : Reports pool step need e) : resolve step pool = .error e := by
  obtain ⟨hunmet, hearlier⟩ := hfirst
  cases hreports with
  | unmarked =>
    have hstarts : ¬Text.startsWith Naming.serviceMark step.serviceName = true :=
      mt Text.startsWith_iff.mp hunmet
    rw [resolve_eq_of_owned howned, if_pos (by simpa using hstarts)]
  | noService hcount =>
    rw [resolve_of_mark howned (hearlier .mark (by decide)),
      service?_of_reports (.noService hcount)]
    rfl
  | manyServices hcount =>
    rw [resolve_of_mark howned (hearlier .mark (by decide)),
      service?_of_reports (.manyServices hcount)]
    rfl
  | noMethod hoffers hcount =>
    rw [resolve_of_offers howned (hearlier .mark (by decide)) (hearlier .service (by decide))
      hoffers, method?_of_remoteCount_eq_zero hcount]
    rfl
  | manyMethods hoffers hcount =>
    rw [resolve_of_offers howned (hearlier .mark (by decide)) (hearlier .service (by decide))
      hoffers, method?_of_one_lt_remoteCount hcount]
    rfl
  | @otherShape file service method hoffers hmethod hname =>
    have hservice := hearlier .service (by decide)
    have hcount := hearlier .method (by decide) file service hoffers
    have hother : shapeOf method ≠ step.shape := by
      intro hshape
      apply hunmet
      intro file' service' hoffers' method' hmethod' hname'
      -- Service and method are the only ones of their names, so that these are the same.
      obtain ⟨rfl, rfl⟩ := offers_unique hservice hoffers hoffers'
      rw [remote_unique hcount hmethod' hname' hmethod hname, hshape]
    rw [resolve_of_remote howned (hearlier .mark (by decide)) hservice hoffers hcount hmethod hname,
      bindTo, if_pos hother]

/-- What a step gets if all its needs are met. -/
theorem exists_resolve_of_met (hmet : ∀ need, Met pool step need) :
    ∃ file service method, Offers pool step file service ∧ remoteCount service = 1 ∧
      method ∈ service.methods ∧ method.name = Naming.remoteMethod ∧
      resolve step pool = .ok ⟨⟨step, file.name, service, method⟩, extraMethods step service⟩ := by
  obtain ⟨file, service, hoffers⟩ := exists_offers (hmet .service)
  have hcount := hmet .method file service hoffers
  obtain ⟨method, hmethod, hname⟩ := exists_remote_method hcount
  have hshape := hmet .shape file service hoffers method hmethod hname
  refine ⟨file, service, method, hoffers, hcount, hmethod, hname, ?_⟩
  rw [resolve_of_remote howned (hmet .mark) (hmet .service) hoffers hcount hmethod hname,
    bindTo, if_neg (not_not_intro hshape)]

theorem resolve_cases (step : Step) :
    ((∀ need, Met pool step need) ∧ ∃ outcome, resolve step pool = .ok outcome) ∨
      ∃ need e, FirstUnmet pool step need ∧ Reports pool step need e ∧
        resolve step pool = .error e := by
  by_cases hmet : ∀ need, Met pool step need
  · obtain ⟨file, service, method, _, _, _, _, hok⟩ := exists_resolve_of_met howned hmet
    exact .inl ⟨hmet, _, hok⟩
  · obtain ⟨need, hfirst⟩ := exists_firstUnmet hmet
    obtain ⟨e, hreports⟩ := exists_reports hfirst
    exact .inr ⟨need, e, hfirst, hreports, resolve_of_reports howned hfirst hreports⟩

theorem exists_resolve_eq_ok_iff :
    (∃ outcome, resolve step pool = .ok outcome) ↔ ∀ need, Met pool step need := by
  rcases resolve_cases howned step with ⟨hmet, hok⟩ | ⟨need, e, hfirst, -, herror⟩
  · exact iff_of_true hok hmet
  · refine iff_of_false ?_ fun hmet => hfirst.1 (hmet need)
    rintro ⟨outcome, hok⟩
    rw [hok] at herror
    cases herror

theorem resolve_eq_error_iff {e : Error} :
    resolve step pool = .error e ↔
      ∃ need, FirstUnmet pool step need ∧ Reports pool step need e := by
  constructor
  · intro herror
    rcases resolve_cases howned step with ⟨-, outcome, hok⟩ | ⟨need, e', hfirst, hreports, herror'⟩
    · rw [hok] at herror
      cases herror
    · obtain rfl := Except.error.inj (herror.symm.trans herror')
      exact ⟨need, hfirst, hreports⟩
  · rintro ⟨need, hfirst, hreports⟩
    exact resolve_of_reports howned hfirst hreports

/-- What a step is bound to, and when that is remarked on. -/
theorem binding_of_resolve_eq_ok {outcome : Outcome Binding}
    (hok : resolve step pool = .ok outcome) :
    ∃ file service method, Offers pool step file service ∧ method ∈ service.methods ∧
      method.name = Naming.remoteMethod ∧ outcome.value = ⟨step, file.name, service, method⟩ ∧
      ((∃ d ∈ outcome.diagnostics, d.severity = .warning ∧ d.code = Diagnostic.extraMethod) ↔
        ∃ other ∈ service.methods, other ≠ method) := by
  obtain ⟨file, service, method, hoffers, hcount, hmethod, hname, hok'⟩ :=
    exists_resolve_of_met howned ((exists_resolve_eq_ok_iff howned).mp ⟨outcome, hok⟩)
  obtain rfl := Except.ok.inj (hok.symm.trans hok')
  refine ⟨file, service, method, hoffers, hmethod, hname, rfl, ?_⟩
  rw [exists_warning_iff]
  -- Methods are told apart by their names, since only one of them is the remote one.
  apply exists_congr
  intro other
  apply and_congr_right
  intro hother
  apply not_congr
  constructor
  · intro hremote
    exact remote_unique hcount hother hremote hmethod hname
  · rintro rfl
    exact hname

end Owned

/-- A step is bound to a service of a pool that is built exactly if all its needs are met. It is
then bound to the one service with its service name and to the one remote method of that, and there
is a warning exactly if the service has other methods. Otherwise the error is about the first need
that is not met. -/
theorem resolve_iff_needs {descriptors : List FileDescriptor} {pool : Pool}
    (h : Pool.build descriptors = .ok pool) (step : Step) :
    ((∃ outcome, resolve step pool = .ok outcome) ↔ ∀ need, Met pool step need) ∧
    (∀ outcome, resolve step pool = .ok outcome → ∃ file service method,
      Offers pool step file service ∧ method ∈ service.methods ∧
      method.name = Naming.remoteMethod ∧ outcome.value = ⟨step, file.name, service, method⟩ ∧
      ((∃ d ∈ outcome.diagnostics, d.severity = .warning ∧ d.code = Diagnostic.extraMethod) ↔
        ∃ other ∈ service.methods, other ≠ method)) ∧
    ∀ e, resolve step pool = .error e ↔
      ∃ need, FirstUnmet pool step need ∧ Reports pool step need e := by
  have howned := (build_sound h).types_owned
  exact ⟨exists_resolve_eq_ok_iff howned, fun _ => binding_of_resolve_eq_ok howned,
    fun _ => resolve_eq_error_iff howned⟩

def tillFile : FileDescriptor where
  name := some "till.proto"
  package := some "acme"
  messages := [.mk (some "Bill") []]
  services := [{ name := some "ProcessPayService", methods := [
    { name := some "remoteProcess", inputType := some ".acme.Bill",
      outputType := some ".acme.Bill", serverStreaming := some true },
    { name := some "status", inputType := some ".acme.Bill", outputType := some ".acme.Bill" }] }]

def paying : Step where
  name := "pay"
  serviceName := "ProcessPayService"
  serviceSpace := "acme"
  qualifiedService := "acme.ProcessPayService"
  input := {}
  output := {}
  shape := .unaryStreaming
  targets := { grpcService := true }
  execution := .default
  role := .pipelineServer

theorem till_built : ∃ pool, Pool.build [tillFile] = .ok pool ∧ pool.files = [tillFile.file] := by
  have hbuilds : (Pool.build [tillFile]).toOption.any (·.files == [tillFile.file]) = true := by
    decide +kernel
  obtain ⟨pool, hpool, hfiles⟩ := (Option.any_eq_true _ _).mp hbuilds
  exact ⟨pool, toOption_eq_some_iff.mp hpool, eq_of_beq hfiles⟩

theorem till_service : ∀ service ∈ tillFile.file.services,
    remoteCount service = 1 ∧
    (∀ method ∈ service.methods, method.name = Naming.remoteMethod →
      shapeOf method = paying.shape) ∧
    ∃ other ∈ service.methods, other.name ≠ Naming.remoteMethod := by
  decide

theorem till_binds : ∃ pool, Pool.build [tillFile] = .ok pool ∧
    (∃ outcome, resolve paying pool = .ok outcome ∧
      ∃ d ∈ outcome.diagnostics, d.severity = .warning ∧ d.code = Diagnostic.extraMethod) ∧
    resolve { paying with serviceName := "PayService", shape := .unaryUnary } pool =
      .error (.invalidServiceName "pay" "PayService") := by
  obtain ⟨pool, hpool, hfiles⟩ := till_built
  have hservices {file : File} {service : Service} (hoffers : Offers pool paying file service) :
      service ∈ tillFile.file.services := by
    have hfile := hoffers.file_mem
    rw [hfiles, List.mem_singleton] at hfile
    exact hfile ▸ hoffers.service_mem
  have hmet : ∀ need, Met pool paying need := by
    intro need
    cases need with
    | mark => exact List.isPrefixOf_iff_prefix.mp (by decide)
    | service =>
      rw [Met, Pool.serviceNames, hfiles]
      decide
    | method =>
      intro file service hoffers
      exact (till_service service (hservices hoffers)).1
    | shape =>
      intro file service hoffers
      exact (till_service service (hservices hoffers)).2.1
  obtain ⟨hok, hbinding, -⟩ := resolve_iff_needs hpool paying
  obtain ⟨outcome, houtcome⟩ := hok.mpr hmet
  refine ⟨pool, hpool, ⟨outcome, houtcome, ?_⟩, ?_⟩
  · obtain ⟨file, service, method, hoffers, -, hname, -, hwarning⟩ := hbinding outcome houtcome
    obtain ⟨other, hother, hne⟩ := (till_service service (hservices hoffers)).2.2
    refine hwarning.mpr ⟨other, hother, ?_⟩
    rintro rfl
    exact hne hname
  · obtain ⟨-, -, herror⟩ := resolve_iff_needs hpool
      { paying with serviceName := "PayService", shape := .unaryUnary }
    refine (herror _).mpr ⟨.mark, ⟨?_, ?_⟩, .unmarked⟩
    · rw [Met, ← List.isPrefixOf_iff_prefix]
      decide
    · intro earlier hlt
      cases earlier <;> exact absurd hlt (by decide)

end Binding

end PipelinePlan
