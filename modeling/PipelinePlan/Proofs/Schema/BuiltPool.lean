import PipelinePlan.Proofs.Schema.ListingOrder

namespace PipelinePlan.Schema

theorem ImportsFirst.exists_lt {files : List File} (h : ImportsFirst files) {i : Nat}
    (hi : i < files.length) {name : String} (hname : name ∈ files[i].dependencies) :
    ∃ j, ∃ hj : j < i, files[j].name = name := by
  have hsplit : files = files.take i ++ files[i] :: files.drop (i + 1) := by simp
  obtain ⟨other, hother, hname'⟩ := ready_iff.mp (h _ _ _ hsplit) name hname
  obtain ⟨j, hj, rfl⟩ := List.mem_take_iff_getElem.mp hother
  exact ⟨j, by omega, hname'⟩

theorem Pool.Indexed.find?_eq_some_iff {pool : Pool} (h : pool.Indexed) {name : String}
    {file : File} : pool.find? name = some file ↔ file ∈ pool.files ∧ file.name = name := by
  rw [h.find?_eq]
  constructor
  · intro hfind
    have hname := List.find?_some hfind
    exact ⟨List.mem_of_find?_eq_some hfind, by simpa using hname⟩
  · rintro ⟨hfile, rfl⟩
    apply find?_of_unique hfile (by simp)
    intro other hother hname
    exact List.inj_on_of_nodup_map h.names_nodup hother hfile (by simpa using hname)

theorem Pool.Indexed.owner?_eq_some_iff {pool : Pool} (h : pool.Indexed) {message : String}
    {file : File} :
    pool.owner? message = some file ↔ ∃ before after, pool.files = before ++ file :: after ∧
      file.declares message = true ∧ ∀ other ∈ before, other.declares message = false := by
  rw [h.owner?_eq, List.find?_eq_some_iff_append]
  simp only [Bool.not_eq_true']
  constructor
  · rintro ⟨hdeclares, before, after, hfiles, hnone⟩
    exact ⟨before, after, hfiles, hdeclares, hnone⟩
  · rintro ⟨before, after, hfiles, hdeclares, hnone⟩
    exact ⟨hdeclares, before, after, hfiles, hnone⟩

theorem mem_usedTypes {file : File} {service : Service} {method : Method}
    (hservice : service ∈ file.services) (hmethod : method ∈ service.methods) :
    (service, method, method.inputType) ∈ file.usedTypes ∧
      (service, method, method.outputType) ∈ file.usedTypes := by
  have hmem : ∀ type ∈ [method.inputType, method.outputType],
      (service, method, type) ∈ file.usedTypes := by
    intro type htype
    refine List.mem_flatMap.mpr ⟨service, hservice, List.mem_flatMap.mpr ⟨method, hmethod, ?_⟩⟩
    simpa using htype
  exact ⟨hmem _ (by simp), hmem _ (by simp)⟩

/-- A type that passes the check is declared by the file or by one built before it. -/
theorem Resolves.exists_declares {built : List File} {file : File} {type : String}
    (h : Resolves built file type) : ∃ owner ∈ built ++ [file], owner.declares type = true := by
  rcases h with hown | ⟨owner, hfind, -⟩
  · exact ⟨file, by simp, hown⟩
  · have hdeclares := List.find?_some hfind
    exact ⟨owner, List.mem_append_left _ (List.mem_of_find?_eq_some hfind), hdeclares⟩

structure Pool.Sound (descriptors : List FileDescriptor) (pool : Pool) : Prop where
  indexed : pool.Indexed
  files_perm : pool.files.Perm (filesOf descriptors)
  imports_before : ∀ i, ∀ hi : i < pool.files.length, ∀ name ∈ pool.files[i].dependencies,
    ∃ j, ∃ hj : j < i, pool.files[j].name = name
  find?_iff : ∀ name file,
    pool.find? name = some file ↔ file ∈ filesOf descriptors ∧ file.name = name
  owner?_iff : ∀ message file, pool.owner? message = some file ↔
    ∃ before after, pool.files = before ++ file :: after ∧ file.declares message = true ∧
      ∀ other ∈ before, other.declares message = false
  owner?_none : ∀ message,
    pool.owner? message = none ↔ ∀ file ∈ filesOf descriptors, file.declares message = false
  types_owned : ∀ file ∈ pool.files, ∀ service ∈ file.services, ∀ method ∈ service.methods,
    (pool.owner? method.inputType).isSome = true ∧ (pool.owner? method.outputType).isSome = true

section Built

variable {descriptors : List FileDescriptor} {pool : Pool}
  (h : Pool.build descriptors = .ok pool)
include h

theorem owner?_isSome_of_mem_usedTypes {file : File} (hfile : file ∈ pool.files)
    {use : Service × Method × String} (huse : use ∈ file.usedTypes) :
    (pool.owner? use.2.2).isSome = true := by
  obtain ⟨hnamed, hcheck, -⟩ := build_ok_inv h
  have hfiles := build_files_eq h
  rw [hfiles] at hfile
  obtain ⟨before, after, heq⟩ := List.append_of_mem hfile
  have hok : file.checkTypes before = .ok () := by
    by_contra hfail
    exact hcheck file (mem_of_mem_buildOrder hfile)
      (failsCheck_iff_checkTypes.mpr ⟨before, after, heq, hfail⟩)
  rw [checkTypes_eq_ok_iff (names_nodup_before hnamed.names_nodup heq)] at hok
  obtain ⟨owner, howner, hdeclares⟩ := (hok use huse).exists_declares
  rw [(build_indexed h).owner?_eq, List.find?_isSome, hfiles, heq]
  refine ⟨owner, ?_, hdeclares⟩
  rw [← List.singleton_append, ← List.append_assoc]
  exact List.mem_append_left _ howner

theorem build_sound : pool.Sound descriptors := by
  have hperm := build_files_perm h
  have hindexed := build_indexed h
  have hfirst : ImportsFirst pool.files := by
    rw [build_files_eq h]
    exact buildOrder_importsFirst _
  refine ⟨hindexed, hperm, fun i hi name hname => hfirst.exists_lt hi hname, ?_, ?_, ?_, ?_⟩
  · intro name file
    rw [hindexed.find?_eq_some_iff, hperm.mem_iff]
  · intro message file
    exact hindexed.owner?_eq_some_iff
  · intro message
    simp only [hindexed.owner?_eq, List.find?_eq_none, hperm.mem_iff, Bool.not_eq_true]
  · intro file hfile service hservice method hmethod
    obtain ⟨hinput, houtput⟩ := mem_usedTypes hservice hmethod
    exact ⟨owner?_isSome_of_mem_usedTypes h hfile hinput,
      owner?_isSome_of_mem_usedTypes h hfile houtput⟩

end Built

theorem Pool.mem_servicesNamed {pool : Pool} {name : String} {file : File} {service : Service} :
    (file, service) ∈ pool.servicesNamed name ↔
      file ∈ pool.files ∧ service ∈ file.services ∧ service.name = name := by
  simp only [Pool.servicesNamed, List.mem_flatMap, List.mem_map, List.mem_filter, beq_iff_eq,
    Prod.mk.injEq]
  constructor
  · rintro ⟨file', hfile, service', hservice, rfl, rfl⟩
    exact ⟨hfile, hservice⟩
  · rintro ⟨hfile, hservice⟩
    exact ⟨file, hfile, service, hservice, rfl, rfl⟩

end PipelinePlan.Schema

namespace PipelinePlan.Binding

open Schema

theorem service?_eq_ok_iff {step : Step} {pool : Pool} {found : File × Service} :
    service? step pool = .ok found ↔ pool.servicesNamed step.serviceName = [found] := by
  rw [service?]
  split
  · next hnone => simp [hnone]
  · next only honly => simp [honly]
  · next hmany =>
    constructor
    · intro h
      cases h
    · intro h
      exact absurd h (hmany found)

theorem service?_error {step : Step} {pool : Pool} {e : Error}
    (h : service? step pool = .error e) :
    (∃ suggestions, e = .serviceNotFound step.name step.serviceName suggestions) ∨
      ∃ files, e = .duplicateService step.name step.serviceName files := by
  rw [service?] at h
  split at h
  · exact .inl ⟨_, (Except.error.inj h).symm⟩
  · cases h
  · exact .inr ⟨_, (Except.error.inj h).symm⟩

theorem method?_eq_ok_iff {step : Step} {file : File} {service : Service} {method : Method} :
    method? step file service = .ok method ↔
      service.methodsNamed Naming.remoteMethod = [method] := by
  rw [method?]
  split
  · next hnone => simp [hnone]
  · next only honly => simp [honly]
  · next hmany =>
    constructor
    · intro h
      cases h
    · intro h
      exact absurd h (hmany method)

theorem method?_error {step : Step} {file : File} {service : Service} {e : Error}
    (h : method? step file service = .error e) :
    e = .methodNotFound step.name service.name file.name ∨
      ∃ count, e = .duplicateMethod step.name service.name file.name count := by
  rw [method?] at h
  split at h
  · exact .inl (Except.error.inj h).symm
  · cases h
  · exact .inr ⟨_, (Except.error.inj h).symm⟩

/-- What goes wrong with a step is that no service or no method is found for it, unless it goes wrong
with the method that is found. -/
theorem error_of_found {α : Type} {step : Step} {pool : Pool} {e : Error}
    {use : File × Service → Method → Except Error α}
    (h : ((service? step pool).bind fun found =>
      (method? step found.1 found.2).bind (use found)) = .error e) :
    (∃ suggestions, e = .serviceNotFound step.name step.serviceName suggestions) ∨
    (∃ files, e = .duplicateService step.name step.serviceName files) ∨
    (∃ service file, e = .methodNotFound step.name service file) ∨
    (∃ service file count, e = .duplicateMethod step.name service file count) ∨
    ∃ found method, use found method = .error e := by
  cases hservice : service? step pool with
  | error e' =>
    rw [hservice] at h
    obtain rfl := Except.error.inj h
    rcases service?_error hservice with hnone | hmany
    · exact .inl hnone
    · exact .inr (.inl hmany)
  | ok found =>
    simp only [hservice, Except.bind] at h
    cases hmethod : method? step found.1 found.2 with
    | error e' =>
      rw [hmethod] at h
      obtain rfl := Except.error.inj h
      rcases method?_error hmethod with hnone | ⟨count, hmany⟩
      · exact .inr (.inr (.inl ⟨_, _, hnone⟩))
      · exact .inr (.inr (.inr (.inl ⟨_, _, count, hmany⟩)))
    | ok method =>
      rw [hmethod] at h
      exact .inr (.inr (.inr (.inr ⟨found, method, h⟩)))

/-- The checks of a binding one after the other. -/
theorem resolve_eq (step : Step) (pool : Pool) :
    resolve step pool =
      if Text.startsWith Naming.serviceMark step.serviceName = false then
        .error (.invalidServiceName step.name step.serviceName)
      else (service? step pool).bind fun found =>
        (method? step found.1 found.2).bind fun method =>
          if pool.owner? method.inputType = none then
            .error (.unresolvedMessage step.name method.inputType)
          else if pool.owner? method.outputType = none then
            .error (.unresolvedMessage step.name method.outputType)
          else if Shape.ofFlags method.clientStreaming method.serverStreaming ≠ step.shape then
            .error (.shapeMismatch step.name found.2.name method.name step.shape
              (Shape.ofFlags method.clientStreaming method.serverStreaming))
          else .ok ⟨⟨step, found.1.name, found.2, method⟩, extraMethods step found.2⟩ := by
  simp only [resolve, Bool.not_eq_true', Option.isNone_iff_eq_none, bne_iff_ne]
  split
  · rfl
  · cases service? step pool with
    | error e => rfl
    | ok found =>
      cases hmethod : method? step found.1 found.2 with
      | error e => simp only [bind, Except.bind, hmethod]
      | ok method =>
        simp only [bind, Except.bind, hmethod]
        split
        · rfl
        · split
          · rfl
          · split <;> rfl

section Owned

variable {pool : Pool}
  (h : ∀ file ∈ pool.files, ∀ service ∈ file.services, ∀ method ∈ service.methods,
    (pool.owner? method.inputType).isSome = true ∧ (pool.owner? method.outputType).isSome = true)
include h

/-- Where the types of all methods have owners, the checks of the types can be left out. -/
theorem resolve_eq_of_owned (step : Step) :
    resolve step pool =
      if Text.startsWith Naming.serviceMark step.serviceName = false then
        .error (.invalidServiceName step.name step.serviceName)
      else (service? step pool).bind fun found =>
        (method? step found.1 found.2).bind fun method =>
          if Shape.ofFlags method.clientStreaming method.serverStreaming ≠ step.shape then
            .error (.shapeMismatch step.name found.2.name method.name step.shape
              (Shape.ofFlags method.clientStreaming method.serverStreaming))
          else .ok ⟨⟨step, found.1.name, found.2, method⟩, extraMethods step found.2⟩ := by
  rw [resolve_eq]
  congr 1
  cases hservice : service? step pool with
  | error e => rfl
  | ok found =>
    obtain ⟨file, service⟩ := found
    cases hmethod : method? step file service with
    | error e => simp only [Except.bind, hmethod]
    | ok method =>
      -- The method belongs to a service of the pool, so that both checks of its types pass.
      have hfound : (file, service) ∈ pool.servicesNamed step.serviceName := by
        simp [service?_eq_ok_iff.mp hservice]
      have hmem : method ∈ service.methodsNamed Naming.remoteMethod := by
        simp [method?_eq_ok_iff.mp hmethod]
      obtain ⟨hfile, hservice', -⟩ := Pool.mem_servicesNamed.mp hfound
      obtain ⟨hinput, houtput⟩ := h file hfile service hservice' method (List.mem_filter.mp hmem).1
      simp only [Except.bind, hmethod, if_neg (Option.isSome_iff_ne_none.mp hinput),
        if_neg (Option.isSome_iff_ne_none.mp houtput)]

/-- Where the types of all methods have owners, no binding fails for want of one. -/
theorem resolve_ne_unresolvedMessage (step : Step) (name type : String) :
    resolve step pool ≠ .error (.unresolvedMessage name type) := by
  intro herror
  rw [resolve_eq_of_owned h] at herror
  split at herror
  · cases herror
  rcases error_of_found herror with
    ⟨_, he⟩ | ⟨_, he⟩ | ⟨_, _, he⟩ | ⟨_, _, _, he⟩ | ⟨found, method, he⟩
  · cases he
  · cases he
  · cases he
  · cases he
  · split at he <;> cases he

end Owned

/-- A pool that is built has the files of its set, each after those it imports. It finds a file by
its name and the first file that declares a message, and every type of a method has such a file. So
no step fails to be bound for want of a message. -/
theorem build_ok_sound {descriptors : List FileDescriptor} {pool : Pool}
    (h : Pool.build descriptors = .ok pool) :
    pool.Sound descriptors ∧
      ∀ step name type, resolve step pool ≠ .error (.unresolvedMessage name type) :=
  ⟨build_sound h, resolve_ne_unresolvedMessage (build_sound h).types_owned⟩

theorem shop_sound : ∃ pool, Pool.build shop = .ok pool ∧ pool.Sound shop ∧
    (pool.owner? ".acme.Order").isSome = true ∧
      ∀ step name type, resolve step pool ≠ .error (.unresolvedMessage name type) := by
  obtain ⟨pool, hpool⟩ := shop_built
  obtain ⟨hsound, hresolve⟩ := build_ok_sound hpool
  have hshop : shopFile.file ∈ pool.files := by simp [hsound.files_perm.mem_iff, mem_shop]
  have hused : ∀ service ∈ shopFile.file.services, ∀ method ∈ service.methods,
      method.inputType = ".acme.Order" := by
    decide +kernel
  obtain ⟨service, hservice, method, hmethod⟩ :
      ∃ service ∈ shopFile.file.services, ∃ method, method ∈ service.methods :=
    ⟨_, List.mem_cons_self, _, List.mem_cons_self⟩
  have howner := (hsound.types_owned _ hshop service hservice method hmethod).1
  rw [hused service hservice method hmethod] at howner
  exact ⟨pool, hpool, hsound, howner, hresolve⟩

end PipelinePlan.Binding
