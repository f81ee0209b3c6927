import PipelinePlan.GeneratedTypes
import PipelinePlan.Proofs.Binding
import PipelinePlan.Proofs.Schema.MessageNames

namespace PipelinePlan.GeneratedTypes

open Schema

/-- The type of the message with a path: the code package, the container unless every type has a
file of its own, and the path. -/
def spelled (file : File) (path : List String) : String :=
  ".".intercalate ((if file.codePackage = "" then [] else [file.codePackage]) ++
    (if file.naming.multipleFiles then [] else [file.outerContainer]) ++ path)

section Messages

variable {file : File} {path : List String}

theorem qualify_intercalate (space : String) (hpath : path ≠ []) :
    Name.qualify space (".".intercalate path) =
      ".".intercalate ((if space = "" then [] else [space]) ++ path) := by
  unfold Name.qualify
  by_cases hspace : space = ""
  · simp [hspace]
  · simp [hspace, String.intercalate_cons_of_ne_nil hpath]

/-- A message whose name lies in the package of the file has the type of its path; its whole name is
not fallen back on. -/
theorem ofMessage_absoluteName (hpath : file.package = "" ∨ dotted path ≠ "") :
    ofMessage file (absoluteName file.package path) =
      Name.qualify file.codePackage
        (if file.naming.multipleFiles then dotted path
        else file.outerContainer ++ "." ++ dotted path) := by
  rw [ofMessage, File.relativeName?_absoluteName, if_pos hpath, Option.getD_some]
  split <;> rfl

theorem ofMessage_eq_spelled (hne : path ≠ []) (hnames : ∀ name ∈ path, name ≠ "") :
    ofMessage file (absoluteName file.package path) = spelled file path := by
  rw [ofMessage_absoluteName (.inr (dotted_ne_empty hnames hne)), dotted_eq_intercalate hnames,
    spelled]
  split
  · rw [qualify_intercalate _ hne, List.append_nil]
  · rw [← String.intercalate_cons_of_ne_nil hne, qualify_intercalate _ (by simp),
      List.append_assoc, List.singleton_append]

theorem absoluteName_eq_of_ofMessage_eq {path' : List String} (hpath : dotted path ≠ "")
    (hpath' : dotted path' ≠ "")
    (h : ofMessage file (absoluteName file.package path) =
      ofMessage file (absoluteName file.package path')) :
    absoluteName file.package path = absoluteName file.package path' := by
  rw [ofMessage_absoluteName (.inr hpath), ofMessage_absoluteName (.inr hpath'),
    ← String.toList_inj, Name.toList_qualify, Name.toList_qualify, List.append_cancel_left_eq,
    String.toList_inj] at h
  have hdotted : dotted path = dotted path' := by
    split at h
    · exact h
    · exact (String.append_right_inj _).mp h
  rw [absoluteName_eq, absoluteName_eq, hdotted]

end Messages

/-- How a file names the messages of its descriptor and the types generated for them. -/
structure NamesMessages (d : FileDescriptor) (file : File) : Prop where
  listed : ∃ places, Lists d.messages places ∧
    file.messages = places.map fun place => absoluteName file.package place.2
  relative : ∀ address path, MessageAt d.messages address path →
    file.relativeName? (absoluteName file.package path) = some (".".intercalate path)
  generated : ∀ address path, MessageAt d.messages address path →
    ofMessage file (absoluteName file.package path) = spelled file path
  distinct : ∀ message ∈ file.messages, ∀ other ∈ file.messages, message ≠ other →
    ofMessage file message ≠ ofMessage file other

theorem namesMessages_file {d : FileDescriptor} (h : d.MessagesNamed) :
    NamesMessages d d.file := by
  have hdotted {address : List Nat} {path : List String}
      (hat : MessageAt d.messages address path) : dotted path ≠ "" :=
    dotted_ne_empty (h address path hat) hat.path_ne_nil
  refine ⟨⟨_, lists_placesOf d.messages, d.messages_eq⟩, ?_, ?_, ?_⟩
  · intro address path hat
    rw [File.relativeName?_absoluteName, if_pos (.inr (hdotted hat)),
      dotted_eq_intercalate (h address path hat)]
  · intro address path hat
    exact ofMessage_eq_spelled hat.path_ne_nil (h address path hat)
  · intro message hmessage other hother hne htype
    obtain ⟨address, path, hat, rfl⟩ := FileDescriptor.mem_messages_iff.mp hmessage
    obtain ⟨address', path', hat', rfl⟩ := FileDescriptor.mem_messages_iff.mp hother
    exact hne (@absoluteName_eq_of_ofMessage_eq d.file _ _ (hdotted hat) (hdotted hat') htype)

/-- The type for a message of a pool, spelled from its path in the file that owns the message. -/
def IsTypeOf (descriptors : List FileDescriptor) (pool : Pool) (message type : String) : Prop :=
  ∃ d ∈ descriptors, pool.owner? message = some d.file ∧
    ∃ address path, MessageAt d.messages address path ∧
      message = absoluteName d.file.package path ∧ type = spelled d.file path

/-- What the types for a binding are, and when the identifiers of its service are there. -/
structure Identifies (descriptors : List FileDescriptor) (pool : Pool) (binding : Binding)
    (types : GeneratedTypes) : Prop where
  request : IsTypeOf descriptors pool binding.method.inputType types.request
  response : IsTypeOf descriptors pool binding.method.outputType types.response
  service : ∃ file, pool.find? binding.file = some file ∧ binding.service ∈ file.services ∧
    ∀ identifier ∈ [types.stub, types.implBase, types.descriptorHolder],
      identifier.isSome = true ↔ file.codePackage ≠ ""

theorem resolve_request (binding : Binding) (pool : Pool) :
    (resolve binding pool).value.request = ofType pool binding.method.inputType := by
  unfold resolve
  split <;> rfl

theorem resolve_response (binding : Binding) (pool : Pool) :
    (resolve binding pool).value.response = ofType pool binding.method.outputType := by
  unfold resolve
  split <;> rfl

theorem resolve_isSome_iff {binding : Binding} {pool : Pool} {file : File}
    (hfile : pool.find? binding.file = some file) :
    ∀ identifier ∈ [(resolve binding pool).value.stub, (resolve binding pool).value.implBase,
      (resolve binding pool).value.descriptorHolder],
      identifier.isSome = true ↔ file.codePackage ≠ "" := by
  rw [resolve, hfile]
  by_cases hpackage : file.codePackage = ""
  · rw [Option.filter_some_neg (by simp [hpackage])]
    simp [hpackage]
  · rw [Option.filter_some_pos (by simp [hpackage])]
    simp [hpackage]

section Built

variable {descriptors : List FileDescriptor} {pool : Pool}
  (hbuild : Pool.build descriptors = .ok pool)
include hbuild

/-- A message with an owner has the type of its path there. -/
theorem isTypeOf_ofType (hnamed : ∀ d ∈ descriptors, d.MessagesNamed) {message : String}
    (howned : (pool.owner? message).isSome = true) :
    IsTypeOf descriptors pool message (ofType pool message) := by
  obtain ⟨owner, howner⟩ := Option.isSome_iff_exists.mp howned
  obtain ⟨before, after, hfiles, hdeclares, -⟩ := (build_indexed hbuild).owner?_eq_some_iff.mp howner
  have hmem : owner ∈ filesOf descriptors := by
    rw [← (build_sound hbuild).files_perm.mem_iff, hfiles]
    simp
  obtain ⟨d, hd, rfl⟩ := List.mem_map.mp hmem
  obtain ⟨address, path, hat, rfl⟩ :=
    FileDescriptor.mem_messages_iff.mp (List.contains_iff_mem.mp hdeclares)
  refine ⟨d, hd, howner, address, path, hat, rfl, ?_⟩
  rw [ofType, howner]
  exact (namesMessages_file (hnamed d hd)).generated address path hat

/-- The file that a binding names is the one that declares its service. -/
theorem exists_file_of_resolve {step : Step} {outcome : Outcome Binding}
    (hresolve : Binding.resolve step pool = .ok outcome) :
    ∃ file, pool.find? outcome.value.file = some file ∧ outcome.value.service ∈ file.services ∧
      outcome.value.method ∈ outcome.value.service.methods := by
  have hsound := build_sound hbuild
  obtain ⟨file, service, method, hoffers, hmethod, -, hvalue, -⟩ :=
    Binding.binding_of_resolve_eq_ok hsound.types_owned hresolve
  rw [hvalue]
  refine ⟨file, (hsound.find?_iff _ _).mpr ⟨?_, rfl⟩, hoffers.service_mem, hmethod⟩
  exact hsound.files_perm.mem_iff.mp hoffers.file_mem

theorem resolve_identifies (hnamed : ∀ d ∈ descriptors, d.MessagesNamed) {step : Step}
    {outcome : Outcome Binding} (hresolve : Binding.resolve step pool = .ok outcome) :
    Identifies descriptors pool outcome.value (resolve outcome.value pool).value := by
  obtain ⟨file, hfile, hservice, hmethod⟩ := exists_file_of_resolve hbuild hresolve
  obtain ⟨hinput, houtput⟩ := (build_sound hbuild).types_owned file
    ((build_indexed hbuild).find?_eq_some_iff.mp hfile).1 _ hservice _ hmethod
  refine ⟨?_, ?_, file, hfile, hservice, resolve_isSome_iff hfile⟩
  · rw [resolve_request]
    exact isTypeOf_ofType hbuild hnamed hinput
  · rw [resolve_response]
    exact isTypeOf_ofType hbuild hnamed houtput

end Built

/-- In a file whose messages all have names, every message has one absolute name, listed after
those of the messages inside it. It is the path of the message in the package, and the generated
type has the same path, so that different messages have different types. A binding on a pool of
such files has the types of the owners of its two messages, and the identifiers of its service are
there exactly if the file of the service has a code package. -/
theorem generated_types_follow_paths :
    (∀ position d, Text.isBlankText (d.name.getD "") = false → d.MessagesNamed →
      File.ofDescriptor position d = .ok d.file ∧ NamesMessages d d.file) ∧
    ∀ descriptors pool step outcome, (∀ d ∈ descriptors, d.MessagesNamed) →
      Pool.build descriptors = .ok pool → Binding.resolve step pool = .ok outcome →
      Identifies descriptors pool outcome.value (resolve outcome.value pool).value := by
  constructor
  · intro position d hname hnamed
    refine ⟨?_, namesMessages_file hnamed⟩
    rw [File.ofDescriptor, FileDescriptor.file, hname]
    rfl
  · intro descriptors pool step outcome hnamed hbuild hresolve
    exact resolve_identifies hbuild hnamed hresolve

def ledgerFile : FileDescriptor where
  name := some "books/ledger.proto"
  package := some "acme.books"
  messages := [.mk (some "Entry") [.mk (some "Line") [.mk (some "Tax") []], .mk (some "Note") []]]
  services := [{ name := some "ProcessPayService", methods := [
    { name := some "remoteProcess", inputType := some "Entry.Line.Tax",
      outputType := some ".acme.books.Entry", serverStreaming := some true }] }]

theorem ledger_types : ∃ pool outcome, Pool.build [ledgerFile] = .ok pool ∧
    Binding.resolve Binding.paying pool = .ok outcome ∧
    (resolve outcome.value pool).value.request = "acme.books.Ledger.Entry.Line.Tax" ∧
    NamesMessages ledgerFile ledgerFile.file ∧
    Identifies [ledgerFile] pool outcome.value (resolve outcome.value pool).value := by
  have hnamed : ledgerFile.MessagesNamed := by decide
  have hbinds : (Pool.build [ledgerFile]).toOption.any (fun pool =>
      (Binding.resolve Binding.paying pool).toOption.any fun outcome =>
        (resolve outcome.value pool).value.request == "acme.books.Ledger.Entry.Line.Tax") =
      true := by
    decide +kernel
  obtain ⟨pool, hpool, hany⟩ := (Option.any_eq_true _ _).mp hbinds
  obtain ⟨outcome, houtcome, hrequest⟩ := (Option.any_eq_true _ _).mp hany
  rw [toOption_eq_some_iff] at hpool houtcome
  refine ⟨pool, outcome, hpool, houtcome, eq_of_beq hrequest, ?_, ?_⟩
  · exact (generated_types_follow_paths.1 0 ledgerFile (by decide) hnamed).2
  · exact generated_types_follow_paths.2 _ pool _ outcome (by simpa using hnamed) hpool houtcome

end PipelinePlan.GeneratedTypes
