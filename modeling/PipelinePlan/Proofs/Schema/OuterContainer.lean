import PipelinePlan.Proofs.Schema.MessageNames

namespace PipelinePlan.Schema

def MessageDescriptor.ownName : MessageDescriptor → String
  | .mk name _ => name.getD ""

def FileDescriptor.declared (d : FileDescriptor) : List String :=
  d.messages.map MessageDescriptor.ownName ++ d.enums.map (·.getD "") ++
    d.services.map (·.name.getD "")

def FileDescriptor.plainContainer (d : FileDescriptor) : String :=
  File.containerFor (d.name.getD "") []

def FileDescriptor.markedContainer (d : FileDescriptor) : String :=
  d.plainContainer ++ "OuterClass"

/-- A name that is taken when the container is chosen. A message takes it at any depth if no other
name is on its path; one without a name on its path takes the empty name only outside packages. -/
inductive FileDescriptor.Taken (d : FileDescriptor) (name : String) : Prop
  | message {address : List Nat} {path : List String} (hat : MessageAt d.messages address path)
      (hpath : dotted path = name) (hshown : d.package.getD "" = "" ∨ name ≠ "")
  | enum (h : name ∈ d.enums.map (·.getD ""))
  | service (h : name ∈ d.services.map (·.name.getD ""))

/-- The ways in which the container of a file hides a declaration. -/
inductive FileDescriptor.Hides (d : FileDescriptor) : Prop
  | marked (htaken : d.Taken d.plainContainer) (hdeclared : d.markedContainer ∈ d.declared)
  | unnamed (hplain : d.plainContainer = "") (hpackage : d.package.getD "" ≠ "")
      (hmessage : "" ∈ d.messages.map MessageDescriptor.ownName)
      (henum : "" ∉ d.enums.map (·.getD "")) (hservice : "" ∉ d.services.map (·.name.getD ""))

section Container

variable {d : FileDescriptor} {name : String}

theorem mem_ownNames_iff {forest : List MessageDescriptor} :
    name ∈ forest.map MessageDescriptor.ownName ↔ ∃ i, MessageAt forest [i] [name] := by
  rw [List.mem_map]
  constructor
  · rintro ⟨⟨own, nested⟩, hmem, rfl⟩
    obtain ⟨i, hi⟩ := List.mem_iff_getElem?.mp hmem
    exact ⟨i, .top hi⟩
  · rintro ⟨i, hat⟩
    cases hat with
    | top h => exact ⟨_, List.mem_of_getElem? h, rfl⟩
    | inside _ hinside => exact absurd hinside not_messageAt_nil_address

theorem MessageAt.exists_top {forest : List MessageDescriptor} {address : List Nat}
    (h : MessageAt forest address [name]) : ∃ i, MessageAt forest [i] [name] := by
  cases h with
  | top h => exact ⟨_, .top h⟩
  | inside _ hinside => exact absurd rfl hinside.path_ne_nil

/-- The container is the plain one or, if that is taken, the one with a mark. -/
theorem File.containerFor_eq (path : String) (taken : List String) :
    File.containerFor path taken =
      if File.containerFor path [] ∈ taken then File.containerFor path [] ++ "OuterClass"
      else File.containerFor path [] := by
  simp [File.containerFor]

theorem undotted_plainContainer (d : FileDescriptor) : Name.Undotted d.plainContainer := by
  have hplain : d.plainContainer = Text.pascal (Text.dropSuffix ".proto"
      (String.ofList (Text.afterLast (· == '/') (d.name.getD "").toList))) := rfl
  rw [hplain]
  exact Naming.undotted_pascal _

/-- What a message adds to the names at the top of its file. -/
theorem mem_filterMap_relativeName?_iff :
    name ∈ d.file.messages.filterMap d.file.relativeName? ↔ ∃ address path,
      MessageAt d.messages address path ∧ dotted path = name ∧
        (d.package.getD "" = "" ∨ name ≠ "") := by
  have hrelative (path : List String) :
      d.file.relativeName? (absoluteName (d.package.getD "") path) = some name ↔
        dotted path = name ∧ (d.package.getD "" = "" ∨ name ≠ "") := by
    have hname := d.file.relativeName?_absoluteName path
    rw [show d.file.package = d.package.getD "" from rfl] at hname
    rw [hname, Option.ite_none_right_eq_some, Option.some.injEq, and_comm]
    exact and_congr_right fun h => by rw [h]
  rw [List.mem_filterMap]
  constructor
  · rintro ⟨message, hmessage, hsome⟩
    obtain ⟨address, path, hat, rfl⟩ := FileDescriptor.mem_messages_iff.mp hmessage
    exact ⟨address, path, hat, (hrelative path).mp hsome⟩
  · rintro ⟨address, path, hat, hpath⟩
    exact ⟨_, FileDescriptor.mem_messages_iff.mpr ⟨address, path, hat, rfl⟩,
      (hrelative path).mpr hpath⟩

theorem mem_topLevelNames_iff (hname : Name.Undotted name) :
    name ∈ d.file.topLevelNames ↔ d.Taken name := by
  have hdot : name.toList.contains '.' = false := by
    rw [← Bool.not_eq_true, List.contains_iff_mem]
    intro h
    exact absurd (hname _ h) (by decide)
  have hservices : d.file.services.map (·.name) = d.services.map (·.name.getD "") := by
    rw [FileDescriptor.file, List.map_map]
    rfl
  rw [File.topLevelNames, List.mem_append, List.mem_append, List.mem_filter, hdot, hservices,
    mem_filterMap_relativeName?_iff]
  constructor
  · rintro ((⟨⟨address, path, hat, hpath, hshown⟩, -⟩ | henum) | hservice)
    · exact .message hat hpath hshown
    · exact .enum henum
    · exact .service hservice
  · rintro (⟨hat, hpath, hshown⟩ | henum | hservice)
    · exact .inl (.inl ⟨⟨_, _, hat, hpath, hshown⟩, rfl⟩)
    · exact .inl (.inr henum)
    · exact .inr hservice

theorem mem_declared_iff : name ∈ d.declared ↔ (∃ i, MessageAt d.messages [i] [name]) ∨
    name ∈ d.enums.map (·.getD "") ∨ name ∈ d.services.map (·.name.getD "") := by
  rw [FileDescriptor.declared, List.mem_append, List.mem_append, mem_ownNames_iff, or_assoc]

/-- A declaration that does not take its name is a message without a name in a package. -/
theorem not_taken_of_declared_iff (hdeclared : name ∈ d.declared) :
    ¬d.Taken name ↔ name = "" ∧ d.package.getD "" ≠ "" ∧
      "" ∉ d.enums.map (·.getD "") ∧ "" ∉ d.services.map (·.name.getD "") := by
  constructor
  · intro hfree
    rcases mem_declared_iff.mp hdeclared with ⟨i, hat⟩ | henum | hservice
    · have hshown : ¬(d.package.getD "" = "" ∨ name ≠ "") := by
        intro hshown
        exact hfree (.message hat (dotted_singleton name) hshown)
      obtain ⟨hpackage, hempty⟩ := not_or.mp hshown
      obtain rfl := not_not.mp hempty
      exact ⟨rfl, hpackage, fun h => hfree (.enum h), fun h => hfree (.service h)⟩
    · exact absurd (.enum henum) hfree
    · exact absurd (.service hservice) hfree
  · rintro ⟨rfl, hpackage, henum, hservice⟩ (⟨-, -, hshown⟩ | h | h)
    · simp [hpackage] at hshown
    · exact henum h
    · exact hservice h

section Free

variable (hfree : d.file.naming.outerContainerOverride = none)
include hfree

theorem outerContainer_of_taken (htaken : d.Taken d.plainContainer) :
    d.file.outerContainer = d.markedContainer := by
  rw [File.outerContainer, hfree, Option.getD_none, File.containerFor_eq]
  exact if_pos ((mem_topLevelNames_iff (undotted_plainContainer d)).mpr htaken)

theorem outerContainer_of_not_taken (htaken : ¬d.Taken d.plainContainer) :
    d.file.outerContainer = d.plainContainer := by
  rw [File.outerContainer, hfree, Option.getD_none, File.containerFor_eq]
  exact if_neg fun h => htaken ((mem_topLevelNames_iff (undotted_plainContainer d)).mp h)

theorem outerContainer_mem_declared_iff : d.file.outerContainer ∈ d.declared ↔ d.Hides := by
  -- The plain name is looked up first; it may be declared and not be taken.
  by_cases htaken : d.Taken d.plainContainer
  · rw [outerContainer_of_taken hfree htaken]
    constructor
    · exact .marked htaken
    · rintro (⟨-, hdeclared⟩ | ⟨hplain, hpackage, hmessage, henum, hservice⟩)
      · exact hdeclared
      · have hdeclared : d.plainContainer ∈ d.declared :=
          hplain ▸ mem_declared_iff.mpr (.inl (mem_ownNames_iff.mp hmessage))
        exact absurd htaken
          ((not_taken_of_declared_iff hdeclared).mpr ⟨hplain, hpackage, henum, hservice⟩)
  · rw [outerContainer_of_not_taken hfree htaken]
    constructor
    · intro hdeclared
      obtain ⟨hplain, hpackage, henum, hservice⟩ :=
        (not_taken_of_declared_iff hdeclared).mp htaken
      rw [hplain, mem_declared_iff] at hdeclared
      have hmessage := hdeclared.resolve_right (not_or.mpr ⟨henum, hservice⟩)
      exact .unnamed hplain hpackage (mem_ownNames_iff.mpr hmessage) henum hservice
    · rintro (⟨h, -⟩ | ⟨hplain, -, hmessage, -, -⟩)
      · exact absurd h htaken
      · exact hplain ▸ mem_declared_iff.mpr (.inl (mem_ownNames_iff.mp hmessage))

end Free

/-- A path of names that has no dot is a single name. -/
theorem eq_singleton_of_undotted {path : List String} (hpath : ∀ part ∈ path, part ≠ "")
    (hne : path ≠ []) (hname : Name.Undotted (dotted path)) : path = [dotted path] := by
  obtain ⟨first, rest, rfl⟩ := List.exists_cons_of_ne_nil hne
  obtain ⟨hfirst, hrest⟩ := List.forall_mem_cons.mp hpath
  by_cases hnil : rest = []
  · rw [hnil, dotted_singleton]
  · rw [dotted_cons, joined_of_ne_empty hfirst (dotted_ne_empty hrest hnil)] at hname
    exact absurd (hname '.' (by simp)) (by decide)

section Named

variable (hnamed : d.MessagesNamed)
include hnamed

/-- Where all messages have names, the names that are taken are those declared. -/
theorem taken_iff_mem_declared (hname : Name.Undotted name) :
    d.Taken name ↔ name ∈ d.declared := by
  rw [mem_declared_iff]
  constructor
  · rintro (⟨hat, hpath, -⟩ | henum | hservice)
    · have hsingle := eq_singleton_of_undotted (hnamed _ _ hat) hat.path_ne_nil (hpath ▸ hname)
      rw [hsingle, hpath] at hat
      exact .inl hat.exists_top
    · exact .inr (.inl henum)
    · exact .inr (.inr hservice)
  · rintro (⟨i, hat⟩ | henum | hservice)
    · have hne : name ≠ "" := hnamed _ _ hat name List.mem_cons_self
      exact .message hat (dotted_singleton name) (.inr hne)
    · exact .enum henum
    · exact .service hservice

theorem hides_iff_both_declared :
    d.Hides ↔ d.plainContainer ∈ d.declared ∧ d.markedContainer ∈ d.declared := by
  rw [← taken_iff_mem_declared hnamed (undotted_plainContainer d)]
  constructor
  · rintro (⟨htaken, hdeclared⟩ | ⟨-, -, hmessage, -, -⟩)
    · exact ⟨htaken, hdeclared⟩
    · obtain ⟨i, hat⟩ := mem_ownNames_iff.mp hmessage
      exact absurd rfl (hnamed _ _ hat "" List.mem_cons_self)
  · rintro ⟨htaken, hdeclared⟩
    exact .marked htaken hdeclared

end Named

end Container

/-- The container of a file without an override is no declaration of the file, unless it hides one.
Where all messages have names, that is if both the plain and the marked name are declared. -/
theorem outerContainer_avoids_declared_iff {position : Nat} {d : FileDescriptor} {file : File}
    (h : File.ofDescriptor position d = .ok file)
    (hfree : file.naming.outerContainerOverride = none) :
    ((∀ name ∈ d.declared, file.outerContainer ≠ name) ↔ ¬d.Hides) ∧
    (d.MessagesNamed → ((∀ name ∈ d.declared, file.outerContainer ≠ name) ↔
      ¬(d.plainContainer ∈ d.declared ∧ d.markedContainer ∈ d.declared))) := by
  obtain rfl : d.file = file := by
    unfold File.ofDescriptor at h
    split at h
    · cases h
    · exact Except.ok.inj h
  have hiff : (∀ name ∈ d.declared, d.file.outerContainer ≠ name) ↔ ¬d.Hides := by
    rw [← outerContainer_mem_declared_iff hfree, List.forall_mem_ne]
  refine ⟨hiff, fun hnamed => ?_⟩
  rw [hiff, hides_iff_both_declared hnamed]

def customerFile (beside inside : List String) : FileDescriptor where
  name := some "acme/customer.proto"
  package := some "acme"
  messages := .mk (some "Customer") (inside.map fun name => .mk (some name) []) ::
    beside.map fun name => .mk (some name) []

/-- A message with the marked name is not in the way where it lies inside another one. -/
theorem inner_marked_avoided :
    (customerFile [] ["CustomerOuterClass"]).file.outerContainer = "CustomerOuterClass" ∧
      ∀ name ∈ (customerFile [] ["CustomerOuterClass"]).declared,
        (customerFile [] ["CustomerOuterClass"]).file.outerContainer ≠ name := by
  have hok : File.ofDescriptor 0 (customerFile [] ["CustomerOuterClass"]) =
      .ok (customerFile [] ["CustomerOuterClass"]).file := by
    rw [File.ofDescriptor, if_neg (by decide)]
  refine ⟨by decide +kernel, ?_⟩
  exact ((outerContainer_avoids_declared_iff hok rfl).2 (by decide)).mpr (by decide +kernel)

theorem outer_marked_hidden :
    ∃ file, File.ofDescriptor 0 (customerFile ["CustomerOuterClass"] []) = .ok file ∧
      file.naming.outerContainerOverride = none ∧
      file.outerContainer ∈ (customerFile ["CustomerOuterClass"] []).declared := by
  refine ⟨(customerFile ["CustomerOuterClass"] []).file, ?_, rfl, by decide +kernel⟩
  rw [File.ofDescriptor, if_neg (by decide)]

end PipelinePlan.Schema
