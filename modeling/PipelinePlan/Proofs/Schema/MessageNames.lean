import PipelinePlan.Proofs.Naming
import PipelinePlan.Schema.File

namespace PipelinePlan.Schema

/-- The message at an address in a forest, with the names from the top down to it. -/
inductive MessageAt : List MessageDescriptor → List Nat → List String → Prop
  | top {forest : List MessageDescriptor} {i : Nat} {name : Option String}
      {nested : List MessageDescriptor} (h : forest[i]? = some (.mk name nested)) :
      MessageAt forest [i] [name.getD ""]
  | inside {forest : List MessageDescriptor} {i : Nat} {name : Option String}
      {nested : List MessageDescriptor} {address : List Nat} {path : List String}
      (h : forest[i]? = some (.mk name nested)) (hinside : MessageAt nested address path) :
      MessageAt forest (i :: address) (name.getD "" :: path)

/-- The names of a path that are not empty, with dots between them. -/
def dotted (path : List String) : String := ".".intercalate (path.filter (!·.isEmpty))

def absoluteName (package : String) (path : List String) : String :=
  "." ++ dotted (package :: path)

mutual

def MessageDescriptor.places : MessageDescriptor → List (List Nat × List String)
  | .mk name nested =>
    (MessageDescriptor.placesOf 0 nested).map (fun place => (place.1, name.getD "" :: place.2)) ++
      [([], [name.getD ""])]

def MessageDescriptor.placesOf (position : Nat) :
    List MessageDescriptor → List (List Nat × List String)
  | [] => []
  | message :: rest =>
    message.places.map (fun place => (position :: place.1, place.2)) ++
      MessageDescriptor.placesOf (position + 1) rest

end

section Places

mutual

theorem MessageDescriptor.names_eq : (message : MessageDescriptor) → (scope : String) →
    message.names scope = message.places.map fun place => place.2.foldl inScope scope
  | .mk name nested, scope => by
    simp only [MessageDescriptor.names, MessageDescriptor.places, List.map_append, List.map_map,
      List.map_cons, List.map_nil, Function.comp_def, List.foldl_cons, List.foldl_nil]
    rw [MessageDescriptor.namesOf_eq nested (inScope scope (name.getD "")) 0]

theorem MessageDescriptor.namesOf_eq : (forest : List MessageDescriptor) → (scope : String) →
    (position : Nat) → MessageDescriptor.namesOf scope forest =
      (MessageDescriptor.placesOf position forest).map fun place => place.2.foldl inScope scope
  | [], _, _ => rfl
  | message :: rest, scope, position => by
    simp only [MessageDescriptor.namesOf, MessageDescriptor.placesOf, List.map_append,
      List.map_map, Function.comp_def]
    rw [MessageDescriptor.names_eq message scope,
      MessageDescriptor.namesOf_eq rest scope (position + 1)]

end

/-- What is at an address depends on one message of the forest. -/
theorem MessageAt.congr {forest forest' : List MessageDescriptor} {i j : Nat}
    {address : List Nat} {path : List String} (hat : MessageAt forest (i :: address) path)
    (h : forest[i]? = forest'[j]?) : MessageAt forest' (j :: address) path := by
  cases hat with
  | top hi => exact .top (h ▸ hi)
  | inside hi hinside => exact .inside (h ▸ hi) hinside

theorem not_messageAt_nil {address : List Nat} {path : List String} :
    ¬MessageAt [] address path := by
  rintro (h | ⟨h, -⟩) <;> simp at h

theorem not_messageAt_nil_address {forest : List MessageDescriptor} {path : List String} :
    ¬MessageAt forest [] path := by
  intro h
  cases h

theorem MessageAt.path_ne_nil {forest : List MessageDescriptor} {address : List Nat}
    {path : List String} (h : MessageAt forest address path) : path ≠ [] := by
  cases h <;> simp

theorem exists_cons_messageAt_iff {forest : List MessageDescriptor} {address : List Nat}
    {path : List String} :
    (∃ i rest, address = (0 + i) :: rest ∧ MessageAt forest (i :: rest) path) ↔
      MessageAt forest address path := by
  constructor
  · rintro ⟨i, rest, rfl, hat⟩
    rwa [Nat.zero_add]
  · intro hat
    cases address with
    | nil => exact absurd hat not_messageAt_nil_address
    | cons i rest => exact ⟨i, rest, by rw [Nat.zero_add], hat⟩

mutual

theorem MessageDescriptor.mem_places : (message : MessageDescriptor) → (address : List Nat) →
    (path : List String) →
    ((address, path) ∈ message.places ↔ MessageAt [message] (0 :: address) path)
  | .mk name nested, address, path => by
    simp only [MessageDescriptor.places, List.mem_append, List.mem_map, List.mem_singleton,
      Prod.mk.injEq]
    constructor
    · rintro (⟨⟨inner, tail⟩, hmem, rfl, rfl⟩ | ⟨rfl, rfl⟩)
      · rw [MessageDescriptor.mem_placesOf nested 0 inner tail, exists_cons_messageAt_iff] at hmem
        exact .inside rfl hmem
      · exact .top rfl
    · intro hat
      cases hat with
      | top h =>
        cases h
        exact .inr ⟨rfl, rfl⟩
      | @inside _ _ _ _ _ tail h hinside =>
        cases h
        refine .inl ⟨(address, tail), ?_, rfl, rfl⟩
        rwa [MessageDescriptor.mem_placesOf nested 0 address tail, exists_cons_messageAt_iff]

theorem MessageDescriptor.mem_placesOf : (forest : List MessageDescriptor) → (position : Nat) →
    (address : List Nat) → (path : List String) →
    ((address, path) ∈ MessageDescriptor.placesOf position forest ↔
      ∃ i rest, address = (position + i) :: rest ∧ MessageAt forest (i :: rest) path)
  | [], _, _, _ => by simp [MessageDescriptor.placesOf, not_messageAt_nil]
  | message :: forest, position, address, path => by
    simp only [MessageDescriptor.placesOf, List.mem_append, List.mem_map, Prod.mk.injEq]
    constructor
    · rintro (⟨⟨inner, path⟩, hmem, rfl, rfl⟩ | hmem)
      · have hat := (MessageDescriptor.mem_places message inner path).mp hmem
        exact ⟨0, inner, rfl, hat.congr rfl⟩
      · obtain ⟨i, rest, rfl, hat⟩ :=
          (MessageDescriptor.mem_placesOf forest (position + 1) address path).mp hmem
        exact ⟨i + 1, rest, by rw [Nat.add_right_comm, Nat.add_assoc], hat.congr rfl⟩
    · rintro ⟨i, rest, rfl, hat⟩
      cases i with
      | zero =>
        refine .inl ⟨(rest, path), ?_, rfl, rfl⟩
        exact (MessageDescriptor.mem_places message rest path).mpr (hat.congr rfl)
      | succ i =>
        refine .inr ((MessageDescriptor.mem_placesOf forest (position + 1) _ path).mpr ?_)
        exact ⟨i, rest, by rw [Nat.add_right_comm, Nat.add_assoc], hat.congr rfl⟩

end

mutual

/-- No message comes before a message inside it. -/
theorem MessageDescriptor.pairwise_places : (message : MessageDescriptor) →
    message.places.Pairwise fun earlier later => ¬earlier.1 <+: later.1
  | .mk name nested => by
    rw [MessageDescriptor.places, List.pairwise_append]
    refine ⟨?_, List.pairwise_singleton _ _, ?_⟩
    · rw [List.pairwise_map]
      exact MessageDescriptor.pairwise_placesOf nested 0
    · simp only [List.mem_map, List.mem_singleton]
      rintro _ ⟨⟨inner, tail⟩, hmem, rfl⟩ _ rfl hprefix
      obtain ⟨i, rest, rfl, -⟩ := (MessageDescriptor.mem_placesOf nested 0 inner tail).mp hmem
      simp at hprefix

theorem MessageDescriptor.pairwise_placesOf : (forest : List MessageDescriptor) →
    (position : Nat) → (MessageDescriptor.placesOf position forest).Pairwise
      fun earlier later => ¬earlier.1 <+: later.1
  | [], _ => List.Pairwise.nil
  | message :: forest, position => by
    rw [MessageDescriptor.placesOf, List.pairwise_append]
    refine ⟨?_, MessageDescriptor.pairwise_placesOf forest (position + 1), ?_⟩
    · rw [List.pairwise_map]
      refine (MessageDescriptor.pairwise_places message).imp fun h hprefix => h ?_
      exact (List.cons_prefix_cons.mp hprefix).2
    · simp only [List.mem_map]
      rintro _ ⟨place, -, rfl⟩ ⟨address, path⟩ hmem hprefix
      obtain ⟨i, rest, rfl, -⟩ :=
        (MessageDescriptor.mem_placesOf forest (position + 1) address path).mp hmem
      have := (List.cons_prefix_cons.mp hprefix).1
      omega

end

theorem mem_placesOf_zero {forest : List MessageDescriptor} {address : List Nat}
    {path : List String} :
    (address, path) ∈ MessageDescriptor.placesOf 0 forest ↔ MessageAt forest address path := by
  rw [MessageDescriptor.mem_placesOf, exists_cons_messageAt_iff]

/-- A list of the messages of a forest: each once, and those inside a message before it. -/
structure Lists (forest : List MessageDescriptor) (places : List (List Nat × List String)) :
    Prop where
  mem_iff : ∀ address path, (address, path) ∈ places ↔ MessageAt forest address path
  addresses_nodup : (places.map (·.1)).Nodup
  inner_first : places.Pairwise fun earlier later => ¬earlier.1 <+: later.1

theorem lists_placesOf (forest : List MessageDescriptor) :
    Lists forest (MessageDescriptor.placesOf 0 forest) where
  mem_iff _ _ := mem_placesOf_zero
  addresses_nodup := by
    rw [List.Nodup, List.pairwise_map]
    refine (MessageDescriptor.pairwise_placesOf forest 0).imp fun hprefix heq => hprefix ?_
    rw [heq]
  inner_first := MessageDescriptor.pairwise_placesOf forest 0

/-- Every message has a name, and so have all messages around it. -/
def FileDescriptor.MessagesNamed (d : FileDescriptor) : Prop :=
  ∀ address path, MessageAt d.messages address path → ∀ name ∈ path, name ≠ ""

theorem FileDescriptor.messagesNamed_iff {d : FileDescriptor} : d.MessagesNamed ↔
    ∀ place ∈ MessageDescriptor.placesOf 0 d.messages, ∀ name ∈ place.2, name ≠ "" := by
  constructor
  · rintro h ⟨address, path⟩ hplace
    exact h address path (mem_placesOf_zero.mp hplace)
  · intro h address path hat
    exact h (address, path) (mem_placesOf_zero.mpr hat)

instance : DecidablePred FileDescriptor.MessagesNamed :=
  fun _ => decidable_of_iff _ FileDescriptor.messagesNamed_iff.symm

end Places

section Names

/-- Two names with a dot between them; an empty one leaves no trace. -/
def joined (front back : String) : String :=
  if front = "" then back else if back = "" then front else front ++ "." ++ back

variable {front back name : String} {path : List String}

@[simp] theorem joined_empty_left (back : String) : joined "" back = back := rfl

@[simp] theorem joined_empty_right (front : String) : joined front "" = front := by
  unfold joined
  split
  · next h => exact h.symm
  · rfl

theorem joined_of_ne_empty (hfront : front ≠ "") (hback : back ≠ "") :
    joined front back = front ++ "." ++ back := by
  rw [joined, if_neg hfront, if_neg hback]

theorem joined_assoc (a b c : String) : joined (joined a b) c = joined a (joined b c) := by
  by_cases ha : a = ""
  · simp [ha]
  by_cases hb : b = ""
  · simp [hb]
  by_cases hc : c = ""
  · simp [hc]
  rw [joined_of_ne_empty ha hb, joined_of_ne_empty hb hc, joined_of_ne_empty (by simp) hc,
    joined_of_ne_empty ha (by simp)]
  simp only [String.append_assoc]

@[simp] theorem dotted_nil : dotted [] = "" := rfl

theorem intercalate_ne_empty {names : List String} (hnames : ∀ name ∈ names, name ≠ "")
    (hne : names ≠ []) : ".".intercalate names ≠ "" := by
  obtain ⟨first, rest, rfl⟩ := List.exists_cons_of_ne_nil hne
  cases rest with
  | nil => simpa using hnames
  | cons => simp

theorem dotted_cons (name : String) (path : List String) :
    dotted (name :: path) = joined name (dotted path) := by
  by_cases hname : name = ""
  · rw [hname]
    rfl
  have hcons : (name :: path).filter (!·.isEmpty) = name :: path.filter (!·.isEmpty) :=
    List.filter_cons_of_pos (by simpa using hname)
  rw [dotted, hcons]
  by_cases hrest : path.filter (!·.isEmpty) = []
  · rw [dotted, hrest, String.intercalate_singleton, String.intercalate_nil, joined_empty_right]
  · have hdotted : dotted path ≠ "" := intercalate_ne_empty (by simp) hrest
    rw [String.intercalate_cons_of_ne_nil hrest, joined_of_ne_empty hname hdotted, dotted]

@[simp] theorem dotted_singleton (name : String) : dotted [name] = name := by
  rw [dotted_cons, dotted_nil, joined_empty_right]

theorem dotted_eq_intercalate (hpath : ∀ name ∈ path, name ≠ "") :
    dotted path = ".".intercalate path := by
  rw [dotted, List.filter_eq_self.mpr (by simpa using hpath)]

theorem dotted_ne_empty (hpath : ∀ name ∈ path, name ≠ "") (hne : path ≠ []) :
    dotted path ≠ "" := by
  rw [dotted_eq_intercalate hpath]
  exact intercalate_ne_empty hpath hne

theorem absoluteName_eq (package : String) (path : List String) :
    absoluteName package path = "." ++ joined package (dotted path) := by
  rw [absoluteName, dotted_cons]

theorem inScope_eq (front name : String) :
    inScope ("." ++ front) name = "." ++ joined front name := by
  rw [inScope, joined]
  by_cases hname : name = ""
  · rw [hname]
    simp
  · by_cases hfront : front = ""
    · simp [hname, hfront]
    · simp [hname, hfront, String.append_assoc]

theorem foldl_inScope (front : String) (path : List String) :
    path.foldl inScope ("." ++ front) = "." ++ joined front (dotted path) := by
  induction path generalizing front with
  | nil => rw [List.foldl_nil, dotted_nil, joined_empty_right]
  | cons name path ih => rw [List.foldl_cons, inScope_eq, ih, dotted_cons, joined_assoc]

/-- The names of a file are those of its places, in order. -/
theorem FileDescriptor.messages_eq (d : FileDescriptor) :
    d.file.messages = (MessageDescriptor.placesOf 0 d.messages).map fun place =>
      absoluteName (d.package.getD "") place.2 := by
  have hroot : inScope "." (d.package.getD "") = "." ++ d.package.getD "" := by
    simpa using inScope_eq "" (d.package.getD "")
  rw [FileDescriptor.file, hroot, MessageDescriptor.namesOf_eq _ _ 0]
  simp only [foldl_inScope, absoluteName_eq]

theorem FileDescriptor.mem_messages_iff {d : FileDescriptor} {message : String} :
    message ∈ d.file.messages ↔ ∃ address path, MessageAt d.messages address path ∧
      message = absoluteName (d.package.getD "") path := by
  rw [d.messages_eq, List.mem_map]
  constructor
  · rintro ⟨⟨address, path⟩, hmem, rfl⟩
    exact ⟨address, path, mem_placesOf_zero.mp hmem, rfl⟩
  · rintro ⟨address, path, hat, rfl⟩
    exact ⟨(address, path), mem_placesOf_zero.mpr hat, rfl⟩

/-- Without its package, the name of a message is its path. In a package, a message without a
single name along its path has the name of the package and lies outside of it. -/
theorem File.relativeName?_absoluteName (file : File) (path : List String) :
    file.relativeName? (absoluteName file.package path) =
      if file.package = "" ∨ dotted path ≠ "" then some (dotted path) else none := by
  have hdrop (rest : String) : Text.dropPrefix "." ("." ++ rest) = rest := by
    rw [Text.dropPrefix, Text.afterPrefix?_eq_some_iff.mpr rfl, Option.getD_some]
  rw [absoluteName_eq, File.relativeName?, hdrop]
  by_cases hpackage : file.package = ""
  · simp [hpackage]
  · rw [if_neg (by simpa using hpackage)]
    by_cases hpath : dotted path = ""
    · rw [if_neg (by simp [hpackage, hpath]), hpath, joined_empty_right,
        Text.afterPrefix?_eq_some_iff.mpr String.append_empty.symm]
      rfl
    · rw [if_pos (.inr hpath), joined_of_ne_empty hpackage hpath, String.append_assoc,
        Text.afterPrefix?_eq_some_iff.mpr rfl, Option.bind_some,
        Text.afterPrefix?_eq_some_iff.mpr rfl]

end Names

end PipelinePlan.Schema
