import PipelinePlan.Proofs.Schema.ListingOrder

namespace PipelinePlan.Schema

def ImportsPresent (files : List File) : Prop :=
  ∀ file ∈ files, ∀ name ∈ file.dependencies, ∃ other ∈ files, other.name = name

def Acyclic (files : List File) : Prop :=
  ∀ file ∈ files, ¬Sees files file.dependencies file

theorem Sees.trans {files : List File} {imports : List String} {file other : File}
    (h : Sees files imports file) (h' : Sees files file.dependencies other) :
    Sees files imports other := by
  induction h' with
  | direct hmem hname => exact .through h hmem hname
  | through _ hmem hname ih => exact .through ih hmem hname

theorem Acyclic.wellFounded {files : List File} (h : Acyclic files) :
    WellFounded fun other file : { file // file ∈ files } =>
      Sees files file.val.dependencies other.val := by
  have htrans : IsTrans { file // file ∈ files } fun other file =>
      Sees files file.val.dependencies other.val := ⟨fun _ _ _ hsees hsees' => hsees'.trans hsees⟩
  have hirrefl : Std.Irrefl fun other file : { file // file ∈ files } =>
      Sees files file.val.dependencies other.val := ⟨fun file => h file.val file.property⟩
  exact Finite.wellFounded_of_trans_of_irrefl _

theorem Acyclic.buildable {files : List File} (h : Acyclic files) (hpresent : ImportsPresent files) :
    ∀ file ∈ files, Buildable files file.name := by
  have hall : ∀ file : { file // file ∈ files }, Buildable files file.val.name := by
    intro file
    induction file using h.wellFounded.induction with
    | _ file ih =>
      refine .intro file.property ?_
      intro name hname
      obtain ⟨other, hother, rfl⟩ := hpresent file.val file.property name hname
      exact ih ⟨other, hother⟩ (.direct hother hname)
  intro file hfile
  exact hall ⟨file, hfile⟩

/-- What imports lead to is reached from one of the files that they name. -/
theorem Sees.first {files : List File} {imports : List String} {file : File}
    (h : Sees files imports file) : ∃ first ∈ files, first.name ∈ imports ∧
      (first = file ∨ Sees files first.dependencies file) := by
  induction h with
  | @direct file hmem hname => exact ⟨file, hmem, hname, .inl rfl⟩
  | through _ hmem hname ih =>
    obtain ⟨first, hfirst, himport, rfl | hsees⟩ := ih
    · exact ⟨first, hfirst, himport, .inr (.direct hmem hname)⟩
    · exact ⟨first, hfirst, himport, .inr (.through hsees hmem hname)⟩

theorem Buildable.not_sees_self {files : List File} (hnames : (files.map (·.name)).Nodup)
    {name : String} (h : Buildable files name) :
    ∀ file ∈ files, file.name = name → ¬Sees files file.dependencies file := by
  induction h with
  | @intro file hmem himports ih =>
    intro file' hmem' hname hsees
    obtain rfl : file' = file := List.inj_on_of_nodup_map hnames hmem' hmem hname
    obtain ⟨first, hfirst, himport, rfl | hback⟩ := hsees.first
    · exact ih first.name himport first hfirst rfl hsees
    · -- From the first file on the way the cycle leads back to that file.
      exact ih first.name himport first hfirst rfl (hback.trans (.direct hfirst himport))

/-- All files can be built exactly if no import is missing and none leads round in a circle. -/
theorem forall_buildable_iff {files : List File} (hnames : (files.map (·.name)).Nodup) :
    (∀ file ∈ files, Buildable files file.name) ↔ ImportsPresent files ∧ Acyclic files := by
  constructor
  · intro hall
    constructor
    · intro file hfile name hname
      have hbuilt := (mem_buildOrder_iff hnames hfile).mpr (hall file hfile)
      obtain ⟨other, hother, hname'⟩ := (buildOrder_importsFirst files).exists_import hbuilt hname
      exact ⟨other, mem_of_mem_buildOrder hother, hname'⟩
    · intro file hfile
      exact (hall file hfile).not_sees_self hnames file hfile rfl
  · rintro ⟨hpresent, hacyclic⟩
    exact hacyclic.buildable hpresent

/-- A file declares a type or sees the first file in build order that does. -/
def MayUse (files : List File) (file : File) (type : String) : Prop :=
  file.declares type = true ∨ ∃ owner, (buildOrder files).find? (·.declares type) = some owner ∧
    Sees files file.dependencies owner

/-- A file knows a type through its imports, but a file that it does not see declares the type
first. -/
def Shadowed (files : List File) (file : File) (type : String) : Prop :=
  Knows files file type ∧ file.declares type = false ∧
    ∃ owner, (buildOrder files).find? (·.declares type) = some owner ∧
      ¬Sees files file.dependencies owner

theorem resolves_before_iff {files before after : List File} {file : File}
    (hnames : (files.map (·.name)).Nodup) (h : buildOrder files = before ++ file :: after)
    {type : String} : Resolves before file type ↔ MayUse files file type := by
  apply or_congr_right
  apply exists_congr
  intro owner
  rw [sees_before_iff hnames h]
  apply and_congr_left
  intro hsees
  -- The owner is seen, hence built before the file, and the files built later do not matter.
  have hbefore := ((sees_before_iff hnames h).mpr hsees).mem
  rw [h, List.find?_append]
  cases hfind : before.find? (·.declares type) with
  | some first => simp
  | none =>
    rw [List.find?_eq_none] at hfind
    constructor
    · intro hsome
      cases hsome
    · intro hsome
      have hdeclares := List.find?_some hsome
      exact absurd hdeclares (hfind owner hbefore)

theorem failsCheck_iff_mayUse {files : List File} (hnames : (files.map (·.name)).Nodup)
    {file : File} (hfile : file ∈ buildOrder files) :
    FailsCheck files file ↔ ∃ use ∈ file.usedTypes, ¬MayUse files file use.2.2 := by
  have hcheck {before after : List File} (heq : buildOrder files = before ++ file :: after) :
      file.checkTypes before ≠ .ok () ↔ ∃ use ∈ file.usedTypes, ¬MayUse files file use.2.2 := by
    simp only [ne_eq, checkTypes_eq_ok_iff (names_nodup_before hnames heq),
      resolves_before_iff hnames heq]
    push Not
    rfl
  rw [failsCheck_iff_checkTypes]
  constructor
  · rintro ⟨before, after, heq, hfail⟩
    exact (hcheck heq).mp hfail
  · intro huse
    obtain ⟨before, after, heq⟩ := List.append_of_mem hfile
    exact ⟨before, after, heq, (hcheck heq).mpr huse⟩

/-- In files that are all built, a type is refused if it is unknown or shadowed. -/
theorem not_mayUse_iff {files : List File} (hall : ∀ file ∈ files, file ∈ buildOrder files)
    {file : File} {type : String} :
    ¬MayUse files file type ↔ ¬Knows files file type ∨ Shadowed files file type := by
  constructor
  · intro hrefused
    by_cases hknows : Knows files file type
    · right
      have hown : ¬file.declares type = true := fun hown => hrefused (.inl hown)
      obtain ⟨other, hsees, hdeclares⟩ := hknows.resolve_left hown
      have hsome : ((buildOrder files).find? (·.declares type)).isSome = true :=
        List.find?_isSome.mpr ⟨other, hall other hsees.mem, hdeclares⟩
      obtain ⟨owner, howner⟩ := Option.isSome_iff_exists.mp hsome
      exact ⟨hknows, by simpa using hown, owner, howner,
        fun hseen => hrefused (.inr ⟨owner, howner, hseen⟩)⟩
    · exact .inl hknows
  · rintro (hunknown | ⟨-, hown, owner, howner, hunseen⟩) (hown' | ⟨owner', howner', hseen⟩)
    · exact hunknown (.inl hown')
    · have hdeclares := List.find?_some howner'
      exact hunknown (.inr ⟨owner', hseen, hdeclares⟩)
    · rw [hown] at hown'
      cases hown'
    · obtain rfl : owner' = owner := Option.some.inj (howner'.symm.trans howner)
      exact hunseen hseen

theorem DeclaredOnce.not_shadowed {files : List File} (honce : DeclaredOnce files)
    (hnames : (files.map (·.name)).Nodup) (file : File) (type : String) :
    ¬Shadowed files file type := by
  rintro ⟨hknows, hown, owner, howner, hunseen⟩
  obtain ⟨other, hsees, hdeclares⟩ := hknows.resolve_left (by simp [hown])
  have howns := List.find?_some howner
  have hmem := mem_of_mem_buildOrder (List.mem_of_find?_eq_some howner)
  obtain rfl := honce.eq hnames hmem hsees.mem howns hdeclares
  exact hunseen hsees

theorem failsCheck_iff_unknown_or_shadowed {files : List File}
    (hnames : (files.map (·.name)).Nodup) (hpresent : ImportsPresent files)
    (hacyclic : Acyclic files) {file : File} (hfile : file ∈ files) :
    FailsCheck files file ↔ ∃ use ∈ file.usedTypes,
      ¬Knows files file use.2.2 ∨ Shadowed files file use.2.2 := by
  have hall : ∀ file ∈ files, file ∈ buildOrder files := fun file hfile =>
    (mem_buildOrder_iff hnames hfile).mpr (hacyclic.buildable hpresent file hfile)
  rw [failsCheck_iff_mayUse hnames (hall file hfile)]
  simp only [not_mayUse_iff hall]

theorem exists_unknownMessage_iff {descriptors : List FileDescriptor} (h : WellNamed descriptors) :
    (∃ file service method type,
      Pool.build descriptors = .error (.unknownMessage file service method type)) ↔
    ∃ file ∈ filesOf descriptors, FailsCheck (filesOf descriptors) file := by
  constructor
  · rintro ⟨file, service, method, type, hbuild⟩
    by_contra hnone
    push Not at hnone
    rw [build_of_wellNamed h, checkAll_buildOrder_iff.mpr hnone, Except.bind] at hbuild
    split at hbuild <;> cases hbuild
  · rintro ⟨file, hfile, hfails⟩
    obtain ⟨first, service, method, type, -, hbuild⟩ := build_of_failsCheck h hfile hfails
    exact ⟨first.name, service, method, type, hbuild⟩

/-- Where every import is there and none leads round in a circle, building fails because of a type
exactly if a method uses a type that its file does not know, or knows but that is declared first in
a file out of sight. Only the former can happen if no message is declared twice. -/
theorem build_unknownMessage_iff (descriptors : List FileDescriptor) (h : WellNamed descriptors)
    (hpresent : ImportsPresent (filesOf descriptors))
    (hacyclic : Acyclic (filesOf descriptors)) :
    ((∃ file service method type,
        Pool.build descriptors = .error (.unknownMessage file service method type)) ↔
      ∃ file ∈ filesOf descriptors, ∃ use ∈ file.usedTypes,
        ¬Knows (filesOf descriptors) file use.2.2 ∨
          Shadowed (filesOf descriptors) file use.2.2) ∧
    (DeclaredOnce (filesOf descriptors) →
      ((∃ file service method type,
          Pool.build descriptors = .error (.unknownMessage file service method type)) ↔
        ∃ file ∈ filesOf descriptors, ∃ use ∈ file.usedTypes,
          ¬Knows (filesOf descriptors) file use.2.2)) := by
  have hiff : ∀ file ∈ filesOf descriptors, (FailsCheck (filesOf descriptors) file ↔ _) :=
    fun file => failsCheck_iff_unknown_or_shadowed h.names_nodup hpresent hacyclic
  rw [exists_unknownMessage_iff h]
  refine ⟨exists_congr fun file => and_congr_right (hiff file), ?_⟩
  intro honce
  apply exists_congr
  intro file
  apply and_congr_right
  intro hfile
  rw [hiff file hfile]
  simp only [honce.not_shadowed h.names_nodup, or_false]

def moneyFile (name : String) : FileDescriptor :=
  { name := some name, package := some "acme", messages := [.mk (some "Money") []] }

def payFile : FileDescriptor where
  name := some "pay.proto"
  dependencies := ["money.proto"]
  services := [{ name := some "ProcessPayService", methods := [
    { name := some "remoteProcess", inputType := some ".acme.Money",
      outputType := some ".acme.Money" }] }]

def oneMoney : List FileDescriptor := [moneyFile "money.proto", payFile]

/-- Money is also declared in a file that nobody imports, and that is built first. -/
def twoMoneys : List FileDescriptor := moneyFile "archive.proto" :: oneMoney

theorem twoMoneys_wellNamed : WellNamed twoMoneys := by
  unfold WellNamed
  decide +kernel

theorem oneMoney_wellNamed : WellNamed oneMoney := (wellNamed_cons.mp twoMoneys_wellNamed).2.2

theorem moneys_acyclic :
    (ImportsPresent (filesOf oneMoney) ∧ Acyclic (filesOf oneMoney)) ∧
      ImportsPresent (filesOf twoMoneys) ∧ Acyclic (filesOf twoMoneys) := by
  rw [← forall_buildable_iff oneMoney_wellNamed.names_nodup,
    ← left_eq_nil_iff oneMoney_wellNamed.names_nodup,
    ← forall_buildable_iff twoMoneys_wellNamed.names_nodup,
    ← left_eq_nil_iff twoMoneys_wellNamed.names_nodup]
  decide +kernel

/-- What the files declare and use. -/
theorem moneys_types :
    (moneyFile "money.proto").file.declares ".acme.Money" = true ∧
    (∀ file ∈ filesOf oneMoney, ∀ message ∈ file.messages, file.name = "money.proto") ∧
    (buildOrder (filesOf twoMoneys)).find? (·.declares ".acme.Money") =
      some (moneyFile "archive.proto").file ∧
    payFile.file.usedTypes ≠ [] ∧
    ∀ file ∈ filesOf twoMoneys, ∀ use ∈ file.usedTypes,
      file = payFile.file ∧ use.2.2 = ".acme.Money" := by
  decide +kernel

theorem mem_twoMoneys {file : File} : file ∈ filesOf twoMoneys ↔
    file = (moneyFile "archive.proto").file ∨ file = (moneyFile "money.proto").file ∨
      file = payFile.file := by
  simp [filesOf, twoMoneys, oneMoney]

theorem typesKnown_money {files : List File} (h : (moneyFile "money.proto").file ∈ files)
    (hsub : files ⊆ filesOf twoMoneys) : ∀ file ∈ files, TypesKnown files file := by
  obtain ⟨hdeclares, -, -, -, huses⟩ := moneys_types
  intro file hfile use huse
  obtain ⟨rfl, htype⟩ := huses file (hsub hfile) use huse
  rw [htype]
  exact .inr ⟨_, .direct h List.mem_cons_self, hdeclares⟩

theorem oneMoney_declaredOnce : DeclaredOnce (filesOf oneMoney) := by
  obtain ⟨-, honce, -⟩ := moneys_types
  intro file hfile other hother message hdeclares hdeclares'
  rw [honce file hfile message (List.contains_iff_mem.mp hdeclares),
    honce other hother message (List.contains_iff_mem.mp hdeclares')]

theorem archive_not_seen : ¬Sees (filesOf twoMoneys) payFile.file.dependencies
    (moneyFile "archive.proto").file := by
  intro hsees
  cases hsees with
  | direct _ hname => simp [payFile, moneyFile, FileDescriptor.file] at hname
  | through hsees _ hname =>
    rcases mem_twoMoneys.mp hsees.mem with rfl | rfl | rfl <;>
      simp [payFile, moneyFile, FileDescriptor.file] at hname

theorem twoMoneys_shadowed : ∃ file ∈ filesOf twoMoneys, ∃ use ∈ file.usedTypes,
    ¬Knows (filesOf twoMoneys) file use.2.2 ∨ Shadowed (filesOf twoMoneys) file use.2.2 := by
  obtain ⟨-, -, howner, hused, huses⟩ := moneys_types
  have hpay : payFile.file ∈ filesOf twoMoneys := by simp [mem_twoMoneys]
  obtain ⟨use, huse⟩ := List.exists_mem_of_ne_nil _ hused
  have hknows := typesKnown_money (by simp [mem_twoMoneys]) (List.Subset.refl _) _ hpay use huse
  refine ⟨payFile.file, hpay, use, huse, .inr ⟨hknows, rfl, _, ?_, archive_not_seen⟩⟩
  rw [(huses _ hpay use huse).2]
  exact howner

/-- Every file knows the types it uses, and still one of them is refused. -/
theorem twoMoneys_refused :
    WellNamed twoMoneys ∧ ImportsPresent (filesOf twoMoneys) ∧ Acyclic (filesOf twoMoneys) ∧
    (∀ file ∈ filesOf twoMoneys, ∀ use ∈ file.usedTypes,
      Knows (filesOf twoMoneys) file use.2.2) ∧
    ∃ file service method type,
      Pool.build twoMoneys = .error (.unknownMessage file service method type) := by
  obtain ⟨-, hpresent, hacyclic⟩ := moneys_acyclic
  refine ⟨twoMoneys_wellNamed, hpresent, hacyclic,
    typesKnown_money (by simp [mem_twoMoneys]) (List.Subset.refl _), ?_⟩
  rw [exists_unknownMessage_iff twoMoneys_wellNamed]
  obtain ⟨file, hfile, huse⟩ := twoMoneys_shadowed
  exact ⟨file, hfile, (failsCheck_iff_unknown_or_shadowed twoMoneys_wellNamed.names_nodup hpresent
    hacyclic hfile).mpr huse⟩

/-- The same files with and without the second declaration. -/
theorem moneys_unknownMessage :
    (∃ file service method type,
      Pool.build twoMoneys = .error (.unknownMessage file service method type)) ∧
    DeclaredOnce (filesOf oneMoney) ∧ ¬∃ file service method type,
      Pool.build oneMoney = .error (.unknownMessage file service method type) := by
  obtain ⟨⟨hpresent, hacyclic⟩, hpresent', hacyclic'⟩ := moneys_acyclic
  have htwo := build_unknownMessage_iff twoMoneys twoMoneys_wellNamed hpresent' hacyclic'
  have hone := build_unknownMessage_iff oneMoney oneMoney_wellNamed hpresent hacyclic
  refine ⟨htwo.1.mpr twoMoneys_shadowed, oneMoney_declaredOnce, ?_⟩
  rw [hone.2 oneMoney_declaredOnce]
  rintro ⟨file, hfile, use, huse, hunknown⟩
  have hsub : filesOf oneMoney ⊆ filesOf twoMoneys := List.subset_cons_self _ _
  have hmoney : (moneyFile "money.proto").file ∈ filesOf oneMoney := List.mem_cons_self
  exact hunknown (typesKnown_money hmoney hsub file hfile use huse)

end PipelinePlan.Schema
