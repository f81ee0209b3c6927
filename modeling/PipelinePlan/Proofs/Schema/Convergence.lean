import PipelinePlan.Proofs.Schema.Sweep
import PipelinePlan.Proofs.Table

namespace PipelinePlan.Schema

/-- The names of the files that can be built: those whose imports can all be built. -/
inductive Buildable (files : List File) : String → Prop
  | intro {file : File} (hmem : file ∈ files)
      (himports : ∀ name ∈ file.dependencies, Buildable files name) : Buildable files file.name

theorem ready_iff {file : File} {built : List File} :
    file.ready built = true ↔
      ∀ name ∈ file.dependencies, ∃ other ∈ built, other.name = name := by
  simp [File.ready, List.all_eq_true]

theorem ImportsFirst.of_append {files rest : List File} (h : ImportsFirst (files ++ rest)) :
    ImportsFirst files := by
  intro before file after heq
  exact h before file (after ++ rest) (by rw [heq]; simp)

theorem ImportsFirst.buildable {files built : List File} (h : ImportsFirst built)
    (hsub : ∀ file ∈ built, file ∈ files) : ∀ file ∈ built, Buildable files file.name := by
  induction built using List.reverseRecOn with
  | nil => simp
  | append_singleton built last ih =>
    have hready := h built last [] rfl
    have hold := ih h.of_append fun file hfile => hsub file (List.mem_append_left _ hfile)
    intro file hfile
    rcases List.mem_append.mp hfile with hfile | hfile
    · exact hold file hfile
    · obtain rfl := List.mem_singleton.mp hfile
      refine .intro (hsub file (by simp)) ?_
      intro name hname
      obtain ⟨other, hother, rfl⟩ := ready_iff.mp hready name hname
      exact hold other hother

def settled (files : List File) : Progress := sweeps (2 * files.length) ⟨[], files, 0⟩

def buildOrder (files : List File) : List File := (settled files).built

theorem settled_perm (files : List File) :
    (buildOrder files ++ (settled files).left).Perm files := by
  apply sweeps_invariant (P := fun p => (p.built ++ p.left).Perm files)
  · intro p h
    refine .trans ?_ h
    rw [Progress.next, List.append_assoc]
    exact (sweep_perm p.built p.left).append_left p.built
  · exact .refl _

theorem settled_sublist (files : List File) : (settled files).left.Sublist files := by
  apply sweeps_invariant (P := fun p => p.left.Sublist files)
  · intro p h
    exact (sweep_sublist p.built p.left).trans h
  · exact .refl _

theorem buildOrder_importsFirst (files : List File) : ImportsFirst (buildOrder files) := by
  apply sweeps_invariant (P := fun p => ImportsFirst p.built)
  · intro p h
    exact h.sweep p.left
  · exact importsFirst_nil

theorem settled_stuck (files : List File) :
    ∀ file ∈ (settled files).left, file.ready (buildOrder files) = false :=
  (sweeps_stuck (2 * files.length) ⟨[], files, 0⟩ (by simp only; omega)).1

theorem settled_passes (files : List File) : (settled files).passes ≤ files.length := by
  have h := (sweeps_stuck (2 * files.length) ⟨[], files, 0⟩ (by simp only; omega)).2
  simpa [settled] using h

theorem mem_of_mem_buildOrder {files : List File} {file : File} (h : file ∈ buildOrder files) :
    file ∈ files :=
  (settled_perm files).mem_iff.mp (List.mem_append_left _ h)

/-- The names of the built files are the least set that is closed under readiness. -/
theorem exists_mem_buildOrder_iff {files : List File} {name : String} :
    (∃ file ∈ buildOrder files, file.name = name) ↔ Buildable files name := by
  constructor
  · rintro ⟨file, hfile, rfl⟩
    exact (buildOrder_importsFirst files).buildable (fun _ => mem_of_mem_buildOrder) file hfile
  · intro h
    induction h with
    | @intro file hmem _ ih =>
      rcases List.mem_append.mp ((settled_perm files).mem_iff.mpr hmem) with hbuilt | hleft
      · exact ⟨file, hbuilt, rfl⟩
      · -- With all its imports built the file would be ready, and no such file is left.
        have hstuck := settled_stuck files file hleft
        rw [ready_iff.mpr ih] at hstuck
        cases hstuck

section Names

variable {files : List File} (hnames : (files.map (·.name)).Nodup)
include hnames

theorem mem_buildOrder_iff {file : File} (hfile : file ∈ files) :
    file ∈ buildOrder files ↔ Buildable files file.name := by
  rw [← exists_mem_buildOrder_iff]
  constructor
  · intro h
    exact ⟨file, h, rfl⟩
  · rintro ⟨other, hother, hname⟩
    rwa [List.inj_on_of_nodup_map hnames hfile (mem_of_mem_buildOrder hother) hname.symm]

theorem mem_left_iff {file : File} (hfile : file ∈ files) :
    file ∈ (settled files).left ↔ ¬Buildable files file.name := by
  have hnodup : (buildOrder files ++ (settled files).left).Nodup :=
    (settled_perm files).nodup_iff.mpr hnames.of_map
  rw [← mem_buildOrder_iff hnames hfile]
  constructor
  · intro hleft hbuilt
    exact (List.nodup_append.mp hnodup).2.2 file hbuilt file hleft rfl
  · intro hbuilt
    exact (List.mem_append.mp ((settled_perm files).mem_iff.mpr hfile)).resolve_left hbuilt

open Classical in
theorem left_eq_filter :
    (settled files).left = files.filter fun file => ¬Buildable files file.name := by
  apply eq_filter_of_sublist (settled_sublist files) hnames.of_map
  intro file hfile
  rw [decide_eq_true_eq]
  exact mem_left_iff hnames hfile

end Names

def Progress.missing (p : Progress) : List String := p.pool.missingImports p.left

/-- The imports of files that name nothing in another list. -/
theorem Progress.mem_missing {p : Progress} {text : String} :
    text ∈ p.missing ↔ ∃ file ∈ p.left, ∃ name ∈ file.dependencies,
      (¬∃ other ∈ p.built, other.name = name) ∧ text = file.name ++ " -> " ++ name := by
  rw [missing, Pool.missingImports, mem_sortedTexts, List.mem_flatMap]
  apply exists_congr
  intro file
  apply and_congr_right
  intro _
  simp only [Progress.pool, Pool.contains_positions_ofFiles, List.mem_map, List.mem_filter,
    Bool.not_eq_true', List.any_eq_false]
  constructor
  · rintro ⟨name, ⟨hname, hnone⟩, rfl⟩
    exact ⟨name, hname, by simpa using hnone, rfl⟩
  · rintro ⟨name, hname, hnone, rfl⟩
    exact ⟨name, ⟨hname, by simpa using hnone⟩, rfl⟩

def WellNamed (descriptors : List FileDescriptor) : Prop :=
  (∀ d ∈ descriptors, Text.isBlankText d.file.name = false) ∧
    (descriptors.map (·.file.name)).Nodup

theorem wellNamed_cons {d : FileDescriptor} {rest : List FileDescriptor} :
    WellNamed (d :: rest) ↔ Text.isBlankText d.file.name = false ∧
      (∀ other ∈ rest, other.file.name ≠ d.file.name) ∧ WellNamed rest := by
  simp only [WellNamed, List.forall_mem_cons, List.map_cons, List.nodup_cons, List.mem_map,
    not_exists, not_and]
  tauto

theorem filesFrom_cons (position : Nat) (names : List String) (d : FileDescriptor)
    (rest : List FileDescriptor) :
    filesFrom position names (d :: rest) =
      if Text.isBlankText d.file.name then .error (.unnamedFile position)
      else if d.file.name ∈ names then .error (.duplicateFile d.file.name)
      else (filesFrom (position + 1) (d.file.name :: names) rest).map (d.file :: ·) := by
  simp only [filesFrom, File.ofDescriptor]
  split
  · rfl
  · simp only [bind, Except.bind, List.contains_iff_mem]
    split
    · rfl
    · cases filesFrom (position + 1) (d.file.name :: names) rest <;> rfl

/-- Descriptors are read exactly if their files are well named, apart from names seen before. -/
theorem filesFrom_eq_ok_iff {position : Nat} {names : List String}
    {descriptors : List FileDescriptor} {files : List File} :
    filesFrom position names descriptors = .ok files ↔
      files = descriptors.map FileDescriptor.file ∧ WellNamed descriptors ∧
        ∀ d ∈ descriptors, d.file.name ∉ names := by
  induction descriptors generalizing position names files with
  | nil =>
    constructor
    · intro h
      obtain rfl := Except.ok.inj h
      exact ⟨rfl, ⟨by simp, by simp⟩, by simp⟩
    · rintro ⟨rfl, -, -⟩
      rfl
  | cons d rest ih =>
    rw [filesFrom_cons, wellNamed_cons, List.map_cons, List.forall_mem_cons]
    split
    · next hblank => simp [hblank]
    · split
      · next hseen => simp [hseen]
      · next hblank hseen =>
        have hrest := @ih (position + 1) (d.file.name :: names)
        cases htail : filesFrom (position + 1) (d.file.name :: names) rest with
        | error e =>
          constructor
          · intro h
            cases h
          · rintro ⟨-, ⟨-, hne, hnamed⟩, -, hout⟩
            have hok := hrest.mpr ⟨rfl, hnamed, fun other hother => by
              simp [hne other hother, hout other hother]⟩
            rw [htail] at hok
            cases hok
        | ok tail =>
          obtain ⟨rfl, hnamed, hout⟩ := hrest.mp htail
          simp only [List.mem_cons, not_or] at hout
          constructor
          · intro h
            obtain rfl := Except.ok.inj h
            exact ⟨rfl, ⟨by simpa using hblank, fun other hother => (hout other hother).1, hnamed⟩,
              hseen, fun other hother => (hout other hother).2⟩
          · rintro ⟨rfl, -, -⟩
            rfl

def filesOf (descriptors : List FileDescriptor) : List File := descriptors.map FileDescriptor.file

theorem build_of_wellNamed {descriptors : List FileDescriptor} (h : WellNamed descriptors) :
    Pool.build descriptors = (checkAll [] (buildOrder (filesOf descriptors))).bind fun _ =>
      if (settled (filesOf descriptors)).left = [] then
        .ok (settled (filesOf descriptors)).pool
      else .error (.unresolved ((settled (filesOf descriptors)).left.map (·.name))
        (settled (filesOf descriptors)).missing (settled (filesOf descriptors)).passes) := by
  have hfiles : filesFrom 0 [] descriptors = .ok (filesOf descriptors) :=
    filesFrom_eq_ok_iff.mpr ⟨rfl, h, by simp⟩
  obtain ⟨fresh, hbuilt, hsettle⟩ :=
    settle_eq (2 * (filesOf descriptors).length) ⟨[], filesOf descriptors, 0⟩
  have hstart : (Progress.mk [] (filesOf descriptors) 0).pool = {} := rfl
  obtain rfl : buildOrder (filesOf descriptors) = fresh := by
    simpa [buildOrder, settled] using hbuilt
  rw [hstart] at hsettle
  simp only [Pool.build, hfiles, bind, Except.bind, hsettle]
  cases checkAll [] (buildOrder (filesOf descriptors)) with
  | error e => rfl
  | ok u =>
    simp only [Except.map, List.isEmpty_iff, Progress.passes_pool]
    rfl

/-- The files that are built before a file let it in only if its types pass the check. -/
def FailsCheck (files : List File) (file : File) : Prop :=
  ∃ before after e, buildOrder files = before ++ file :: after ∧
    (Pool.ofFiles before 0).insert file = .error e

theorem failsCheck_iff_checkTypes {files : List File} {file : File} :
    FailsCheck files file ↔ ∃ before after,
      buildOrder files = before ++ file :: after ∧ file.checkTypes before ≠ .ok () := by
  have herror (before : List File) : (∃ e, (Pool.ofFiles before 0).insert file = .error e) ↔
      file.checkTypes before ≠ .ok () := by
    rw [Pool.insert_ofFiles]
    cases file.checkTypes before <;> simp [Except.map]
  simp only [FailsCheck, exists_and_left, herror]

theorem checkAll_buildOrder_iff {files : List File} :
    checkAll [] (buildOrder files) = .ok () ↔ ∀ file ∈ files, ¬FailsCheck files file := by
  simp only [checkAll_eq_ok_iff, failsCheck_iff_checkTypes, List.nil_append]
  constructor
  · rintro h file - ⟨before, after, heq, hfail⟩
    exact hfail (h before file after heq)
  · intro h before file after heq
    have hmem : file ∈ buildOrder files := by rw [heq]; simp
    by_contra hfail
    exact h file (mem_of_mem_buildOrder hmem) ⟨before, after, heq, hfail⟩

theorem left_eq_nil_iff {files : List File} (hnames : (files.map (·.name)).Nodup) :
    (settled files).left = [] ↔ ∀ file ∈ files, Buildable files file.name := by
  constructor
  · intro hleft file hfile
    by_contra hstuck
    have hmem := (mem_left_iff hnames hfile).mpr hstuck
    rw [hleft] at hmem
    cases hmem
  · intro hall
    rw [List.eq_nil_iff_forall_not_mem]
    intro file hmem
    have hfile := (settled_sublist files).mem hmem
    exact (mem_left_iff hnames hfile).mp hmem (hall file hfile)

theorem mem_missing_settled {files : List File} (hnames : (files.map (·.name)).Nodup)
    {text : String} :
    text ∈ (settled files).missing ↔
      ∃ file ∈ files, ¬Buildable files file.name ∧ ∃ name ∈ file.dependencies,
        ¬Buildable files name ∧ text = file.name ++ " -> " ++ name := by
  have hbuilt : (settled files).built = buildOrder files := rfl
  simp only [Progress.mem_missing, hbuilt, exists_mem_buildOrder_iff]
  constructor
  · rintro ⟨file, hleft, hname⟩
    have hfile := (settled_sublist files).mem hleft
    exact ⟨file, hfile, (mem_left_iff hnames hfile).mp hleft, hname⟩
  · rintro ⟨file, hfile, hstuck, hname⟩
    exact ⟨file, (mem_left_iff hnames hfile).mpr hstuck, hname⟩

theorem WellNamed.names_nodup {descriptors : List FileDescriptor} (h : WellNamed descriptors) :
    ((filesOf descriptors).map (·.name)).Nodup := by
  rw [filesOf, List.map_map]
  exact h.2

theorem build_of_buildable {descriptors : List FileDescriptor} (h : WellNamed descriptors)
    (hcheck : ∀ file ∈ filesOf descriptors, ¬FailsCheck (filesOf descriptors) file)
    (hall : ∀ file ∈ filesOf descriptors, Buildable (filesOf descriptors) file.name) :
    Pool.build descriptors = .ok (settled (filesOf descriptors)).pool ∧
    (buildOrder (filesOf descriptors)).Perm (filesOf descriptors) := by
  have hleft := (left_eq_nil_iff h.names_nodup).mpr hall
  have hperm := settled_perm (filesOf descriptors)
  rw [hleft, List.append_nil] at hperm
  rw [build_of_wellNamed h, checkAll_buildOrder_iff.mpr hcheck, Except.bind, if_pos hleft]
  exact ⟨rfl, hperm⟩

theorem build_of_not_buildable {descriptors : List FileDescriptor} (h : WellNamed descriptors)
    (hcheck : ∀ file ∈ filesOf descriptors, ¬FailsCheck (filesOf descriptors) file)
    (hsome : ¬∀ file ∈ filesOf descriptors, Buildable (filesOf descriptors) file.name) :
    Pool.build descriptors = .error (.unresolved
      ((settled (filesOf descriptors)).left.map (·.name))
      (settled (filesOf descriptors)).missing (settled (filesOf descriptors)).passes) := by
  rw [← left_eq_nil_iff h.names_nodup] at hsome
  rw [build_of_wellNamed h, checkAll_buildOrder_iff.mpr hcheck, Except.bind, if_neg hsome]

theorem build_of_failsCheck {descriptors : List FileDescriptor} (h : WellNamed descriptors)
    {file : File} (hfile : file ∈ filesOf descriptors)
    (hfails : FailsCheck (filesOf descriptors) file) :
    ∃ first service method type, FailsCheck (filesOf descriptors) first ∧
      Pool.build descriptors = .error (.unknownMessage first.name service method type) := by
  rw [build_of_wellNamed h]
  cases hcheck : checkAll [] (buildOrder (filesOf descriptors)) with
  | error e =>
    obtain ⟨before, first, after, heq, herror⟩ := checkAll_error hcheck
    obtain ⟨service, method, type, rfl⟩ := checkTypes_error herror
    rw [List.nil_append] at herror
    refine ⟨first, service, method, type, failsCheck_iff_checkTypes.mpr ?_, rfl⟩
    exact ⟨before, after, heq, by simp [herror]⟩
  | ok u => exact absurd hfails (checkAll_buildOrder_iff.mp hcheck file hfile)

theorem FailsCheck.buildable {files : List File} {file : File} (h : FailsCheck files file) :
    Buildable files file.name := by
  obtain ⟨before, after, e, heq, -⟩ := h
  rw [← exists_mem_buildOrder_iff]
  exact ⟨file, by rw [heq]; simp, rfl⟩

open Classical in
/-- Files with names of their own are all built if all can be built and see the types they use. If
some cannot be built, the error names them in the order of the set, with the imports that they lack.
If a file that can be built uses a type that it does not see, the error names such a file. There are
never more passes than files, so the limit on them makes no difference. -/
theorem build_converges (descriptors : List FileDescriptor) (h : WellNamed descriptors) :
    ((∀ file ∈ filesOf descriptors, Buildable (filesOf descriptors) file.name →
        ¬FailsCheck (filesOf descriptors) file) →
      ((∀ file ∈ filesOf descriptors, Buildable (filesOf descriptors) file.name) →
        ∃ pool, Pool.build descriptors = .ok pool ∧ pool.files.Perm (filesOf descriptors) ∧
          pool.passes ≤ descriptors.length) ∧
      ((¬∀ file ∈ filesOf descriptors, Buildable (filesOf descriptors) file.name) →
        ∃ missing passes,
          Pool.build descriptors = .error (.unresolved
            (((filesOf descriptors).filter fun file =>
              ¬Buildable (filesOf descriptors) file.name).map (·.name)) missing passes) ∧
          missing.Pairwise (· < ·) ∧
          (∀ text, text ∈ missing ↔
            ∃ file ∈ filesOf descriptors, ¬Buildable (filesOf descriptors) file.name ∧
              ∃ name ∈ file.dependencies, ¬Buildable (filesOf descriptors) name ∧
                text = file.name ++ " -> " ++ name) ∧
          passes ≤ descriptors.length)) ∧
    ((∃ file ∈ filesOf descriptors, Buildable (filesOf descriptors) file.name ∧
        FailsCheck (filesOf descriptors) file) →
      ∃ first service method type, FailsCheck (filesOf descriptors) first ∧
        Pool.build descriptors = .error (.unknownMessage first.name service method type)) ∧
    ∀ limit, descriptors.length ≤ limit →
      Pool.settle limit {} (filesOf descriptors) =
        Pool.settle (2 * descriptors.length) {} (filesOf descriptors) := by
  have hlen : (filesOf descriptors).length = descriptors.length := List.length_map _
  have hpasses := settled_passes (filesOf descriptors)
  rw [hlen] at hpasses
  refine ⟨?_, ?_, ?_⟩
  · intro hcheck
    have hcheck' : ∀ file ∈ filesOf descriptors, ¬FailsCheck (filesOf descriptors) file :=
      fun file hfile hfails => hcheck file hfile hfails.buildable hfails
    refine ⟨?_, ?_⟩
    · intro hall
      obtain ⟨hbuild, hperm⟩ := build_of_buildable h hcheck' hall
      refine ⟨_, hbuild, ?_, by rwa [Progress.passes_pool]⟩
      rwa [Progress.files_pool]
    · intro hsome
      have hbuild := build_of_not_buildable h hcheck' hsome
      refine ⟨_, _, ?_, sortedTexts_pairwise _,
        fun text => mem_missing_settled h.names_nodup, hpasses⟩
      rw [hbuild, ← left_eq_filter h.names_nodup, Progress.missing, Pool.missingImports]
  · rintro ⟨file, hfile, -, hfails⟩
    exact build_of_failsCheck h hfile hfails
  · intro limit hlimit
    exact settle_limit (p := ⟨[], filesOf descriptors, 0⟩) (hlen.trans_le hlimit)
      (by simp only [hlen]; omega)

/-- A file, listed before the one that it imports, and a file that imports itself. -/
def looseEnds : List FileDescriptor := [
  { name := some "order.proto", dependencies := ["money.proto"] },
  { name := some "money.proto" },
  { name := some "loop.proto", dependencies := ["loop.proto"] }]

theorem looseEnds_wellNamed : WellNamed looseEnds := by
  unfold WellNamed
  decide +kernel

theorem looseEnds_not_buildable : ¬Buildable (filesOf looseEnds) "loop.proto" := by
  intro h
  generalize hname : "loop.proto" = name at h
  induction h with
  | @intro file hmem himports ih =>
    simp only [filesOf, looseEnds, List.map_cons, List.map_nil, List.mem_cons,
      List.not_mem_nil, or_false] at hmem
    obtain rfl | rfl | rfl := hmem
    · simp [FileDescriptor.file] at hname
    · simp [FileDescriptor.file] at hname
    · exact ih "loop.proto" (by simp [FileDescriptor.file]) rfl

theorem looseEnds_not_failsCheck (file : File) : ¬FailsCheck (filesOf looseEnds) file := by
  rw [failsCheck_iff_checkTypes]
  rintro ⟨before, after, heq, hfail⟩
  have hmem : file ∈ filesOf looseEnds := mem_of_mem_buildOrder (by rw [heq]; simp)
  have hservices : file.services = [] := by
    simp only [filesOf, looseEnds, List.map_cons, List.map_nil, List.mem_cons,
      List.not_mem_nil, or_false] at hmem
    obtain rfl | rfl | rfl := hmem <;> rfl
  exact hfail (Pool.checkTypes_eq_ok_iff.mpr (by simp [File.usedTypes, hservices]))

theorem looseEnds_unresolved :
    WellNamed looseEnds ∧ ∃ files missing passes,
      Pool.build looseEnds = .error (.unresolved files missing passes) ∧
        "loop.proto -> loop.proto" ∈ missing ∧ passes ≤ 3 := by
  refine ⟨looseEnds_wellNamed, ?_⟩
  have hmem : (FileDescriptor.file
      { name := some "loop.proto", dependencies := ["loop.proto"] }) ∈ filesOf looseEnds := by
    simp [filesOf, looseEnds]
  obtain ⟨missing, passes, hbuild, -, hmissing, hpasses⟩ :=
    ((build_converges looseEnds looseEnds_wellNamed).1
      fun file _ _ => looseEnds_not_failsCheck file).2
      fun hall => looseEnds_not_buildable (hall _ hmem)
  refine ⟨_, missing, passes, hbuild, ?_, hpasses⟩
  exact (hmissing _).mpr ⟨_, hmem, looseEnds_not_buildable, "loop.proto",
    by simp [FileDescriptor.file], looseEnds_not_buildable, rfl⟩

end PipelinePlan.Schema
