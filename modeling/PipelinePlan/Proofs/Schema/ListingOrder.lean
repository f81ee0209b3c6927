import PipelinePlan.Binding
import PipelinePlan.Proofs.Schema.Visibility

namespace PipelinePlan.Schema

theorem Buildable.mono {files files' : List File} (hsub : ∀ file ∈ files, file ∈ files')
    {name : String} (h : Buildable files name) : Buildable files' name := by
  induction h with
  | intro hmem _ ih => exact .intro (hsub _ hmem) ih

section Perm

variable {files files' : List File} (h : files.Perm files')
include h

theorem buildable_perm {name : String} : Buildable files name ↔ Buildable files' name :=
  ⟨.mono fun _ => h.mem_iff.mp, .mono fun _ => h.mem_iff.mpr⟩

theorem sees_perm {imports : List String} {file : File} :
    Sees files imports file ↔ Sees files' imports file :=
  ⟨.mono fun _ => h.mem_iff.mp, .mono fun _ => h.mem_iff.mpr⟩

theorem typesKnown_perm {file : File} : TypesKnown files file ↔ TypesKnown files' file := by
  simp only [TypesKnown, Knows, sees_perm h]

theorem left_perm (hnames : (files.map (·.name)).Nodup) :
    (settled files).left.Perm (settled files').left := by
  classical
  have hnames' := (h.map (·.name)).nodup_iff.mp hnames
  rw [left_eq_filter hnames, left_eq_filter hnames']
  simp only [buildable_perm h]
  exact h.filter _

theorem missing_perm (hnames : (files.map (·.name)).Nodup) :
    (settled files).missing = (settled files').missing := by
  have hnames' := (h.map (·.name)).nodup_iff.mp hnames
  have hmem : ∀ text, text ∈ (settled files).missing ↔ text ∈ (settled files').missing := by
    intro text
    simp only [mem_missing_settled hnames, mem_missing_settled hnames', buildable_perm h,
      h.mem_iff]
  apply sortedTexts_congr
  simpa only [Progress.missing, Pool.missingImports, mem_sortedTexts] using hmem

end Perm

theorem wellNamed_perm {descriptors descriptors' : List FileDescriptor}
    (h : descriptors.Perm descriptors') : WellNamed descriptors ↔ WellNamed descriptors' := by
  simp only [WellNamed, h.mem_iff, (h.map (·.file.name)).nodup_iff]

theorem filesFrom_error {position : Nat} {names : List String}
    {descriptors : List FileDescriptor} {e : Error}
    (h : filesFrom position names descriptors = .error e) :
    (∃ unnamed, e = .unnamedFile unnamed) ∨ ∃ name, e = .duplicateFile name := by
  induction descriptors generalizing position names with
  | nil => cases h
  | cons d rest ih =>
    rw [filesFrom_cons] at h
    split at h
    · exact .inl ⟨position, (Except.error.inj h).symm⟩
    · split at h
      · exact .inr ⟨d.file.name, (Except.error.inj h).symm⟩
      · cases hrest : filesFrom (position + 1) (d.file.name :: names) rest with
        | error e' =>
          rw [hrest] at h
          obtain rfl := Except.error.inj h
          exact ih hrest
        | ok files =>
          rw [hrest] at h
          cases h

theorem build_of_not_wellNamed {descriptors : List FileDescriptor} (h : ¬WellNamed descriptors) :
    ∃ e, Pool.build descriptors = .error e ∧
      ((∃ position, e = .unnamedFile position) ∨ ∃ name, e = .duplicateFile name) := by
  cases hfiles : filesFrom 0 [] descriptors with
  | ok files => exact absurd (filesFrom_eq_ok_iff.mp hfiles).2.1 h
  | error e =>
    refine ⟨e, ?_, filesFrom_error hfiles⟩
    simp only [Pool.build, hfiles, bind, Except.bind]

/-- What building a set can come to. Where neither a name nor a type is at fault, the set is built
or left unresolved as its imports decide. -/
theorem build_cases (descriptors : List FileDescriptor) :
    (∃ e, Pool.build descriptors = .error e ∧
      ((∃ position, e = .unnamedFile position) ∨ ∃ name, e = .duplicateFile name)) ∨
    (∃ file service method type,
      Pool.build descriptors = .error (.unknownMessage file service method type)) ∨
    (WellNamed descriptors ∧
      (∀ file ∈ filesOf descriptors, ¬FailsCheck (filesOf descriptors) file) ∧
      ((∀ file ∈ filesOf descriptors, Buildable (filesOf descriptors) file.name) ∧
          Pool.build descriptors = .ok (settled (filesOf descriptors)).pool ∨
        (¬∀ file ∈ filesOf descriptors, Buildable (filesOf descriptors) file.name) ∧
          Pool.build descriptors = .error (.unresolved
            ((settled (filesOf descriptors)).left.map (·.name))
            (settled (filesOf descriptors)).missing
            (settled (filesOf descriptors)).passes))) := by
  by_cases hnamed : WellNamed descriptors
  · right
    by_cases hcheck : ∀ file ∈ filesOf descriptors, ¬FailsCheck (filesOf descriptors) file
    · right
      refine ⟨hnamed, hcheck, ?_⟩
      by_cases hall : ∀ file ∈ filesOf descriptors, Buildable (filesOf descriptors) file.name
      · exact .inl ⟨hall, (build_of_buildable hnamed hcheck hall).1⟩
      · exact .inr ⟨hall, build_of_not_buildable hnamed hcheck hall⟩
    · left
      push Not at hcheck
      obtain ⟨file, hfile, hfails⟩ := hcheck
      obtain ⟨first, service, method, type, -, hbuild⟩ := build_of_failsCheck hnamed hfile hfails
      exact ⟨first.name, service, method, type, hbuild⟩
  · exact .inl (build_of_not_wellNamed hnamed)

theorem build_ok_inv {descriptors : List FileDescriptor} {pool : Pool}
    (h : Pool.build descriptors = .ok pool) :
    WellNamed descriptors ∧
    (∀ file ∈ filesOf descriptors, ¬FailsCheck (filesOf descriptors) file) ∧
    (∀ file ∈ filesOf descriptors, Buildable (filesOf descriptors) file.name) ∧
    pool = (settled (filesOf descriptors)).pool := by
  rcases build_cases descriptors with ⟨e, hbuild, -⟩ | ⟨file, service, method, type, hbuild⟩ |
    ⟨hnamed, hcheck, ⟨hall, hbuild⟩ | ⟨-, hbuild⟩⟩
  all_goals rw [h] at hbuild
  · cases hbuild
  · cases hbuild
  · obtain rfl := Except.ok.inj hbuild
    exact ⟨hnamed, hcheck, hall, rfl⟩
  · cases hbuild

theorem build_unresolved_inv {descriptors : List FileDescriptor} {files missing : List String}
    {passes : Nat} (h : Pool.build descriptors = .error (.unresolved files missing passes)) :
    WellNamed descriptors ∧
    (∀ file ∈ filesOf descriptors, ¬FailsCheck (filesOf descriptors) file) ∧
    (¬∀ file ∈ filesOf descriptors, Buildable (filesOf descriptors) file.name) ∧
    files = (settled (filesOf descriptors)).left.map (·.name) ∧
    missing = (settled (filesOf descriptors)).missing := by
  rcases build_cases descriptors with ⟨e, hbuild, he⟩ | ⟨file, service, method, type, hbuild⟩ |
    ⟨hnamed, hcheck, ⟨-, hbuild⟩ | ⟨hsome, hbuild⟩⟩
  all_goals rw [h] at hbuild
  · obtain rfl := Except.error.inj hbuild
    simp at he
  · cases hbuild
  · cases hbuild
  · obtain ⟨rfl, rfl, -⟩ := Error.unresolved.inj (Except.error.inj hbuild)
    exact ⟨hnamed, hcheck, hsome, rfl, rfl⟩

theorem build_files_perm {descriptors : List FileDescriptor} {pool : Pool}
    (h : Pool.build descriptors = .ok pool) : pool.files.Perm (filesOf descriptors) := by
  obtain ⟨hnamed, hcheck, hall, rfl⟩ := build_ok_inv h
  rw [Progress.files_pool]
  exact (build_of_buildable hnamed hcheck hall).2

theorem build_files_eq {descriptors : List FileDescriptor} {pool : Pool}
    (h : Pool.build descriptors = .ok pool) : pool.files = buildOrder (filesOf descriptors) := by
  obtain ⟨-, -, -, rfl⟩ := build_ok_inv h
  exact Progress.files_pool _

/-- The tables of every pool that is built agree with its files. -/
theorem build_indexed {descriptors : List FileDescriptor} {pool : Pool}
    (h : Pool.build descriptors = .ok pool) : pool.Indexed := by
  have hnames := ((build_files_perm h).map (·.name)).nodup_iff.mpr
    (build_ok_inv h).1.names_nodup
  obtain ⟨-, -, -, rfl⟩ := build_ok_inv h
  rw [Progress.files_pool] at hnames
  exact Pool.indexed_ofFiles hnames _

theorem passes_le_length {descriptors : List FileDescriptor} {pool : Pool}
    (h : Pool.build descriptors = .ok pool) : pool.passes ≤ pool.files.length := by
  have hlength := (build_files_perm h).length_eq
  obtain ⟨-, -, -, rfl⟩ := build_ok_inv h
  rw [hlength, Progress.passes_pool]
  exact settled_passes _

/-- A set is built exactly if each file has a name of its own, can be built and knows its types. -/
theorem exists_build_iff {descriptors : List FileDescriptor}
    (honce : DeclaredOnce (filesOf descriptors)) :
    (∃ pool, Pool.build descriptors = .ok pool) ↔
      WellNamed descriptors ∧ ∀ file ∈ filesOf descriptors,
        Buildable (filesOf descriptors) file.name ∧ TypesKnown (filesOf descriptors) file := by
  constructor
  · rintro ⟨pool, hpool⟩
    obtain ⟨hnamed, hcheck, hall, -⟩ := build_ok_inv hpool
    refine ⟨hnamed, ?_⟩
    intro file hfile
    refine ⟨hall file hfile, ?_⟩
    by_contra hunknown
    exact hcheck file hfile
      ((failsCheck_iff hnamed.names_nodup honce hfile).mpr ⟨hall file hfile, hunknown⟩)
  · rintro ⟨hnamed, hall⟩
    refine ⟨_, (build_of_buildable hnamed ?_ fun file hfile => (hall file hfile).1).1⟩
    intro file hfile hfails
    exact ((failsCheck_iff hnamed.names_nodup honce hfile).mp hfails).2 (hall file hfile).2

section Listing

variable {descriptors descriptors' : List FileDescriptor} (h : descriptors.Perm descriptors')
include h

theorem filesOf_perm : (filesOf descriptors).Perm (filesOf descriptors') := h.map _

theorem declaredOnce_perm (honce : DeclaredOnce (filesOf descriptors)) :
    DeclaredOnce (filesOf descriptors') :=
  honce.mono fun _ => (filesOf_perm h).mem_iff.mpr

theorem exists_build_perm (honce : DeclaredOnce (filesOf descriptors)) :
    (∃ pool, Pool.build descriptors = .ok pool) ↔ ∃ pool, Pool.build descriptors' = .ok pool := by
  rw [exists_build_iff honce, exists_build_iff (declaredOnce_perm h honce), wellNamed_perm h]
  simp only [(filesOf_perm h).mem_iff, buildable_perm (filesOf_perm h),
    typesKnown_perm (filesOf_perm h)]

theorem pools_perm {pool pool' : Pool} (hpool : Pool.build descriptors = .ok pool)
    (hpool' : Pool.build descriptors' = .ok pool') : pool.files.Perm pool'.files :=
  ((build_files_perm hpool).trans (filesOf_perm h)).trans (build_files_perm hpool').symm

theorem owner?_perm (honce : DeclaredOnce (filesOf descriptors)) {pool pool' : Pool}
    (hpool : Pool.build descriptors = .ok pool) (hpool' : Pool.build descriptors' = .ok pool')
    (message : String) : pool.owner? message = pool'.owner? message := by
  have hnames := (build_ok_inv hpool).1.names_nodup
  have hfiles := build_files_perm hpool
  rw [(build_indexed hpool).owner?_eq, (build_indexed hpool').owner?_eq]
  apply find?_eq_of_perm (pools_perm h hpool hpool')
  intro file hfile other hother hdeclares hdeclares'
  exact honce.eq hnames (hfiles.mem_iff.mp hfile) (hfiles.mem_iff.mp hother) hdeclares hdeclares'

theorem unresolved_perm (honce : DeclaredOnce (filesOf descriptors))
    {files missing : List String} {passes : Nat}
    (hbuild : Pool.build descriptors = .error (.unresolved files missing passes)) :
    ∃ files' passes', Pool.build descriptors' = .error (.unresolved files' missing passes') ∧
      files.Perm files' := by
  obtain ⟨hnamed, hcheck, hsome, rfl, rfl⟩ := build_unresolved_inv hbuild
  have hfiles := filesOf_perm h
  have hnamed' := (wellNamed_perm h).mp hnamed
  have hcheck' : ∀ file ∈ filesOf descriptors', ¬FailsCheck (filesOf descriptors') file := by
    intro file hfile'
    have hfile := hfiles.mem_iff.mpr hfile'
    -- The check is made in the order of one listing, but what a file knows is the same in both.
    rw [failsCheck_iff hnamed'.names_nodup (declaredOnce_perm h honce) hfile',
      ← buildable_perm hfiles, ← typesKnown_perm hfiles,
      ← failsCheck_iff hnamed.names_nodup honce hfile]
    exact hcheck file hfile
  have hsome' : ¬∀ file ∈ filesOf descriptors', Buildable (filesOf descriptors') file.name := by
    simpa only [← hfiles.mem_iff, ← buildable_perm hfiles] using hsome
  have hbuild' := build_of_not_buildable hnamed' hcheck' hsome'
  rw [← missing_perm hfiles hnamed.names_nodup] at hbuild'
  exact ⟨_, _, hbuild', (left_perm hfiles hnamed.names_nodup).map _⟩

end Listing

end PipelinePlan.Schema

namespace PipelinePlan.Binding

open Schema

/-- The same binding with the same remarks, or errors of the same constructor. -/
inductive Agree : Except Error (Outcome Binding) → Except Error (Outcome Binding) → Prop
  | ok (outcome : Outcome Binding) : Agree (.ok outcome) (.ok outcome)
  | error {e e' : Error} (h : e.ctorIdx = e'.ctorIdx) : Agree (.error e) (.error e')

theorem Agree.refl (result : Except Error (Outcome Binding)) : Agree result result := by
  cases result with
  | ok outcome => exact .ok outcome
  | error e => exact .error rfl

theorem service?_of_nil {step : Step} {pool : Pool}
    (h : pool.servicesNamed step.serviceName = []) :
    service? step pool = .error (.serviceNotFound step.name step.serviceName
      (pool.suggestServices step.serviceName)) := by
  rw [service?, h]

theorem service?_of_cons_cons {step : Step} {pool : Pool} {first second : File × Service}
    {rest : List (File × Service)}
    (h : pool.servicesNamed step.serviceName = first :: second :: rest) :
    service? step pool = .error (.duplicateService step.name step.serviceName
      ((first :: second :: rest).map (·.1.name))) := by
  rw [service?, h]

theorem service?_perm (step : Step) {pool pool' : Pool} (h : pool.files.Perm pool'.files) :
    service? step pool = service? step pool' ∨
      ∃ e e', service? step pool = .error e ∧ service? step pool' = .error e' ∧
        e.ctorIdx = e'.ctorIdx := by
  have hservices : (pool.servicesNamed step.serviceName).Perm
      (pool'.servicesNamed step.serviceName) := h.flatMap_right _
  rcases hfound : pool.servicesNamed step.serviceName with _ | ⟨found, _ | ⟨second, rest⟩⟩
  · rw [hfound, List.nil_perm] at hservices
    exact .inr ⟨_, _, service?_of_nil hfound, service?_of_nil hservices, rfl⟩
  · rw [hfound, List.singleton_perm] at hservices
    left
    rw [service?, service?, hfound, ← hservices]
  · have hlen := hservices.length_eq
    rw [hfound, List.length_cons, List.length_cons] at hlen
    match hfound' : pool'.servicesNamed step.serviceName, hlen with
    | found' :: second' :: rest', _ =>
      exact .inr ⟨_, _, service?_of_cons_cons hfound, service?_of_cons_cons hfound', rfl⟩

theorem resolve_agree (step : Step) {pool pool' : Pool} (h : pool.files.Perm pool'.files)
    (howner : ∀ message, pool.owner? message = pool'.owner? message) :
    Agree (resolve step pool) (resolve step pool') := by
  rcases service?_perm step h with hservice | ⟨e, e', hservice, hservice', hctor⟩
  · simp only [resolve, hservice, howner]
    exact .refl _
  · simp only [resolve, hservice, hservice']
    split
    · exact .error rfl
    · exact .error hctor

theorem resolveIn_agree (step : Step) {descriptors descriptors' : List FileDescriptor}
    (h : descriptors.Perm descriptors') (honce : DeclaredOnce (filesOf descriptors)) :
    Agree (resolveIn step descriptors) (resolveIn step descriptors') := by
  have hexists := exists_build_perm h honce
  simp only [resolveIn]
  cases hpool : Pool.build descriptors with
  | ok pool =>
    obtain ⟨pool', hpool'⟩ := hexists.mp ⟨pool, hpool⟩
    rw [hpool']
    exact resolve_agree step (pools_perm h hpool hpool') (owner?_perm h honce hpool hpool')
  | error e =>
    cases hpool' : Pool.build descriptors' with
    | ok pool' =>
      obtain ⟨pool, hok⟩ := hexists.mpr ⟨pool', hpool'⟩
      rw [hpool] at hok
      cases hok
    | error e' => exact .error rfl

/-- If no message is declared twice, listing the files of a set in another order does not change
whether it is built, what is built, which file owns a message, what a step is bound to, or what is
reported as missing. -/
theorem build_perm_resolveIn_agree {descriptors descriptors' : List FileDescriptor}
    (h : descriptors.Perm descriptors') (honce : DeclaredOnce (filesOf descriptors)) :
    ((∃ pool, Pool.build descriptors = .ok pool) ↔ ∃ pool, Pool.build descriptors' = .ok pool) ∧
    (∀ pool pool', Pool.build descriptors = .ok pool → Pool.build descriptors' = .ok pool' →
      pool.files.Perm pool'.files ∧
        ∀ message, pool.owner? message = pool'.owner? message) ∧
    (∀ step, Agree (resolveIn step descriptors) (resolveIn step descriptors')) ∧
    ∀ files missing passes,
      Pool.build descriptors = .error (.unresolved files missing passes) →
      ∃ files' passes', Pool.build descriptors' = .error (.unresolved files' missing passes') ∧
        files.Perm files' := by
  refine ⟨exists_build_perm h honce, ?_, ?_, ?_⟩
  · intro pool pool' hpool hpool'
    exact ⟨pools_perm h hpool hpool', owner?_perm h honce hpool hpool'⟩
  · intro step
    exact resolveIn_agree step h honce
  · intro files missing passes hbuild
    exact unresolved_perm h honce hbuild

def orderFile : FileDescriptor :=
  { name := some "order.proto", package := some "acme", messages := [.mk (some "Order") []] }

def apiFile : FileDescriptor := { name := some "api.proto", dependencies := ["order.proto"] }

/-- A service whose types lie in a file that its own file imports through another one. -/
def shopFile : FileDescriptor where
  name := some "shop.proto"
  dependencies := ["api.proto"]
  services := [{ name := some "ProcessOrderService", methods := [
    { name := some "remoteProcess", inputType := some ".acme.Order",
      outputType := some ".acme.Order" }] }]

def shop : List FileDescriptor := [shopFile, apiFile, orderFile]

theorem mem_shop {file : File} :
    file ∈ filesOf shop ↔ file = shopFile.file ∨ file = apiFile.file ∨ file = orderFile.file := by
  simp [filesOf, shop]

theorem shop_declaredOnce : DeclaredOnce (filesOf shop) := by
  have hmessages : ∀ file ∈ filesOf shop, ∀ message, file.declares message = true →
      file = orderFile.file := by
    intro file hfile message hdeclares
    rcases mem_shop.mp hfile with rfl | rfl | rfl
    · cases hdeclares
    · cases hdeclares
    · rfl
  intro file hfile other hother message hdeclares hdeclares'
  rw [hmessages file hfile message hdeclares, hmessages other hother message hdeclares']

theorem shop_built : ∃ pool, Pool.build shop = .ok pool := by
  have horder : orderFile.file ∈ filesOf shop := by simp [mem_shop]
  have hapi : apiFile.file ∈ filesOf shop := by simp [mem_shop]
  have hshop : shopFile.file ∈ filesOf shop := by simp [mem_shop]
  have horder' : Buildable (filesOf shop) "order.proto" :=
    .intro horder (by simp [orderFile, FileDescriptor.file])
  have hapi' : Buildable (filesOf shop) "api.proto" :=
    .intro hapi (by simpa [apiFile, FileDescriptor.file])
  have hsees : Sees (filesOf shop) shopFile.file.dependencies orderFile.file :=
    .through (.direct hapi (by decide)) horder (by decide)
  rw [exists_build_iff shop_declaredOnce]
  refine ⟨by unfold WellNamed; decide +kernel, ?_⟩
  intro file hfile
  rcases mem_shop.mp hfile with rfl | rfl | rfl
  · refine ⟨.intro hshop (by simpa [shopFile, FileDescriptor.file]), ?_⟩
    intro use huse
    have htype : use.2.2 = ".acme.Order" := by
      revert use
      decide +kernel
    rw [htype]
    exact .inr ⟨orderFile.file, hsees, by decide +kernel⟩
  · exact ⟨hapi', fun use huse => by cases huse⟩
  · exact ⟨horder', fun use huse => by cases huse⟩

theorem shop_reverse : shop.Perm shop.reverse ∧ DeclaredOnce (filesOf shop) ∧
    (∃ pool, Pool.build shop.reverse = .ok pool) ∧
      ∀ step, Agree (resolveIn step shop) (resolveIn step shop.reverse) := by
  have h : shop.Perm shop.reverse := (List.reverse_perm shop).symm
  obtain ⟨hbuild, -, hagree, -⟩ := build_perm_resolveIn_agree h shop_declaredOnce
  exact ⟨h, shop_declaredOnce, hbuild.mp shop_built, hagree⟩

end PipelinePlan.Binding
