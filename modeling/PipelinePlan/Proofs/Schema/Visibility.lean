import PipelinePlan.Proofs.Schema.Convergence

namespace PipelinePlan.Schema

/-- The files that imports make visible: those they name, and those that such files import. -/
inductive Sees (files : List File) (imports : List String) : File → Prop
  | direct {file : File} (hmem : file ∈ files) (hname : file.name ∈ imports) :
      Sees files imports file
  | through {file other : File} (hsees : Sees files imports file) (hmem : other ∈ files)
      (hname : other.name ∈ file.dependencies) : Sees files imports other

theorem Sees.mem {files : List File} {imports : List String} {file : File}
    (h : Sees files imports file) : file ∈ files := by
  cases h with
  | direct hmem _ => exact hmem
  | through _ hmem _ => exact hmem

theorem Sees.mono {files files' : List File} (hsub : ∀ file ∈ files, file ∈ files')
    {imports : List String} {file : File} (h : Sees files imports file) :
    Sees files' imports file := by
  induction h with
  | direct hmem hname => exact .direct (hsub _ hmem) hname
  | through _ hmem hname ih => exact .through ih (hsub _ hmem) hname

section Tables

variable {pool : Pool} (hpool : pool.Indexed)
include hpool

theorem Pool.Indexed.position_eq {i : Nat} {file : File} (h : pool.files[i]? = some file) :
    pool.positions.find? file.name = some i := by
  obtain ⟨hi, rfl⟩ := List.getElem?_eq_some_iff.mp h
  rw [hpool.position, List.findIdx?_eq_some_iff_getElem]
  refine ⟨hi, by simp, ?_⟩
  intro j hj heq
  have hname : (pool.files.map (·.name))[j]? = (pool.files.map (·.name))[i]? := by
    simpa [List.getElem?_eq_getElem, hi, hj.trans hi] using heq
  have hij : j = i := (List.getElem?_inj (by simpa using hj.trans hi) hpool.names_nodup).mp hname
  omega

theorem Pool.Indexed.mem_positionsOf {names : List String} {i : Nat} :
    i ∈ pool.positionsOf names ↔ ∃ file, pool.files[i]? = some file ∧ file.name ∈ names := by
  rw [positionsOf, List.mem_filterMap]
  constructor
  · rintro ⟨name, hname, hfind⟩
    rw [hpool.position] at hfind
    obtain ⟨hi, hhit, -⟩ := List.findIdx?_eq_some_iff_getElem.mp hfind
    obtain rfl : pool.files[i].name = name := by simpa using hhit
    exact ⟨pool.files[i], List.getElem?_eq_getElem hi, hname⟩
  · rintro ⟨file, hfile, hname⟩
    exact ⟨file.name, hname, hpool.position_eq hfile⟩

theorem Pool.Indexed.lt_of_mem_positionsOf {names : List String} {i : Nat}
    (h : i ∈ pool.positionsOf names) : i < pool.files.length := by
  obtain ⟨file, hfile, -⟩ := hpool.mem_positionsOf.mp h
  exact (List.getElem?_eq_some_iff.mp hfile).1

end Tables

/-- Every import of a position that was followed was followed or waits on the stack. -/
def Followed (pool : Pool) (seen stack : List Nat) : Prop :=
  ∀ i ∈ seen, ∀ file, pool.files[i]? = some file →
    ∀ j ∈ pool.positionsOf file.dependencies, j ∈ seen ∨ j ∈ stack

theorem Followed.tail {pool : Pool} {seen rest : List Nat} {i : Nat}
    (h : Followed pool seen (i :: rest)) (hi : i ∈ seen) : Followed pool seen rest := by
  intro k hk file hfile j hj
  rcases h k hk file hfile j hj with hseen | hstack
  · exact .inl hseen
  · rcases List.mem_cons.mp hstack with rfl | hrest
    · exact .inl hi
    · exact .inr hrest

theorem Followed.cons {pool : Pool} {seen rest : List Nat} {i : Nat}
    (h : Followed pool seen (i :: rest)) (hi : i < pool.files.length) :
    Followed pool (i :: seen) (pool.positionsOf pool.files[i].dependencies ++ rest) := by
  intro k hk file hfile j hj
  rcases List.mem_cons.mp hk with rfl | hk
  · rw [List.getElem?_eq_getElem hi] at hfile
    obtain rfl := Option.some.inj hfile
    exact .inr (List.mem_append_left _ hj)
  · rcases h k hk file hfile j hj with hseen | hstack
    · exact .inl (List.mem_cons_of_mem _ hseen)
    · rcases List.mem_cons.mp hstack with rfl | hrest
      · exact .inl List.mem_cons_self
      · exact .inr (List.mem_append_right _ hrest)

/-- What imports lead to holds all that was seen and all that waits, and is closed under imports. -/
theorem reach_closed {pool : Pool} (hpool : pool.Indexed) {seen stack : List Nat}
    (h : Followed pool seen stack) (hstack : ∀ i ∈ stack, i < pool.files.length) :
    (∀ i, i ∈ seen ∨ i ∈ stack → i ∈ pool.reach seen stack) ∧
      Followed pool (pool.reach seen stack) [] := by
  fun_induction pool.reach seen stack with
  | case1 seen => exact ⟨by simp, h⟩
  | case2 seen i rest hi hseen ih =>
    rw [List.contains_iff_mem] at hseen
    obtain ⟨hkeep, hclosed⟩ := ih (h.tail hseen) (List.forall_mem_cons.mp hstack).2
    refine ⟨?_, hclosed⟩
    rintro k (hk | hk)
    · exact hkeep k (.inl hk)
    · rcases List.mem_cons.mp hk with rfl | hk
      · exact hkeep k (.inl hseen)
      · exact hkeep k (.inr hk)
  | case3 seen i rest hi hseen ih =>
    -- The position is followed now, and its imports take its place on the stack.
    obtain ⟨hkeep, hclosed⟩ := ih (h.cons hi) <| List.forall_mem_append.mpr
      ⟨fun k hk => hpool.lt_of_mem_positionsOf hk, (List.forall_mem_cons.mp hstack).2⟩
    refine ⟨?_, hclosed⟩
    rintro k (hk | hk)
    · exact hkeep k (.inl (List.mem_cons_of_mem _ hk))
    · rcases List.mem_cons.mp hk with rfl | hk
      · exact hkeep k (.inl List.mem_cons_self)
      · exact hkeep k (.inr (List.mem_append_right _ hk))
  | case4 seen i rest hi ih => exact absurd (hstack i List.mem_cons_self) hi

/-- Imports lead nowhere outside a set of positions that is closed under them. -/
theorem reach_sound {pool : Pool} {P : Nat → Prop}
    (hP : ∀ i file, P i → pool.files[i]? = some file →
      ∀ j ∈ pool.positionsOf file.dependencies, P j)
    {seen stack : List Nat} (hseen : ∀ i ∈ seen, P i) (hstack : ∀ i ∈ stack, P i) :
    ∀ i ∈ pool.reach seen stack, P i := by
  fun_induction pool.reach seen stack with
  | case1 seen => exact hseen
  | case2 seen i rest hi _ ih =>
    exact ih hseen fun k hk => hstack k (List.mem_cons_of_mem _ hk)
  | case3 seen i rest hi _ ih =>
    have hPi : P i := hstack i List.mem_cons_self
    apply ih
    · intro k hk
      rcases List.mem_cons.mp hk with rfl | hk
      · exact hPi
      · exact hseen k hk
    · intro k hk
      rcases List.mem_append.mp hk with hk | hk
      · exact hP i pool.files[i] hPi (List.getElem?_eq_getElem hi) k hk
      · exact hstack k (List.mem_cons_of_mem _ hk)
  | case4 seen i rest _ ih =>
    exact ih hseen fun k hk => hstack k (List.mem_cons_of_mem _ hk)

theorem Pool.Indexed.mem_visible_iff {pool : Pool} (hpool : pool.Indexed)
    {imports : List String} {i : Nat} :
    i ∈ pool.visible imports ↔
      ∃ file, pool.files[i]? = some file ∧ Sees pool.files imports file := by
  constructor
  · apply reach_sound
      (P := fun i => ∃ file, pool.files[i]? = some file ∧ Sees pool.files imports file)
    · rintro i file ⟨file', hfile', hsees⟩ hfile j hj
      obtain rfl : file = file' := Option.some.inj (hfile.symm.trans hfile')
      obtain ⟨other, hother, hname⟩ := hpool.mem_positionsOf.mp hj
      exact ⟨other, hother, .through hsees (List.mem_of_getElem? hother) hname⟩
    · simp
    · intro j hj
      obtain ⟨file, hfile, hname⟩ := hpool.mem_positionsOf.mp hj
      exact ⟨file, hfile, .direct (List.mem_of_getElem? hfile) hname⟩
  · rintro ⟨file, hfile, hsees⟩
    have hstart : Followed pool [] (pool.positionsOf imports) := fun _ h => by cases h
    obtain ⟨hstack, hclosed⟩ :=
      reach_closed hpool hstart fun _ => hpool.lt_of_mem_positionsOf
    induction hsees generalizing i with
    | direct hmem hname =>
      exact hstack i (.inr (hpool.mem_positionsOf.mpr ⟨_, hfile, hname⟩))
    | @through file other hsees hmem hname ih =>
      obtain ⟨k, hk⟩ := List.mem_iff_getElem?.mp hsees.mem
      have hi := hpool.mem_positionsOf.mpr ⟨_, hfile, hname⟩
      exact (hclosed k (ih hk) file hk i hi).resolve_right List.not_mem_nil

theorem ImportsFirst.exists_import {built : List File} (h : ImportsFirst built) {file : File}
    (hfile : file ∈ built) {name : String} (hname : name ∈ file.dependencies) :
    ∃ other ∈ built, other.name = name := by
  obtain ⟨before, after, rfl⟩ := List.append_of_mem hfile
  obtain ⟨other, hother, heq⟩ := ready_iff.mp (h before file after rfl) name hname
  exact ⟨other, List.mem_append_left _ hother, heq⟩

/-- Imports that are built make the same files visible in all files as in the built ones. -/
theorem ImportsFirst.sees_iff {files built : List File} (h : ImportsFirst built)
    (hnames : (files.map (·.name)).Nodup) (hsub : ∀ file ∈ built, file ∈ files)
    {imports : List String} (hbuilt : ∀ name ∈ imports, ∃ other ∈ built, other.name = name)
    {file : File} : Sees built imports file ↔ Sees files imports file := by
  have hsame : ∀ {file : File}, file ∈ files → (∃ other ∈ built, other.name = file.name) →
      file ∈ built := by
    rintro file hfile ⟨other, hother, hname⟩
    rwa [← List.inj_on_of_nodup_map hnames (hsub other hother) hfile hname]
  constructor
  · exact Sees.mono hsub
  · intro hsees
    induction hsees with
    | direct hmem hname => exact .direct (hsame hmem (hbuilt _ hname)) hname
    | through _ hmem hname ih => exact .through ih (hsame hmem (h.exists_import ih.mem hname)) hname

/-- A file declares a type or sees a file that does. -/
def Knows (files : List File) (file : File) (type : String) : Prop :=
  file.declares type = true ∨
    ∃ other, Sees files file.dependencies other ∧ other.declares type = true

def DeclaredOnce (files : List File) : Prop :=
  ∀ file ∈ files, ∀ other ∈ files, ∀ message, file.declares message = true →
    other.declares message = true → file.name = other.name

theorem DeclaredOnce.mono {files files' : List File} (h : DeclaredOnce files')
    (hsub : ∀ file ∈ files, file ∈ files') : DeclaredOnce files :=
  fun file hfile other hother => h file (hsub file hfile) other (hsub other hother)

theorem DeclaredOnce.eq {files : List File} (h : DeclaredOnce files)
    (hnames : (files.map (·.name)).Nodup) {file other : File} (hfile : file ∈ files)
    (hother : other ∈ files) {message : String} (hdeclares : file.declares message = true)
    (hdeclares' : other.declares message = true) : file = other :=
  List.inj_on_of_nodup_map hnames hfile hother
    (h file hfile other hother message hdeclares hdeclares')

/-- A file declares a type, or sees the first of the files built before it that does. -/
def Resolves (built : List File) (file : File) (type : String) : Prop :=
  file.declares type = true ∨ ∃ owner, built.find? (·.declares type) = some owner ∧
    Sees built file.dependencies owner

theorem Pool.Indexed.resolvable_iff {pool : Pool} (hpool : pool.Indexed) {file : File}
    {type : String} :
    (pool.claim file).resolvable (pool.visible file.dependencies) file type = true ↔
      Resolves pool.files file type := by
  rw [resolvable, Resolves, Bool.or_eq_true]
  apply or_congr_right'
  intro hown
  -- The file has claimed nothing of this type, so that the owner is the one of the pool.
  rw [owners_claim, if_neg hown, Option.or_none, hpool.owner, Option.any_eq_true,
    List.find?_eq_bind_findIdx?_getElem?]
  simp only [List.contains_iff_mem, hpool.mem_visible_iff, Option.bind_eq_some_iff]
  constructor
  · rintro ⟨i, hfind, owner, howner, hsees⟩
    exact ⟨owner, ⟨i, hfind, howner⟩, hsees⟩
  · rintro ⟨owner, ⟨i, hfind, howner⟩, hsees⟩
    exact ⟨i, hfind, owner, howner, hsees⟩

theorem checkTypes_eq_ok_iff {built : List File} (hnames : (built.map (·.name)).Nodup)
    {file : File} :
    file.checkTypes built = .ok () ↔ ∀ use ∈ file.usedTypes, Resolves built file use.2.2 := by
  have hpool := Pool.indexed_ofFiles hnames 0
  rw [File.checkTypes, Pool.checkTypes_eq_ok_iff]
  simp only [hpool.resolvable_iff, Pool.files_ofFiles]

theorem resolves_iff {built : List File} (hnames : (built.map (·.name)).Nodup)
    (honce : DeclaredOnce built) {file : File} {type : String} :
    Resolves built file type ↔ Knows built file type := by
  apply or_congr_right
  constructor
  · rintro ⟨owner, hfind, hsees⟩
    have hdeclares := List.find?_some hfind
    exact ⟨owner, hsees, hdeclares⟩
  · rintro ⟨other, hsees, hdeclares⟩
    -- The file that is seen is the only one that declares the type, hence the first.
    refine ⟨other, find?_of_unique hsees.mem hdeclares ?_, hsees⟩
    intro first hfirst hdeclares'
    exact honce.eq hnames hfirst hsees.mem hdeclares' hdeclares

def TypesKnown (files : List File) (file : File) : Prop :=
  ∀ use ∈ file.usedTypes, Knows files file use.2.2

theorem names_nodup_before {files before after : List File}
    (hnames : (files.map (·.name)).Nodup) (h : buildOrder files = before ++ after) :
    (before.map (·.name)).Nodup := by
  have hall := ((settled_perm files).map (·.name)).nodup_iff.mpr hnames
  rw [h, List.append_assoc, List.map_append] at hall
  exact (List.nodup_append.mp hall).1

theorem mem_of_mem_before {files before after : List File} {other : File}
    (h : buildOrder files = before ++ after) (hother : other ∈ before) : other ∈ files :=
  mem_of_mem_buildOrder (by rw [h]; exact List.mem_append_left _ hother)

/-- All that a file sees in the end is built when its turn comes. -/
theorem sees_before_iff {files before after : List File} {file : File}
    (hnames : (files.map (·.name)).Nodup) (h : buildOrder files = before ++ file :: after)
    {other : File} : Sees before file.dependencies other ↔ Sees files file.dependencies other := by
  have hfirst := buildOrder_importsFirst files
  rw [h] at hfirst
  exact hfirst.of_append.sees_iff hnames (fun _ => mem_of_mem_before h)
    (ready_iff.mp (hfirst before file after rfl))

theorem checkTypes_before_iff {files before after : List File} {file : File}
    (hnames : (files.map (·.name)).Nodup) (honce : DeclaredOnce files)
    (h : buildOrder files = before ++ file :: after) :
    file.checkTypes before = .ok () ↔ TypesKnown files file := by
  have hbefore := names_nodup_before hnames h
  have honce' : DeclaredOnce before := honce.mono fun _ => mem_of_mem_before h
  rw [checkTypes_eq_ok_iff hbefore]
  simp only [resolves_iff hbefore honce', TypesKnown, Knows, sees_before_iff hnames h]

/-- Whether a file fails the check does not depend on when its turn comes. -/
theorem failsCheck_iff {files : List File} (hnames : (files.map (·.name)).Nodup)
    (honce : DeclaredOnce files) {file : File} (hfile : file ∈ files) :
    FailsCheck files file ↔ Buildable files file.name ∧ ¬TypesKnown files file := by
  constructor
  · intro h
    obtain ⟨before, after, heq, hfail⟩ := failsCheck_iff_checkTypes.mp h
    rw [ne_eq, checkTypes_before_iff hnames honce heq] at hfail
    exact ⟨h.buildable, hfail⟩
  · rintro ⟨hbuild, hunknown⟩
    obtain ⟨before, after, heq⟩ := List.append_of_mem ((mem_buildOrder_iff hnames hfile).mpr hbuild)
    refine failsCheck_iff_checkTypes.mpr ⟨before, after, heq, ?_⟩
    rwa [ne_eq, checkTypes_before_iff hnames honce heq]

end PipelinePlan.Schema
