import PipelinePlan.Proofs.Except
import PipelinePlan.Proofs.Schema.Visibility

namespace PipelinePlan.Schema

/-- Where the search for visible files stands: the positions that it has seen, and the ones that
wait. -/
structure Search where
  seen : List Nat
  waiting : List Nat

def Search.start (pool : Pool) (imports : List String) : Search :=
  ⟨[], pool.positionsOf imports⟩

/-- One turn of a search takes off any position that waits. If it is new, it is seen from then on,
and the positions of its imports wait too. -/
inductive Turn (pool : Pool) : Search → Search → Prop
  | again {seen waiting rest : List Nat} {i : Nat} (htake : waiting.Perm (i :: rest))
      (hseen : i ∈ seen) : Turn pool ⟨seen, waiting⟩ ⟨seen, rest⟩
  | fresh {seen waiting rest : List Nat} {i : Nat} {file : File}
      (htake : waiting.Perm (i :: rest)) (hseen : i ∉ seen) (hfile : pool.files[i]? = some file) :
      Turn pool ⟨seen, waiting⟩ ⟨i :: seen, pool.positionsOf file.dependencies ++ rest⟩

inductive Run (pool : Pool) : Nat → Search → Search → Prop
  | stop (s : Search) : Run pool 0 s s
  | turn {n : Nat} {s t u : Search} (hturn : Turn pool s t) (hrun : Run pool n t u) :
      Run pool (n + 1) s u

def fan (pool : Pool) (i : Nat) : Nat :=
  (pool.positionsOf ((pool.files[i]?.map File.dependencies).getD [])).length

/-- What waits, and what files that are not seen can still add to it. -/
def Search.cost (pool : Pool) (s : Search) : Nat :=
  s.waiting.length + ((unseen pool.files.length s.seen).map (fan pool)).sum

theorem unseen_perm {size i : Nat} {seen : List Nat} (hi : i < size) (hseen : i ∉ seen) :
    (unseen size seen).Perm (i :: unseen size (i :: seen)) := by
  have hmem : i ∈ unseen size seen := by simp [unseen, hi, hseen]
  have herase : (unseen size seen).erase i = unseen size (i :: seen) := by
    have hnodup : (unseen size seen).Nodup := List.nodup_range.filter _
    rw [hnodup.erase_eq_filter, unseen, unseen, List.filter_filter]
    apply List.filter_congr
    intro j _
    by_cases hj : j = i <;> simp [hj]
  rw [← herase]
  exact List.perm_cons_erase hmem

/-- Every turn costs one. -/
theorem Turn.cost_eq {pool : Pool} {s t : Search} (h : Turn pool s t) :
    s.cost pool = t.cost pool + 1 := by
  cases h with
  | again htake hseen =>
    simp only [Search.cost, htake.length_eq, List.length_cons]
    omega
  | @fresh seen waiting rest i file htake hseen hfile =>
    have hi : i < pool.files.length := (List.getElem?_eq_some_iff.mp hfile).1
    have hsum := ((unseen_perm hi hseen).map (fan pool)).sum_eq
    have hfan : fan pool i = (pool.positionsOf file.dependencies).length := by
      simp [fan, hfile]
    simp only [Search.cost, htake.length_eq, hsum, hfan, List.length_cons, List.length_append,
      List.map_cons, List.sum_cons]
    omega

theorem Run.cost_eq {pool : Pool} {n : Nat} {s t : Search} (h : Run pool n s t) :
    s.cost pool = t.cost pool + n := by
  induction h with
  | stop s => rfl
  | turn hturn _ ih =>
    rw [hturn.cost_eq, ih]
    omega

theorem length_positionsOf_le (pool : Pool) (names : List String) :
    (pool.positionsOf names).length ≤ names.length :=
  List.length_filterMap_le _ _

theorem cost_start_le (pool : Pool) (imports : List String) :
    (Search.start pool imports).cost pool ≤
      imports.length + (pool.files.map (·.dependencies.length)).sum := by
  have hunseen : unseen pool.files.length [] = List.range pool.files.length := by simp [unseen]
  have hrange : (List.range pool.files.length).map (fun i =>
      ((pool.files[i]?.map File.dependencies).getD []).length) =
        pool.files.map (·.dependencies.length) := by
    apply List.ext_getElem
    · simp
    · intro i hi hi'
      simp at hi'
      simp [hi']
  rw [Search.cost, Search.start, hunseen, ← hrange]
  exact Nat.add_le_add (length_positionsOf_le _ _)
    (List.sum_le_sum fun i _ => length_positionsOf_le _ _)

/-- What holds at every point of a search. -/
structure Search.For (pool : Pool) (imports : List String) (s : Search) : Prop where
  nodup : s.seen.Nodup
  begun : ∀ i ∈ pool.positionsOf imports, i ∈ s.seen ∨ i ∈ s.waiting
  followed : Followed pool s.seen s.waiting
  sound : ∀ i, i ∈ s.seen ∨ i ∈ s.waiting →
    ∃ file, pool.files[i]? = some file ∧ Sees pool.files imports file

section Turns

variable {pool : Pool} {imports : List String} {seen waiting rest : List Nat} {i : Nat}

theorem Search.For.perm (h : For pool imports ⟨seen, waiting⟩) (hperm : waiting.Perm rest) :
    For pool imports ⟨seen, rest⟩ where
  nodup := h.nodup
  begun := by simpa only [hperm.mem_iff] using h.begun
  followed := by simpa only [Followed, hperm.mem_iff] using h.followed
  sound := by simpa only [hperm.mem_iff] using h.sound

theorem Search.For.drop (h : For pool imports ⟨seen, i :: rest⟩) (hseen : i ∈ seen) :
    For pool imports ⟨seen, rest⟩ where
  nodup := h.nodup
  begun k hk := by
    rcases h.begun k hk with hk | hk
    · exact .inl hk
    · rcases List.mem_cons.mp hk with rfl | hk
      · exact .inl hseen
      · exact .inr hk
  followed := h.followed.tail hseen
  sound k hk := h.sound k (hk.imp_right (List.mem_cons_of_mem i))

theorem Search.For.follow (hpool : pool.Indexed)
    (h : For pool imports ⟨seen, i :: rest⟩) (hseen : i ∉ seen) {file : File}
    (hfile : pool.files[i]? = some file) :
    For pool imports ⟨i :: seen, pool.positionsOf file.dependencies ++ rest⟩ where
  nodup := h.nodup.cons hseen
  begun k hk := by
    rcases h.begun k hk with hk | hk
    · exact .inl (List.mem_cons_of_mem i hk)
    · rcases List.mem_cons.mp hk with rfl | hk
      · exact .inl List.mem_cons_self
      · exact .inr (List.mem_append_right _ hk)
  followed := by
    obtain ⟨hi, rfl⟩ := List.getElem?_eq_some_iff.mp hfile
    exact h.followed.cons hi
  sound k hk := by
    have hi : ∃ file, pool.files[i]? = some file ∧ Sees pool.files imports file :=
      h.sound i (.inr List.mem_cons_self)
    rcases hk with hk | hk
    · rcases List.mem_cons.mp hk with rfl | hk
      · exact hi
      · exact h.sound k (.inl hk)
    · rcases List.mem_append.mp hk with hk | hk
      · -- The position is that of an import of the file that is followed now.
        obtain ⟨other, hother, hname⟩ := hpool.mem_positionsOf.mp hk
        obtain ⟨same, hsame, hsees⟩ := hi
        obtain rfl := Option.some.inj (hfile.symm.trans hsame)
        exact ⟨other, hother, .through hsees (List.mem_of_getElem? hother) hname⟩
      · exact h.sound k (.inr (List.mem_cons_of_mem i hk))

/-- A search with something waiting goes on. -/
theorem Search.For.exists_turn {s : Search} (h : s.For pool imports) (hwaits : s.waiting ≠ []) :
    ∃ t, Turn pool s t := by
  obtain ⟨i, rest, hwaiting⟩ := List.exists_cons_of_ne_nil hwaits
  have htake : s.waiting.Perm (i :: rest) := .of_eq hwaiting
  by_cases hseen : i ∈ s.seen
  · exact ⟨_, .again htake hseen⟩
  · obtain ⟨file, hfile, -⟩ := h.sound i (.inr (htake.mem_iff.mpr List.mem_cons_self))
    exact ⟨_, .fresh htake hseen hfile⟩

end Turns

section Tables

variable {pool : Pool} (hpool : pool.Indexed) {imports : List String}
include hpool

theorem Search.for_start : (start pool imports).For pool imports where
  nodup := .nil
  begun _ hi := .inr hi
  followed _ hi := by cases hi
  sound i hi := by
    obtain ⟨file, hfile, hname⟩ :=
      hpool.mem_positionsOf.mp (hi.resolve_left List.not_mem_nil)
    exact ⟨file, hfile, .direct (List.mem_of_getElem? hfile) hname⟩

theorem Turn.for_next {s t : Search} (h : Turn pool s t) (hs : s.For pool imports) :
    t.For pool imports := by
  cases h with
  | again htake hseen => exact (hs.perm htake).drop hseen
  | fresh htake hseen hfile => exact (hs.perm htake).follow hpool hseen hfile

theorem Run.for_end {n : Nat} {s t : Search} (h : Run pool n s t) (hs : s.For pool imports) :
    t.For pool imports := by
  induction h with
  | stop s => exact hs
  | turn hturn _ ih => exact ih (hturn.for_next hpool hs)

/-- A search with nothing waiting has seen all that imports lead to, and nothing else. -/
theorem Search.For.mem_seen_iff {s : Search} (h : s.For pool imports) (hwaits : s.waiting = [])
    {i : Nat} : i ∈ s.seen ↔ ∃ file, pool.files[i]? = some file ∧ Sees pool.files imports file := by
  constructor
  · intro hi
    exact h.sound i (.inl hi)
  · rintro ⟨file, hfile, hsees⟩
    have hnot (j : Nat) : j ∉ s.waiting := by simp [hwaits]
    induction hsees generalizing i with
    | direct _ hname =>
      exact (h.begun i (hpool.mem_positionsOf.mpr ⟨_, hfile, hname⟩)).resolve_right (hnot i)
    | @through file other hsees _ hname ih =>
      obtain ⟨k, hk⟩ := List.mem_iff_getElem?.mp hsees.mem
      have hi := hpool.mem_positionsOf.mpr ⟨other, hfile, hname⟩
      exact (h.followed k (ih hk) file hk i hi).resolve_right (hnot i)

end Tables

/-- What is computed is where a run of the search ends. -/
theorem exists_run_reach {pool : Pool} (hpool : pool.Indexed) (seen : List Nat)
    {stack : List Nat} (h : ∀ i ∈ stack, i < pool.files.length) :
    ∃ n, Run pool n ⟨seen, stack⟩ ⟨pool.reach seen stack, []⟩ := by
  fun_induction pool.reach seen stack with
  | case1 seen => exact ⟨0, .stop _⟩
  | case2 seen i rest hi hseen ih =>
    obtain ⟨n, hrun⟩ := ih fun k hk => h k (List.mem_cons_of_mem _ hk)
    exact ⟨n + 1, .turn (.again (.refl _) (List.contains_iff_mem.mp hseen)) hrun⟩
  | case3 seen i rest hi hseen ih =>
    obtain ⟨n, hrun⟩ := ih fun k hk => (List.mem_append.mp hk).elim hpool.lt_of_mem_positionsOf
      fun hk => h k (List.mem_cons_of_mem _ hk)
    refine ⟨n + 1, .turn (.fresh (.refl _) ?_ (List.getElem?_eq_getElem hi)) hrun⟩
    rwa [← List.contains_iff_mem]
  | case4 seen i rest hi ih => exact absurd (h i List.mem_cons_self) hi

/-- The points that the building of a set can come to: the pool so far, the files that the pass has
left for the next one, and the ones that it has not come to. -/
inductive Building (descriptors : List FileDescriptor) : Pool → List File → List File → Prop
  | start {files : List File} (h : filesFrom 0 [] descriptors = .ok files) :
      Building descriptors {} files []
  | again {pool : Pool} {kept : List File} (h : Building descriptors pool kept []) :
      Building descriptors { pool with passes := pool.passes + 1 } [] kept
  | build {pool pool' : Pool} {kept ahead : List File} {file : File}
      (h : Building descriptors pool kept (file :: ahead)) (hready : pool.ready file = true)
      (hinsert : pool.insert file = .ok pool') : Building descriptors pool' kept ahead
  | keep {pool : Pool} {kept ahead : List File} {file : File}
      (h : Building descriptors pool kept (file :: ahead)) (hready : pool.ready file = false) :
      Building descriptors pool (kept ++ [file]) ahead

theorem Pool.eq_enter_of_insert {pool pool' : Pool} {file : File}
    (h : pool.insert file = .ok pool') : pool' = pool.enter file := by
  rw [insert_eq] at h
  generalize (pool.claim file).checkTypes (pool.visible file.dependencies) file = checked at h
  cases checked with
  | error e => cases h
  | ok u => exact (Except.ok.inj h).symm

theorem Building.perm {descriptors : List FileDescriptor} {pool : Pool} {kept ahead : List File}
    (h : Building descriptors pool kept ahead) :
    WellNamed descriptors ∧ (pool.files ++ (kept ++ ahead)).Perm (filesOf descriptors) := by
  induction h with
  | start h =>
    obtain ⟨rfl, hnamed, -⟩ := filesFrom_eq_ok_iff.mp h
    exact ⟨hnamed, by simp [filesOf]⟩
  | again _ ih => simpa using ih
  | @build pool pool' kept ahead file _ _ hinsert ih =>
    obtain rfl := Pool.eq_enter_of_insert hinsert
    refine ⟨ih.1, .trans ?_ ih.2⟩
    rw [Pool.files_enter, List.append_assoc, List.singleton_append]
    exact List.perm_middle.symm.append_left pool.files
  | @keep pool kept ahead file _ _ ih => simpa using ih

/-- The tables agree with the files at every point of the building. -/
theorem Building.indexed {descriptors : List FileDescriptor} {pool : Pool}
    {kept ahead : List File} (h : Building descriptors pool kept ahead) : pool.Indexed := by
  induction h with
  | start _ => exact Pool.indexed_empty 0
  | again _ ih => exact ⟨ih.names_nodup, ih.position, ih.owner⟩
  | @build pool pool' kept ahead file hbuilding _ hinsert ih =>
    obtain rfl := Pool.eq_enter_of_insert hinsert
    -- The name of the file is not yet there, since all files of the set have names of their own.
    obtain ⟨hnamed, hperm⟩ := hbuilding.perm
    have hall := (hperm.map (·.name)).nodup_iff.mpr hnamed.names_nodup
    rw [List.map_append, List.nodup_append] at hall
    apply ih.enter
    intro hmem
    exact hall.2.2 file.name hmem file.name (by simp) rfl
  | keep _ _ ih => exact ih

section Built

variable {descriptors : List FileDescriptor}

theorem Building.pass {pool pool' : Pool} {kept left left' : List File}
    (h : Building descriptors pool kept left) (hpass : pool.pass left = .ok (pool', left')) :
    Building descriptors pool' (kept ++ left') [] := by
  induction left generalizing pool kept left' with
  | nil =>
    obtain ⟨rfl, rfl⟩ := Prod.mk.inj (Except.ok.inj hpass)
    simpa using h
  | cons file rest ih =>
    rw [Pool.pass] at hpass
    split at hpass
    · next hready =>
      obtain ⟨next, hinsert, hrest⟩ := bind_eq_ok_iff.mp hpass
      exact ih (h.build hready hinsert) hrest
    · next hready =>
      obtain ⟨⟨next, left''⟩, hrest, heq⟩ := bind_eq_ok_iff.mp hpass
      obtain ⟨rfl, rfl⟩ := Prod.mk.inj (Except.ok.inj heq)
      have hnext := ih (h.keep (by simpa using hready)) hrest
      rwa [List.append_assoc] at hnext

theorem Building.settle {limit : Nat} {pool pool' : Pool} {left left' : List File}
    (h : Building descriptors pool left [])
    (hsettle : Pool.settle limit pool left = .ok (pool', left')) :
    Building descriptors pool' left' [] := by
  induction limit generalizing pool left with
  | zero =>
    obtain ⟨rfl, rfl⟩ := Prod.mk.inj (Except.ok.inj hsettle)
    exact h
  | succ limit ih =>
    rw [Pool.settle] at hsettle
    split at hsettle
    · obtain ⟨rfl, rfl⟩ := Prod.mk.inj (Except.ok.inj hsettle)
      exact h
    · obtain ⟨⟨next, rest⟩, hpass, hnext⟩ := bind_eq_ok_iff.mp hsettle
      have hbuilding : Building descriptors next rest [] := h.again.pass hpass
      dsimp only at hnext
      split at hnext
      · obtain ⟨rfl, rfl⟩ := Prod.mk.inj (Except.ok.inj hnext)
        exact hbuilding
      · exact ih hbuilding hnext

theorem building_of_build {pool : Pool} (h : Pool.build descriptors = .ok pool) :
    Building descriptors pool [] [] := by
  obtain ⟨files, hfiles, hbuild⟩ := bind_eq_ok_iff.mp h
  obtain ⟨⟨last, left⟩, hsettle, hend⟩ := bind_eq_ok_iff.mp hbuild
  have hbuilding := (Building.start hfiles).settle hsettle
  dsimp only at hend
  split at hend
  · next hleft =>
    obtain rfl := Except.ok.inj hend
    rwa [List.isEmpty_iff.mp hleft] at hbuilding
  · cases hend

end Built

/-- At every point of the building of a pool, the search for what imports make visible ends, in
whatever order the waiting positions are taken: no run of it is longer than the imports in the list
and in the files built so far, and each goes on until nothing waits. It has then seen exactly the
positions of the files that the imports lead to, each once. What is computed is where one of these
runs ends. -/
theorem search_sees_reachable {descriptors : List FileDescriptor} {pool : Pool}
    {kept ahead : List File} (h : Building descriptors pool kept ahead) (imports : List String) :
    (∀ n s, Run pool n (.start pool imports) s →
      n ≤ imports.length + (pool.files.map (·.dependencies.length)).sum ∧
      (s.waiting ≠ [] → ∃ t, Turn pool s t) ∧
      (s.waiting = [] → s.seen.Nodup ∧ ∀ i, i ∈ s.seen ↔
        ∃ file, pool.files[i]? = some file ∧ Sees pool.files imports file)) ∧
    (∃ n, Run pool n (.start pool imports) ⟨pool.visible imports, []⟩) ∧
    (pool.visible imports).Nodup ∧
    ∀ i, i ∈ pool.visible imports ↔
      ∃ file, pool.files[i]? = some file ∧ Sees pool.files imports file := by
  have hpool := h.indexed
  have hruns : ∀ n s, Run pool n (.start pool imports) s →
      n ≤ imports.length + (pool.files.map (·.dependencies.length)).sum ∧
      (s.waiting ≠ [] → ∃ t, Turn pool s t) ∧
      (s.waiting = [] → s.seen.Nodup ∧ ∀ i, i ∈ s.seen ↔
        ∃ file, pool.files[i]? = some file ∧ Sees pool.files imports file) := by
    intro n s hrun
    have hfor := hrun.for_end hpool (Search.for_start hpool)
    have hcost := hrun.cost_eq
    have hbound := cost_start_le pool imports
    exact ⟨by omega, hfor.exists_turn, fun hwaits =>
      ⟨hfor.nodup, fun i => hfor.mem_seen_iff hpool hwaits⟩⟩
  have hplaces : ∀ i ∈ pool.positionsOf imports, i < pool.files.length :=
    fun i hi => hpool.lt_of_mem_positionsOf hi
  obtain ⟨n, hrun⟩ := exists_run_reach hpool [] hplaces
  exact ⟨hruns, ⟨n, hrun⟩, (hruns n _ hrun).2.2 rfl⟩

def diamond : List FileDescriptor := [
  { name := some "a" },
  { name := some "b", dependencies := ["a"] },
  { name := some "c", dependencies := ["a"] },
  { name := some "d", dependencies := ["b", "c"] }]

theorem diamond_searched : ∃ pool, pool.files = filesOf diamond ∧ Building diamond pool [] [] ∧
    (∃ n ≤ 5, Run pool n (.start pool ["d"]) ⟨pool.visible ["d"], []⟩) ∧
    0 ∈ pool.visible ["d"] := by
  have hbuilt : (Pool.build diamond).toOption.map (·.files) = some (filesOf diamond) := by
    decide +kernel
  obtain ⟨pool, hpool, hfiles⟩ := Option.map_eq_some_iff.mp hbuilt
  have hbuilding := building_of_build (toOption_eq_some_iff.mp hpool)
  obtain ⟨hruns, ⟨n, hrun⟩, -, hvisible⟩ := search_sees_reachable hbuilding ["d"]
  have hlength := (hruns n _ hrun).1
  rw [hfiles] at hvisible hlength
  refine ⟨pool, hfiles, hbuilding, ⟨n, hlength, hrun⟩, (hvisible 0).mpr ⟨_, rfl, ?_⟩⟩
  have htop : Sees (filesOf diamond) ["d"]
      (FileDescriptor.file { name := some "d", dependencies := ["b", "c"] }) :=
    .direct (by simp [filesOf, diamond]) (by simp [FileDescriptor.file])
  have hside : Sees (filesOf diamond) ["d"]
      (FileDescriptor.file { name := some "b", dependencies := ["a"] }) :=
    htop.through (by simp [filesOf, diamond]) (by simp [FileDescriptor.file])
  exact hside.through List.mem_cons_self (by simp [FileDescriptor.file])

end PipelinePlan.Schema
