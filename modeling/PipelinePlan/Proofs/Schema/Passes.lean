import PipelinePlan.Proofs.Except
import PipelinePlan.Proofs.List
import PipelinePlan.Proofs.Schema.Shadowing

namespace PipelinePlan.Schema

theorem sweep_append (built first second : List File) :
    sweep built (first ++ second) =
      ((sweep built first).1 ++ (sweep (built ++ (sweep built first).1) second).1,
        (sweep built first).2 ++ (sweep (built ++ (sweep built first).1) second).2) := by
  induction first generalizing built with
  | nil => simp [sweep]
  | cons file rest ih =>
    rw [List.cons_append, sweep, sweep, ih, ih]
    split <;> simp

/-- A pass leaves a file exactly if an import of it is missing when the pass comes to the file. -/
theorem mem_sweep_left_iff {built before rest : List File} {file : File}
    (h : (before ++ file :: rest).Nodup) :
    file ∈ (sweep built (before ++ file :: rest)).2 ↔
      file.ready (built ++ (sweep built before).1) = false := by
  obtain ⟨-, hcons, hapart⟩ := List.nodup_append.mp h
  have hbefore : file ∉ (sweep built before).2 := by
    intro hmem
    exact hapart file ((sweep_sublist _ _).mem hmem) file List.mem_cons_self rfl
  have hrest (built' : List File) : file ∉ (sweep built' rest).2 := by
    intro hmem
    exact (List.nodup_cons.mp hcons).1 ((sweep_sublist _ _).mem hmem)
  rw [sweep_append, List.mem_append, or_iff_right hbefore]
  cases hready : file.ready (built ++ (sweep built before).1) <;> simp [sweep, hready, hrest]

theorem sweep_of_importsFirst {built left : List File} (h : ImportsFirst (built ++ left)) :
    sweep built left = (left, []) := by
  induction left generalizing built with
  | nil => rfl
  | cons file rest ih =>
    have hready : file.ready built = true := h built file rest rfl
    rw [sweep, if_pos hready, ih (by simpa using h)]

/-- What holds wherever the building of files stands. -/
structure Progress.Of (files : List File) (p : Progress) : Prop where
  perm : (p.built ++ p.left).Perm files
  sublist : p.left.Sublist files
  importsFirst : ImportsFirst p.built

theorem Progress.Of.next {files : List File} {p : Progress} (h : p.Of files) : p.next.Of files where
  perm := by
    refine .trans ?_ h.perm
    rw [Progress.next, List.append_assoc]
    exact (sweep_perm p.built p.left).append_left p.built
  sublist := (sweep_sublist p.built p.left).trans h.sublist
  importsFirst := h.importsFirst.sweep p.left

def afterPasses (files : List File) (n : Nat) : Progress := Progress.next^[n] ⟨[], files, 0⟩

theorem afterPasses_succ (files : List File) (n : Nat) :
    afterPasses files (n + 1) = (afterPasses files n).next :=
  Function.iterate_succ_apply' _ _ _

theorem afterPasses_of (files : List File) (n : Nat) : (afterPasses files n).Of files := by
  induction n with
  | zero => exact ⟨.refl _, .refl _, importsFirst_nil⟩
  | succ n ih =>
    rw [afterPasses_succ]
    exact ih.next

theorem passes_afterPasses (files : List File) (n : Nat) : (afterPasses files n).passes = n := by
  induction n with
  | zero => rfl
  | succ n ih => rw [afterPasses_succ, Progress.next, ih]

section Present

variable {files : List File} (hnames : (files.map (·.name)).Nodup)
include hnames

theorem Progress.Of.mem_left_iff {p : Progress} (h : p.Of files) {file : File}
    (hfile : file ∈ files) : file ∈ p.left ↔ file ∉ p.built := by
  have hnodup : (p.built ++ p.left).Nodup := h.perm.nodup_iff.mpr hnames.of_map
  constructor
  · intro hleft hbuilt
    exact (List.nodup_append.mp hnodup).2.2 file hbuilt file hleft rfl
  · intro hbuilt
    exact (List.mem_append.mp (h.perm.mem_iff.mpr hfile)).resolve_left hbuilt

theorem ready_iff_of_present (hpresent : ImportsPresent files) {built : List File}
    (hbuilt : ∀ file ∈ built, file ∈ files) {file : File} (hfile : file ∈ files) :
    file.ready built = true ↔
      ∀ other ∈ files, other.name ∈ file.dependencies → other ∈ built := by
  rw [ready_iff]
  constructor
  · intro hready other hother hname
    obtain ⟨same, hsame, heq⟩ := hready other.name hname
    rwa [← List.inj_on_of_nodup_map hnames (hbuilt same hsame) hother heq]
  · intro hall name hname
    obtain ⟨other, hother, rfl⟩ := hpresent file hfile name hname
    exact ⟨other, hall other hother hname, rfl⟩

/-- What a pass has built when it comes to a file. -/
theorem Progress.Of.mem_sweep_before_iff {p : Progress} (h : p.Of files)
    {before rest : List File} {file other : File} (hleft : p.left = before ++ file :: rest) :
    other ∈ (sweep p.built before).1 ↔ other ∈ before ∧ other ∉ p.next.left := by
  have hsweep := sweep_append p.built before (file :: rest)
  rw [← hleft] at hsweep
  have hperm := (sweep_perm p.built before).mem_iff (a := other)
  rw [List.mem_append] at hperm
  constructor
  · intro hfresh
    have hbefore := hperm.mp (.inl hfresh)
    have hbuilt : other ∈ p.next.built := by
      simp only [Progress.next, hsweep, List.mem_append]
      exact .inr (.inl hfresh)
    have hother : other ∈ files := h.next.perm.mem_iff.mp (List.mem_append_left _ hbuilt)
    exact ⟨hbefore, fun hwaits => (h.next.mem_left_iff hnames hother).mp hwaits hbuilt⟩
  · rintro ⟨hbefore, hbuilt⟩
    refine (hperm.mpr hbefore).resolve_right fun hkept => hbuilt ?_
    simp only [Progress.next, hsweep, List.mem_append]
    exact .inl hkept

/-- What keeps a file that is left from being built in a pass: an import that was not built before
the pass and, if it is listed earlier than the file, is not built in the pass either. -/
theorem Progress.Of.mem_left_next_iff (hpresent : ImportsPresent files) {p : Progress}
    (h : p.Of files) {file : File} (hleft : file ∈ p.left) :
    file ∈ p.next.left ↔ ∃ other ∈ files, other.name ∈ file.dependencies ∧ other ∈ p.left ∧
      (files.idxOf other < files.idxOf file → other ∈ p.next.left) := by
  obtain ⟨before, rest, hsplit⟩ := List.append_of_mem hleft
  have hsub := h.sublist
  rw [hsplit] at hsub
  have hwaits : file ∈ p.next.left ↔
      file.ready (p.built ++ (sweep p.built before).1) = false := by
    rw [Progress.next, hsplit]
    exact mem_sweep_left_iff (hsub.nodup hnames.of_map)
  have hbuilt : ∀ other ∈ p.built ++ (sweep p.built before).1, other ∈ files := by
    intro other hother
    rcases List.mem_append.mp hother with hother | hother
    · exact h.perm.mem_iff.mp (List.mem_append_left _ hother)
    · have hbefore := ((h.mem_sweep_before_iff hnames hsplit).mp hother).1
      exact hsub.mem (List.mem_append_left _ hbefore)
  rw [hwaits, ← Bool.not_eq_true,
    ready_iff_of_present hnames hpresent hbuilt (h.sublist.mem hleft)]
  push Not
  apply exists_congr
  intro other
  apply and_congr_right
  intro hother
  apply and_congr_right
  intro _
  rw [List.mem_append, not_or, ← h.mem_left_iff hnames hother,
    h.mem_sweep_before_iff hnames hsplit]
  apply and_congr_right
  intro hmem
  rw [mem_before_iff hnames.of_map hsub (hsplit ▸ hmem), not_and, not_not]

/-- A file is left as long as an import of it is. -/
theorem Progress.Of.mem_left_of_import {p : Progress} (h : p.Of files) {file other : File}
    (hfile : file ∈ files) (hname : other.name ∈ file.dependencies) (hother : other ∈ p.left) :
    file ∈ p.left := by
  rw [h.mem_left_iff hnames hfile]
  intro hbuilt
  obtain ⟨same, hsame, heq⟩ := h.importsFirst.exists_import hbuilt hname
  have hmem : same ∈ files := h.perm.mem_iff.mp (List.mem_append_left _ hsame)
  obtain rfl := List.inj_on_of_nodup_map hnames hmem (h.sublist.mem hother) heq
  exact (h.mem_left_iff hnames hmem).mp hother hsame

end Present

/-- Imports lead on from a file over `n` links to files that are not listed earlier than the one
that imports them. Links to files listed earlier do not count. -/
inductive Waits (files : List File) : Nat → File → Prop
  | start {file : File} (hfile : file ∈ files) : Waits files 0 file
  | ahead {n : Nat} {file other : File} (h : Waits files n other) (hfile : file ∈ files)
      (hname : other.name ∈ file.dependencies)
      (hplace : files.idxOf file ≤ files.idxOf other) : Waits files (n + 1) file
  | along {n : Nat} {file other : File} (h : Waits files n other) (hfile : file ∈ files)
      (hname : other.name ∈ file.dependencies)
      (hplace : files.idxOf other < files.idxOf file) : Waits files n file

theorem Waits.mem {files : List File} {n : Nat} {file : File} (h : Waits files n file) :
    file ∈ files := by
  cases h with
  | start hfile => exact hfile
  | ahead _ hfile _ _ => exact hfile
  | along _ hfile _ _ => exact hfile

section Rounds

variable {files : List File} (hnames : (files.map (·.name)).Nodup)
  (hpresent : ImportsPresent files)
include hnames hpresent

theorem mem_left_succ_iff (n : Nat) {file : File} (hfile : file ∈ files) :
    file ∈ (afterPasses files (n + 1)).left ↔
      ∃ other ∈ files, other.name ∈ file.dependencies ∧ other ∈ (afterPasses files n).left ∧
        (files.idxOf other < files.idxOf file → other ∈ (afterPasses files (n + 1)).left) := by
  have hof := afterPasses_of files n
  rw [afterPasses_succ]
  by_cases hleft : file ∈ (afterPasses files n).left
  · exact hof.mem_left_next_iff hnames hpresent hleft
  · apply iff_of_false
    · intro hnext
      exact hleft ((sweep_sublist _ _).mem hnext)
    · rintro ⟨other, -, hname, hother, -⟩
      exact hleft (hof.mem_left_of_import hnames hfile hname hother)

theorem waits_of_mem_left {n : Nat} {file : File} (h : file ∈ (afterPasses files n).left) :
    Waits files n file := by
  induction n generalizing file with
  | zero => exact .start h
  | succ n ih =>
    -- An import that is listed earlier waits as long, so that the place in the list goes down.
    induction hplace : files.idxOf file using Nat.strong_induction_on generalizing file with
    | _ place ihplace =>
      subst hplace
      have hfile := (afterPasses_of files (n + 1)).sublist.mem h
      obtain ⟨other, -, hname, hleft, hlate⟩ := (mem_left_succ_iff hnames hpresent n hfile).mp h
      by_cases hlt : files.idxOf other < files.idxOf file
      · exact .along (ihplace _ hlt (hlate hlt) rfl) hfile hname hlt
      · exact .ahead (ih hleft) hfile hname (Nat.le_of_not_lt hlt)

theorem Waits.mem_left {n : Nat} {file : File} (h : Waits files n file) :
    file ∈ (afterPasses files n).left := by
  induction h with
  | start hfile => exact hfile
  | @ahead n file other h hfile hname hplace ih =>
    refine (mem_left_succ_iff hnames hpresent n hfile).mpr ⟨other, h.mem, hname, ih, ?_⟩
    intro hlt
    omega
  | @along n file other h hfile hname hplace ih =>
    cases n with
    | zero => exact hfile
    | succ n =>
      refine (mem_left_succ_iff hnames hpresent n hfile).mpr ⟨other, h.mem, hname, ?_, fun _ => ih⟩
      rw [afterPasses_succ] at ih
      exact (sweep_sublist _ _).mem ih

/-- The files that are left after `n` passes. -/
theorem mem_left_iff_waits {n : Nat} {file : File} :
    file ∈ (afterPasses files n).left ↔ Waits files n file :=
  ⟨waits_of_mem_left hnames hpresent, Waits.mem_left hnames hpresent⟩

end Rounds

/-- The passes up to the limit are passes one after the other, each with files left to look at. -/
theorem sweeps_eq_iterate (limit : Nat) (p : Progress) :
    ∃ n, sweeps limit p = Progress.next^[n] p ∧ ∀ i < n, (Progress.next^[i] p).left ≠ [] := by
  induction limit generalizing p with
  | zero => exact ⟨0, rfl, by simp⟩
  | succ limit ih =>
    rw [sweeps]
    split
    · exact ⟨0, rfl, by simp⟩
    · next hleft =>
      split
      · exact ⟨1, rfl, fun i hi => by rwa [Nat.lt_one_iff.mp hi]⟩
      · obtain ⟨n, hsweeps, hbefore⟩ := ih p.next
        refine ⟨n + 1, hsweeps, ?_⟩
        intro i hi
        cases i with
        | zero => exact hleft
        | succ i => exact hbefore i (by omega)

theorem settled_eq_afterPasses (files : List File) :
    settled files = afterPasses files (settled files).passes ∧
      ∀ n < (settled files).passes, (afterPasses files n).left ≠ [] := by
  obtain ⟨n, hsettled, hbefore⟩ := sweeps_eq_iterate (2 * files.length) ⟨[], files, 0⟩
  have hpasses : (settled files).passes = n := by
    rw [settled, hsettled]
    exact passes_afterPasses files n
  rw [hpasses]
  exact ⟨hsettled, hbefore⟩

theorem left_sublist_of_le (files : List File) {m n : Nat} (h : m ≤ n) :
    (afterPasses files n).left.Sublist (afterPasses files m).left := by
  induction n, h using Nat.le_induction with
  | base => exact .refl _
  | succ n _ ih =>
    rw [afterPasses_succ]
    exact (sweep_sublist _ _).trans ih

theorem settled_passes_le_iff {files : List File} (hleft : (settled files).left = []) (n : Nat) :
    (settled files).passes ≤ n ↔ (afterPasses files n).left = [] := by
  obtain ⟨heq, hbefore⟩ := settled_eq_afterPasses files
  constructor
  · intro hle
    have hsub := left_sublist_of_le files hle
    rw [← heq, hleft] at hsub
    exact List.sublist_nil.mp hsub
  · intro hnone
    by_contra hlt
    exact hbefore n (by omega) hnone

structure ImportChain (files chain : List File) : Prop where
  listed : ∀ file ∈ chain, file ∈ files
  linked : chain.IsChain fun file other => other.name ∈ file.dependencies

def LongestChain (files chain : List File) : Prop :=
  ImportChain files chain ∧ ∀ other, ImportChain files other → other.length ≤ chain.length

theorem ImportChain.cons {files chain : List File} {file other : File}
    (h : ImportChain files (other :: chain)) (hfile : file ∈ files)
    (hname : other.name ∈ file.dependencies) : ImportChain files (file :: other :: chain) :=
  ⟨List.forall_mem_cons.mpr ⟨hfile, h.listed⟩, h.linked.cons_cons hname⟩

theorem ImportChain.nodup {files chain : List File} (h : ImportChain files chain)
    (hacyclic : Acyclic files) : chain.Nodup := by
  have htrans : Trans (fun file other : File => Sees files file.dependencies other)
      (fun file other => Sees files file.dependencies other)
      (fun file other => Sees files file.dependencies other) := ⟨Sees.trans⟩
  have hsees : chain.IsChain fun file other => Sees files file.dependencies other :=
    h.linked.imp_of_mem_imp fun _ other _ hother hname => .direct (h.listed other hother) hname
  refine (List.isChain_iff_pairwise.mp hsees).imp_of_mem ?_
  rintro file other hfile - hback rfl
  exact hacyclic file (h.listed file hfile) hback

theorem ImportChain.length_le {files chain : List File} (h : ImportChain files chain)
    (hacyclic : Acyclic files) : chain.length ≤ files.length :=
  ((h.nodup hacyclic).subperm h.listed).length_le

theorem Acyclic.exists_longestChain {files : List File} (h : Acyclic files) :
    ∃ chain, LongestChain files chain := by
  obtain ⟨chain, hchain, hleast⟩ := (measure fun chain : List File =>
    files.length - chain.length).wf.has_min {chain | ImportChain files chain}
      ⟨[], by simp, .nil⟩
  refine ⟨chain, hchain, ?_⟩
  intro other hother
  have hle := hother.length_le h
  have hnot : ¬files.length - other.length < files.length - chain.length := hleast other hother
  omega

/-- A file that waits for `n` passes begins a chain with `n` files after it. -/
theorem Waits.exists_chain {files : List File} {n : Nat} {file : File} (h : Waits files n file) :
    ∃ chain, ImportChain files (file :: chain) ∧ n ≤ chain.length := by
  induction h with
  | @start file hfile => exact ⟨[], ⟨by simpa using hfile, .singleton file⟩, Nat.le_refl 0⟩
  | @ahead n file other _ hfile hname _ ih =>
    obtain ⟨chain, hchain, hlength⟩ := ih
    exact ⟨other :: chain, hchain.cons hfile hname, by rw [List.length_cons]; omega⟩
  | @along n file other _ hfile hname _ ih =>
    obtain ⟨chain, hchain, hlength⟩ := ih
    exact ⟨other :: chain, hchain.cons hfile hname, by rw [List.length_cons]; omega⟩

/-- Every file of a set is listed after all files that it imports. -/
def ListsImportsFirst (descriptors : List FileDescriptor) : Prop :=
  ∀ i, ∀ hi : i < descriptors.length, ∀ name ∈ descriptors[i].dependencies,
    ∃ other ∈ descriptors.take i, other.file.name = name

instance : DecidablePred ListsImportsFirst := fun descriptors => inferInstanceAs
  (Decidable (∀ i, ∀ hi : i < descriptors.length, ∀ name ∈ descriptors[i].dependencies,
    ∃ other ∈ descriptors.take i, other.file.name = name))

theorem ListsImportsFirst.importsFirst {descriptors : List FileDescriptor}
    (h : ListsImportsFirst descriptors) : ImportsFirst (filesOf descriptors) := by
  intro before file after heq
  obtain ⟨first, rest, rfl, rfl, hrest⟩ := List.map_eq_append_iff.mp heq
  obtain ⟨d, last, rfl, rfl, rfl⟩ := List.map_eq_cons_iff.mp hrest
  rw [ready_iff]
  intro name hname
  obtain ⟨other, hother, hsame⟩ :=
    h first.length (by simp) name (by simpa [FileDescriptor.file] using hname)
  rw [List.take_left] at hother
  exact ⟨other.file, List.mem_map_of_mem hother, hsame⟩

theorem afterPasses_one {files : List File} (h : ImportsFirst files) :
    afterPasses files 1 = ⟨files, [], 1⟩ := by
  have hsweep : sweep [] files = (files, []) := sweep_of_importsFirst (by simpa using h)
  rw [afterPasses_succ, Progress.next]
  simp [afterPasses, hsweep]

section Built

variable {descriptors : List FileDescriptor} {pool : Pool}
  (h : Pool.build descriptors = .ok pool)
include h

theorem passes_eq_settled : pool.passes = (settled (filesOf descriptors)).passes ∧
    (settled (filesOf descriptors)).left = [] := by
  obtain ⟨hnamed, -, hall, rfl⟩ := build_ok_inv h
  exact ⟨Progress.passes_pool _, (left_eq_nil_iff hnamed.names_nodup).mpr hall⟩

theorem passes_le_iff_left (n : Nat) :
    pool.passes ≤ n ↔ (afterPasses (filesOf descriptors) n).left = [] := by
  obtain ⟨hpasses, hleft⟩ := passes_eq_settled h
  rw [hpasses, settled_passes_le_iff hleft]

theorem files_eq_afterPasses :
    pool.files = (afterPasses (filesOf descriptors) pool.passes).built := by
  rw [build_files_eq h, (passes_eq_settled h).1, buildOrder]
  exact congrArg Progress.built (settled_eq_afterPasses _).1

theorem lt_passes_iff (n : Nat) :
    n < pool.passes ↔ ∃ file, Waits (filesOf descriptors) n file := by
  obtain ⟨hnamed, -, hall, -⟩ := build_ok_inv h
  have hpresent := ((forall_buildable_iff hnamed.names_nodup).mp hall).1
  rw [← Nat.not_le, passes_le_iff_left h, List.eq_nil_iff_forall_not_mem]
  push Not
  simp only [mem_left_iff_waits hnamed.names_nodup hpresent]

end Built

/-- A built pool has taken no more passes than there are files on a longest chain of imports. Where
every file is listed after its imports, one pass has built the files in the order of the list. In
all cases there are more than `n` passes exactly if a file waits for `n`. -/
theorem passes_le_longest_chain {descriptors : List FileDescriptor} {pool : Pool}
    (h : Pool.build descriptors = .ok pool) :
    (∃ chain, LongestChain (filesOf descriptors) chain) ∧
    (∀ chain, LongestChain (filesOf descriptors) chain →
      chain.Nodup ∧ pool.passes ≤ chain.length) ∧
    (descriptors ≠ [] → ListsImportsFirst descriptors →
      pool.passes = 1 ∧ pool.files = filesOf descriptors) ∧
    ∀ n, n < pool.passes ↔ ∃ file, Waits (filesOf descriptors) n file := by
  obtain ⟨hnamed, -, hall, -⟩ := build_ok_inv h
  have hacyclic := ((forall_buildable_iff hnamed.names_nodup).mp hall).2
  refine ⟨hacyclic.exists_longestChain, ?_, ?_, lt_passes_iff h⟩
  · rintro chain ⟨hchain, hlongest⟩
    refine ⟨hchain.nodup hacyclic, ?_⟩
    by_contra hlt
    obtain ⟨file, hwaits⟩ := (lt_passes_iff h chain.length).mp (Nat.lt_of_not_le hlt)
    obtain ⟨rest, hlonger, hlength⟩ := hwaits.exists_chain
    have hle := hlongest _ hlonger
    rw [List.length_cons] at hle
    omega
  · intro hne hfirst
    have hone := afterPasses_one hfirst.importsFirst
    have hle : pool.passes ≤ 1 := (passes_le_iff_left h 1).mpr (by rw [hone])
    have hpos : ¬pool.passes ≤ 0 := by
      rw [passes_le_iff_left h 0]
      simpa [afterPasses, filesOf] using hne
    have hpasses : pool.passes = 1 := by omega
    refine ⟨hpasses, ?_⟩
    rw [files_eq_afterPasses h, hpasses, hone]

def tower : List FileDescriptor := [
  { name := some "a" },
  { name := some "b", dependencies := ["a"] },
  { name := some "c", dependencies := ["b"] }]

theorem tower_passes :
    (∃ pool, Pool.build tower.reverse = .ok pool ∧ pool.passes = 3 ∧
      ∃ chain, LongestChain (filesOf tower.reverse) chain ∧ 3 ≤ chain.length) ∧
    ∃ pool, Pool.build tower = .ok pool ∧ ListsImportsFirst tower ∧ pool.passes = 1 ∧
      pool.files = filesOf tower := by
  have hfacts : (Pool.build tower.reverse).toOption.map (·.passes) = some 3 ∧
      (Pool.build tower).toOption.isSome = true ∧ ListsImportsFirst tower := by
    decide +kernel
  obtain ⟨hreverse, htower, hfirst⟩ := hfacts
  obtain ⟨pool, hpool, hthree⟩ := Option.map_eq_some_iff.mp hreverse
  obtain ⟨pool', hpool'⟩ := Option.isSome_iff_exists.mp htower
  rw [toOption_eq_some_iff] at hpool hpool'
  obtain ⟨⟨chain, hchain⟩, hbound, -, -⟩ := passes_le_longest_chain hpool
  obtain ⟨-, -, hone, -⟩ := passes_le_longest_chain hpool'
  refine ⟨⟨pool, hpool, hthree, chain, hchain, ?_⟩, pool', hpool', hfirst, hone (by decide) hfirst⟩
  rw [← hthree]
  exact (hbound chain hchain).2

end PipelinePlan.Schema
