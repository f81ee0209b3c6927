import PipelinePlan.Proofs.Table
import PipelinePlan.Schema.Pool

namespace PipelinePlan.Schema

namespace Pool

/-- A pool with one more file, whatever types the file uses. -/
def enter (pool : Pool) (file : File) : Pool := (pool.claim file).append file

@[simp] theorem files_enter (pool : Pool) (file : File) :
    (pool.enter file).files = pool.files ++ [file] := rfl

/-- The tables of a pool agree with its files: each name leads to the file that has it, and each
message to the first file that declares it. -/
structure Indexed (pool : Pool) : Prop where
  names_nodup : (pool.files.map (·.name)).Nodup
  position : ∀ name, pool.positions.find? name = pool.files.findIdx? (·.name == name)
  owner : ∀ message, pool.owners.find? message = pool.files.findIdx? (·.declares message)

theorem owners_claim (pool : Pool) (file : File) (message : String) :
    (pool.claim file).owners.find? message = (pool.owners.find? message).or
      (if file.declares message then some pool.files.length else none) :=
  Table.find?_foldl_insertNew _ _ _ _

theorem indexed_empty (passes : Nat) : Indexed { passes } where
  names_nodup := .nil
  position _ := rfl
  owner _ := rfl

/-- One step of the building keeps the tables in agreement with the files. -/
theorem Indexed.enter {pool : Pool} (h : pool.Indexed) {file : File}
    (hnew : file.name ∉ pool.files.map (·.name)) : (pool.enter file).Indexed where
  names_nodup := by
    rw [files_enter, List.map_append]
    exact List.nodup_append.mpr ⟨h.names_nodup, List.nodup_singleton _, by grind⟩
  position name := by
    rw [Pool.enter, append, Table.find?_insert, findIdx?_concat, claim, h.position]
    split
    · next hname =>
      have hnone : pool.files.findIdx? (·.name == name) = none := by
        rw [List.findIdx?_eq_none_iff]
        intro other hother
        rw [beq_eq_false_iff_ne, ← hname]
        exact fun heq => hnew (List.mem_map.mpr ⟨other, hother, heq⟩)
      simp [hnone, hname]
    · next hname => simp [hname]
  owner message := by
    rw [Pool.enter, append, owners_claim, h.owner, findIdx?_concat, claim]

/-- A file is looked up where it stands among the files. -/
theorem Indexed.find?_eq {pool : Pool} (h : pool.Indexed) (name : String) :
    pool.find? name = pool.files.find? (·.name == name) := by
  rw [find?, h.position, List.find?_eq_bind_findIdx?_getElem?]

/-- The owner of a message is the first file that declares it. -/
theorem Indexed.owner?_eq {pool : Pool} (h : pool.Indexed) (message : String) :
    pool.owner? message = pool.files.find? (·.declares message) := by
  rw [owner?, h.owner, List.find?_eq_bind_findIdx?_getElem?]

def ofFiles (files : List File) (passes : Nat) : Pool := files.foldl Pool.enter { passes }

theorem ofFiles_concat (files : List File) (file : File) (passes : Nat) :
    ofFiles (files ++ [file]) passes = (ofFiles files passes).enter file := by
  rw [ofFiles, List.foldl_append]
  rfl

@[simp] theorem files_ofFiles (files : List File) (passes : Nat) :
    (ofFiles files passes).files = files := by
  induction files using List.reverseRecOn with
  | nil => rfl
  | append_singleton files file ih =>
    rw [ofFiles_concat, files_enter, ih]

/-- The number of passes does not matter to the rest of a pool. -/
theorem ofFiles_passes (files : List File) (passes passes' : Nat) :
    { ofFiles files passes with passes := passes' } = ofFiles files passes' := by
  induction files using List.reverseRecOn with
  | nil => rfl
  | append_singleton files file ih =>
    rw [ofFiles_concat, ofFiles_concat, ← ih]
    rfl

@[simp] theorem passes_ofFiles (files : List File) (passes : Nat) :
    (ofFiles files passes).passes = passes := by
  rw [← ofFiles_passes files 0]

theorem indexed_ofFiles {files : List File} (hnames : (files.map (·.name)).Nodup)
    (passes : Nat) : (ofFiles files passes).Indexed := by
  induction files using List.reverseRecOn with
  | nil => exact indexed_empty passes
  | append_singleton files file ih =>
    rw [List.map_append, List.map_singleton, List.nodup_append] at hnames
    obtain ⟨hfiles, -, hapart⟩ := hnames
    rw [ofFiles_concat]
    apply (ih hfiles).enter
    rw [files_ofFiles]
    exact fun hmem => hapart file.name hmem file.name List.mem_cons_self rfl

theorem contains_positions_ofFiles (files : List File) (passes : Nat) (name : String) :
    (ofFiles files passes).positions.contains name = files.any (·.name == name) := by
  induction files using List.reverseRecOn with
  | nil => rfl
  | append_singleton files file ih =>
    rw [ofFiles_concat, Pool.enter, append, Table.contains_insert, claim, ih, List.any_append,
      Bool.or_comm]
    simp

theorem reach_passes (pool : Pool) (passes : Nat) (seen stack : List Nat) :
    { pool with passes }.reach seen stack = pool.reach seen stack := by
  fun_induction pool.reach seen stack with
  | case1 seen => rw [reach]
  | case2 seen i rest hi hseen ih => rw [reach, dif_pos hi, dif_pos hseen, ih]
  | case3 seen i rest hi hseen ih =>
    rw [reach, dif_pos hi, dif_neg hseen]
    exact ih
  | case4 seen i rest hi ih => rw [reach, dif_neg hi, ih]

theorem insert_eq (pool : Pool) (file : File) :
    pool.insert file = ((pool.claim file).checkTypes (pool.visible file.dependencies) file).map
      fun _ => pool.enter file := by
  simp only [insert, bind, Except.bind]
  cases (pool.claim file).checkTypes (pool.visible file.dependencies) file <;> rfl

end Pool

end PipelinePlan.Schema
