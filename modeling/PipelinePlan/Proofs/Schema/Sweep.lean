import PipelinePlan.Proofs.Schema.Index

namespace PipelinePlan.Schema

def File.ready (built : List File) (file : File) : Bool :=
  file.dependencies.all fun name => built.any (·.name == name)

def File.checkTypes (built : List File) (file : File) : Except Error Unit :=
  ((Pool.ofFiles built 0).claim file).checkTypes
    ((Pool.ofFiles built 0).visible file.dependencies) file

theorem Pool.ready_ofFiles (built : List File) (passes : Nat) (file : File) :
    (ofFiles built passes).ready file = file.ready built := by
  rw [ready, File.ready, funext (contains_positions_ofFiles built passes)]

theorem Pool.insert_ofFiles (built : List File) (passes : Nat) (file : File) :
    (ofFiles built passes).insert file =
      (file.checkTypes built).map fun _ => ofFiles (built ++ [file]) passes := by
  have hseen : (ofFiles built passes).visible file.dependencies =
      (ofFiles built 0).visible file.dependencies := by
    rw [← ofFiles_passes built 0 passes]
    exact reach_passes _ _ _ _
  have hclaim : ((ofFiles built passes).claim file).checkTypes =
      ((ofFiles built 0).claim file).checkTypes := by
    rw [← ofFiles_passes built 0 passes]
    rfl
  rw [insert_eq, ofFiles_concat, hseen, hclaim, File.checkTypes]

/-- What a pass builds and what it leaves if no check fails. -/
def sweep (built : List File) : List File → List File × List File
  | [] => ([], [])
  | file :: rest =>
    if file.ready built then
      let (fresh, left) := sweep (built ++ [file]) rest
      (file :: fresh, left)
    else
      let (fresh, left) := sweep built rest
      (fresh, file :: left)

def checkAll (built : List File) : List File → Except Error Unit
  | [] => .ok ()
  | file :: rest => do
    file.checkTypes built
    checkAll (built ++ [file]) rest

theorem Pool.checkTypes_eq_ok_iff {pool : Pool} {seen : List Nat} {file : File} :
    pool.checkTypes seen file = .ok () ↔
      ∀ use ∈ file.usedTypes, pool.resolvable seen file use.2.2 = true := by
  rw [checkTypes]
  split
  · next hnone => simpa using hnone
  · next service method type hsome =>
    have hmem := List.mem_of_find?_eq_some hsome
    have hbad := List.find?_some hsome
    simp only [Bool.not_eq_true'] at hbad
    constructor
    · intro h
      cases h
    · intro h
      have hgood := h _ hmem
      rw [hbad] at hgood
      cases hgood

theorem checkTypes_error {built : List File} {file : File} {e : Error}
    (h : file.checkTypes built = .error e) :
    ∃ service method type, e = .unknownMessage file.name service method type := by
  simp only [File.checkTypes, Pool.checkTypes] at h
  split at h
  · cases h
  · next service method type _ =>
    exact ⟨service.name, method.name, type, (Except.error.inj h).symm⟩

theorem checkAll_cons_eq_ok_iff {built rest : List File} {file : File} :
    checkAll built (file :: rest) = .ok () ↔
      file.checkTypes built = .ok () ∧ checkAll (built ++ [file]) rest = .ok () := by
  simp only [checkAll, bind]
  cases file.checkTypes built <;> simp [Except.bind]

theorem checkAll_eq_ok_iff {built files : List File} :
    checkAll built files = .ok () ↔ ∀ before file after, files = before ++ file :: after →
      file.checkTypes (built ++ before) = .ok () := by
  induction files generalizing built with
  | nil => simp [checkAll]
  | cons first rest ih =>
    rw [checkAll_cons_eq_ok_iff, ih]
    constructor
    · rintro ⟨hfirst, hrest⟩ before file after heq
      cases before with
      | nil =>
        obtain ⟨rfl, -⟩ := List.cons.inj heq
        simpa using hfirst
      | cons head before =>
        obtain ⟨rfl, htail⟩ := List.cons.inj heq
        simpa using hrest before file after htail
    · intro h
      refine ⟨by simpa using h [] first rest rfl, ?_⟩
      intro before file after heq
      simpa using h (first :: before) file after (by rw [heq]; rfl)

theorem checkAll_error {built files : List File} {e : Error}
    (h : checkAll built files = .error e) :
    ∃ before file after, files = before ++ file :: after ∧
      file.checkTypes (built ++ before) = .error e := by
  induction files generalizing built with
  | nil => cases h
  | cons first rest ih =>
    simp only [checkAll, bind] at h
    cases hcheck : first.checkTypes built with
    | error e' =>
      rw [hcheck] at h
      obtain rfl := Except.error.inj h
      exact ⟨[], first, rest, rfl, by simpa using hcheck⟩
    | ok u =>
      rw [hcheck] at h
      obtain ⟨before, file, after, rfl, herror⟩ := ih h
      exact ⟨first :: before, file, after, rfl, by simpa using herror⟩

/-- A pass builds what a pass without checks builds, if that passes the checks. -/
theorem Pool.pass_ofFiles (built left : List File) (passes : Nat) :
    (ofFiles built passes).pass left = (checkAll built (sweep built left).1).map fun _ =>
      (ofFiles (built ++ (sweep built left).1) passes, (sweep built left).2) := by
  induction left generalizing built with
  | nil => simp [pass, sweep, checkAll, Except.map]
  | cons file rest ih =>
    rw [pass, ready_ofFiles, insert_ofFiles]
    cases hready : file.ready built with
    | true =>
      simp only [sweep, hready, if_true, checkAll]
      cases file.checkTypes built with
      | error e => rfl
      | ok u => simpa [bind, Except.bind, Except.map] using ih (built ++ [file])
    | false =>
      simp only [sweep, hready, Bool.false_eq_true, if_false, ih]
      cases checkAll built (sweep built rest).1 <;> simp [bind, Except.bind, Except.map]

theorem sweep_perm (built left : List File) :
    ((sweep built left).1 ++ (sweep built left).2).Perm left := by
  induction left generalizing built with
  | nil => exact .refl _
  | cons file rest ih =>
    unfold sweep
    split
    · exact (ih (built ++ [file])).cons file
    · exact List.perm_middle.trans ((ih built).cons file)

theorem sweep_sublist (built left : List File) : (sweep built left).2.Sublist left := by
  induction left generalizing built with
  | nil => exact .refl _
  | cons file rest ih =>
    unfold sweep
    split
    · exact (ih (built ++ [file])).cons file
    · exact (ih built).cons_cons file

theorem sweep_length (built left : List File) :
    (sweep built left).1.length + (sweep built left).2.length = left.length := by
  rw [← List.length_append]
  exact (sweep_perm built left).length_eq

/-- A pass that builds nothing has met no file that is ready. -/
theorem not_ready_of_sweep {built left : List File} (h : (sweep built left).1 = []) :
    ∀ file ∈ left, file.ready built = false := by
  induction left with
  | nil => simp
  | cons file rest ih =>
    unfold sweep at h
    split at h
    · cases h
    · next hready =>
      intro other hother
      rcases List.mem_cons.mp hother with rfl | hother
      · simpa using hready
      · exact ih h other hother

def ImportsFirst (files : List File) : Prop :=
  ∀ before file after, files = before ++ file :: after → file.ready before = true

theorem importsFirst_nil : ImportsFirst [] := by
  intro before file after h
  simp at h

theorem ImportsFirst.concat {files : List File} (h : ImportsFirst files) {file : File}
    (hready : file.ready files = true) : ImportsFirst (files ++ [file]) := by
  intro before other after heq
  rcases List.eq_nil_or_concat after with rfl | ⟨after, last, rfl⟩
  · obtain ⟨rfl, hlast⟩ := List.append_inj' heq rfl
    obtain rfl : file = other := by simpa using hlast
    exact hready
  · rw [List.concat_eq_append, ← List.cons_append, ← List.append_assoc] at heq
    exact h before other after (List.append_inj' heq rfl).1

theorem ImportsFirst.sweep {built : List File} (h : ImportsFirst built) (left : List File) :
    ImportsFirst (built ++ (sweep built left).1) := by
  induction left generalizing built with
  | nil => simpa [Schema.sweep] using h
  | cons file rest ih =>
    unfold Schema.sweep
    split
    · next hready =>
      have hnext := ih (h.concat hready)
      rwa [List.append_assoc] at hnext
    · exact ih h

/-- Where the passes stand: the files that are built, those that are left, and how many passes were
made. -/
structure Progress where
  built : List File
  left : List File
  passes : Nat

def Progress.pool (p : Progress) : Pool := .ofFiles p.built p.passes

@[simp] theorem Progress.files_pool (p : Progress) : p.pool.files = p.built :=
  Pool.files_ofFiles _ _

@[simp] theorem Progress.passes_pool (p : Progress) : p.pool.passes = p.passes :=
  Pool.passes_ofFiles _ _

def Progress.next (p : Progress) : Progress :=
  ⟨p.built ++ (sweep p.built p.left).1, (sweep p.built p.left).2, p.passes + 1⟩

def sweeps : Nat → Progress → Progress
  | 0, p => p
  | limit + 1, p =>
    if p.left = [] then p
    else if (sweep p.built p.left).1 = [] then p.next
    else sweeps limit p.next

theorem checkAll_append (built first second : List File) :
    checkAll built (first ++ second) =
      (checkAll built first).bind fun _ => checkAll (built ++ first) second := by
  induction first generalizing built with
  | nil => simp [checkAll, Except.bind]
  | cons file rest ih =>
    simp only [List.cons_append, checkAll, ih, List.append_assoc]
    cases file.checkTypes built <;> simp [bind, Except.bind]

theorem sweeps_invariant {P : Progress → Prop} (hnext : ∀ p, P p → P p.next) (limit : Nat)
    {p : Progress} (h : P p) : P (sweeps limit p) := by
  induction limit generalizing p with
  | zero => exact h
  | succ limit ih =>
    unfold sweeps
    split
    · exact h
    · split
      · exact hnext p h
      · exact ih (hnext p h)

theorem settle_succ (limit : Nat) (p : Progress) :
    Pool.settle (limit + 1) p.pool p.left =
      if p.left = [] then .ok (p.pool, p.left)
      else (checkAll p.built (sweep p.built p.left).1).bind fun _ =>
        if (sweep p.built p.left).1 = [] then .ok (p.next.pool, p.next.left)
        else Pool.settle limit p.next.pool p.next.left := by
  by_cases hleft : p.left = []
  · simp [Pool.settle, hleft]
  · -- A pass builds nothing exactly if it leaves as many files as it found.
    have hstop : ((sweep p.built p.left).2.length == p.left.length) =
        decide ((sweep p.built p.left).1 = []) := by
      have hlen := sweep_length p.built p.left
      rw [Bool.eq_iff_iff, beq_iff_eq, decide_eq_true_eq, ← List.length_eq_zero_iff]
      omega
    have hpool : { p.pool with passes := p.pool.passes + 1 } =
        Pool.ofFiles p.built (p.passes + 1) := by
      rw [Progress.passes_pool, Progress.pool, Pool.ofFiles_passes]
    simp only [Pool.settle, List.isEmpty_iff, hleft, if_false, hpool, Pool.pass_ofFiles]
    cases checkAll p.built (sweep p.built p.left).1 with
    | error e => rfl
    | ok u =>
      simp only [Except.map, Except.bind, bind, hstop, decide_eq_true_eq]
      rfl

/-- The passes of a pool are the passes without checks and the check of what they build. -/
theorem settle_eq (limit : Nat) (p : Progress) :
    ∃ fresh, (sweeps limit p).built = p.built ++ fresh ∧
      Pool.settle limit p.pool p.left = (checkAll p.built fresh).map fun _ =>
        ((sweeps limit p).pool, (sweeps limit p).left) := by
  induction limit generalizing p with
  | zero => exact ⟨[], by simp [sweeps], by simp [Pool.settle, sweeps, checkAll, Except.map]⟩
  | succ limit ih =>
    rw [settle_succ, sweeps]
    split
    · exact ⟨[], by simp, by simp [checkAll, Except.map]⟩
    · split
      · next hfresh =>
        refine ⟨[], by simp [Progress.next, hfresh], ?_⟩
        rw [hfresh]
        simp [checkAll, Except.map, Except.bind]
      · obtain ⟨fresh, hbuilt, hsettle⟩ := ih p.next
        refine ⟨(sweep p.built p.left).1 ++ fresh, ?_, ?_⟩
        · rw [hbuilt, Progress.next, List.append_assoc]
        · rw [checkAll_append, hsettle]
          cases checkAll p.built (sweep p.built p.left).1 <;> rfl

/-- Where passes without checks end: with files that are not ready, and after no more passes than
there were files left. -/
theorem sweeps_stuck (limit : Nat) (p : Progress) (h : p.left.length ≤ limit) :
    (∀ file ∈ (sweeps limit p).left, file.ready (sweeps limit p).built = false) ∧
      (sweeps limit p).passes ≤ p.passes + p.left.length := by
  induction limit generalizing p with
  | zero =>
    have hleft : p.left = [] := List.length_eq_zero_iff.mp (by omega)
    simp [sweeps, hleft]
  | succ limit ih =>
    unfold sweeps
    split
    · next hleft => simp [hleft]
    · next hleft =>
      have hpos := List.length_pos_iff.mpr hleft
      have hlen := sweep_length p.built p.left
      split
      · next hfresh =>
        refine ⟨?_, by simp only [Progress.next]; omega⟩
        intro file hfile
        have hready := not_ready_of_sweep hfresh file ((sweep_sublist p.built p.left).mem hfile)
        rwa [Progress.next, hfresh, List.append_nil]
      · next hfresh =>
        -- The pass has built a file, so that fewer are left than passes may follow.
        have hfpos := List.length_pos_iff.mpr hfresh
        obtain ⟨hready, hpasses⟩ := ih p.next (by simp only [Progress.next]; omega)
        refine ⟨hready, hpasses.trans ?_⟩
        simp only [Progress.next]
        omega

theorem settle_of_left_nil {p : Progress} (h : p.left = []) (limit : Nat) :
    Pool.settle limit p.pool p.left = .ok (p.pool, p.left) := by
  cases limit with
  | zero => rfl
  | succ limit => rw [settle_succ, if_pos h]

/-- The limit on the number of passes does not matter once it is the number of files left. -/
theorem settle_limit {limit limit' : Nat} {p : Progress} (h : p.left.length ≤ limit)
    (h' : p.left.length ≤ limit') :
    Pool.settle limit p.pool p.left = Pool.settle limit' p.pool p.left := by
  induction limit generalizing limit' p with
  | zero =>
    have hleft : p.left = [] := List.length_eq_zero_iff.mp (by omega)
    rw [settle_of_left_nil hleft, settle_of_left_nil hleft]
  | succ limit ih =>
    by_cases hleft : p.left = []
    · rw [settle_of_left_nil hleft, settle_of_left_nil hleft]
    · have hpos := List.length_pos_iff.mpr hleft
      have hlen := sweep_length p.built p.left
      obtain ⟨limit', rfl⟩ := Nat.exists_eq_succ_of_ne_zero (by omega : limit' ≠ 0)
      rw [settle_succ, settle_succ]
      by_cases hfresh : (sweep p.built p.left).1 = []
      · simp only [hfresh, if_true]
      · have hfpos := List.length_pos_iff.mpr hfresh
        have hnext : p.next.left.length + 1 ≤ p.left.length := by
          simp only [Progress.next]
          omega
        rw [ih (by omega : p.next.left.length ≤ limit) (by omega : p.next.left.length ≤ limit')]

end PipelinePlan.Schema
