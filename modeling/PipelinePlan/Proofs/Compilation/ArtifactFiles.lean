import PipelinePlan.Compilation.Basic
import PipelinePlan.Proofs.Host.Directories
import PipelinePlan.Proofs.List

namespace PipelinePlan

namespace FileSystem

variable {fs : FileSystem} {location place : Location} {path other : String}
  {content : Wire.Bytes}

/-- Two paths lead to one location, as they do if one of them is a link to the other. -/
def SameFile (fs : FileSystem) (path other : String) : Prop :=
  ∃ location, fs.locate false path = .ok location ∧ fs.locate false other = .ok location

/-- Writing a file neither opens a way nor closes one. -/
theorem keepsWays_writeFile :
    fs.KeepsWays (fs.writeFile path content).2 ∧ (fs.writeFile path content).2.KeepsWays fs := by
  obtain ⟨e, -, hwrite⟩ | ⟨location, -, htouches, -⟩ := fs.writeFile_cases path content
  · rw [hwrite]
    exact ⟨.refl fs, .refl fs⟩
  · exact ⟨htouches.keeps, htouches.back⟩

theorem locate_writeFile {creates : Bool} :
    (fs.writeFile path content).2.locate creates other = .ok location ↔
      fs.locate creates other = .ok location :=
  ⟨locate_mono keepsWays_writeFile.2, locate_mono keepsWays_writeFile.1⟩

/-- Writing a file changes nothing but what its path leads to, and that only if the file is written
or the room gives out. -/
theorem node?_writeFile (fs : FileSystem) (path : String) (content : Wire.Bytes)
    (place : Location) :
    (fs.writeFile path content).2.node? place = fs.node? place ∨
      fs.locate true path = .ok place ∧
        ((fs.writeFile path content).1 = .ok () ∨ fs.room ≠ none) := by
  obtain ⟨e, -, hwrite⟩ | ⟨location, hspot, htouches, hend⟩ := fs.writeFile_cases path content
  · rw [hwrite]
    exact .inl rfl
  · by_cases hplace : place = location
    · rw [hplace]
      exact .inr ⟨(spot_eq_ok_iff.mp hspot).1, hend.imp And.left And.right⟩
    · exact .inl (htouches.others place hplace)

theorem room_writeFile (h : fs.room = none) : (fs.writeFile path content).2.room = none := by
  obtain ⟨e, -, hwrite⟩ | ⟨location, -, -, ⟨-, -, hroom⟩ | ⟨-, hroom⟩⟩ :=
    fs.writeFile_cases path content
  · rw [hwrite]
    exact h
  · exact hroom h
  · exact absurd h hroom

theorem find?_of_writeFile (h : (fs.writeFile path content).1 = .ok ()) :
    (fs.writeFile path content).2.find? path = .ok (.file content) := by
  obtain ⟨e, -, hwrite⟩ | ⟨location, hspot, -, ⟨-, hnode, -⟩ | ⟨herror, -⟩⟩ :=
    fs.writeFile_cases path content
  · rw [hwrite] at h
    cases h
  · have hlocate := locate_visit (spot_eq_ok_iff.mp hspot).1
    exact find?_eq_ok_iff.mpr ⟨location, locate_writeFile.mpr hlocate, hnode⟩
  · rw [herror] at h
    cases h

/-- A path that leads elsewhere leads to what was there before. -/
theorem find?_writeFile_of_not_sameFile {node : Node} (h : fs.find? other = .ok node)
    (hdiffers : ¬fs.SameFile path other) :
    (fs.writeFile path content).2.find? other = .ok node := by
  obtain ⟨place, hlocate, hnode⟩ := find?_eq_ok_iff.mp h
  refine find?_eq_ok_iff.mpr ⟨place, locate_writeFile.mpr hlocate, ?_⟩
  obtain hsame | hpath := fs.node?_writeFile path content place
  · rw [hsame, hnode]
  · exact absurd ⟨place, locate_visit hpath.1, hlocate⟩ hdiffers

/-- If there is room for all, whether a file can be written depends only on where it is. -/
theorem writeFile_eq_ok_iff (h : fs.room = none) :
    (fs.writeFile path content).1 = .ok () ↔ ∃ location, fs.spot path = .ok location := by
  obtain ⟨e, hspot, hwrite⟩ | ⟨location, hspot, -, ⟨hok, -⟩ | ⟨-, hroom⟩⟩ :=
    fs.writeFile_cases path content
  · simp [hspot, hwrite]
  · simp [hspot, hok]
  · exact absurd h hroom

theorem writeFile_eq_self_of_error {e : FileError} (h : fs.room = none)
    (herror : (fs.writeFile path content).1 = .error e) : (fs.writeFile path content).2 = fs := by
  obtain ⟨e, -, hwrite⟩ | ⟨location, -, -, ⟨hok, -⟩ | ⟨-, hroom⟩⟩ :=
    fs.writeFile_cases path content
  · rw [hwrite]
  · rw [hok] at herror
    cases herror
  · exact absurd h hroom

/-- A file elsewhere can be written if and only if it could be before. -/
theorem spot_writeFile (hdiffers : ¬fs.SameFile path other) :
    (fs.writeFile path content).2.spot other = .ok location ↔ fs.spot other = .ok location := by
  rw [spot_eq_ok_iff, spot_eq_ok_iff, locate_writeFile]
  apply and_congr_right
  intro hlocate
  have hnode : (fs.writeFile path content).2.node? location = fs.node? location := by
    apply (fs.node?_writeFile path content location).resolve_right
    intro hpath
    exact hdiffers ⟨location, locate_visit hpath.1, locate_visit hlocate⟩
  rw [permitFile, permitFile, hnode, keepsWays_writeFile.1.permit, keepsWays_writeFile.1.permit]

end FileSystem

namespace Artifacts

open FileSystem

variable {fs : FileSystem} {dir path : String} {files : List (String × String)} {w : World}

section Runs

def attempt (dir : String) (fs : FileSystem) (file : String × String) :
    Except FileError Unit × FileSystem :=
  fs.writeFile (Path.join dir file.1) (Host.encodeText file.2)

def attempts (dir : String) :
    FileSystem → List (String × String) → List (String × Except FileError Unit)
  | _, [] => []
  | fs, file :: files =>
    (Path.join dir file.1, (attempt dir fs file).1) :: attempts dir (attempt dir fs file).2 files

def filled (dir : String) (fs : FileSystem) (files : List (String × String)) : FileSystem :=
  files.foldl (fun fs file => (attempt dir fs file).2) fs

def written? : String × Except FileError Unit → Option String
  | (path, .ok ()) => some path
  | (_, .error _) => none

def remark? : String × Except FileError Unit → Option Diagnostic
  | (_, .ok ()) => none
  | (path, .error e) => some (.warning Diagnostic.artifactWriteFailed path e.message)

def report (attempts : List (String × Except FileError Unit)) : Outcome (List String) where
  value := attempts.filterMap written?
  diagnostics := attempts.filterMap remark?

/-- The induction is on the files that are left, from the state that the ones before them leave. -/
theorem run_writeFiles (dir : String) (files : List (String × String)) (w : World) :
    (writeFiles dir files : StateM World _) w =
      (report (attempts dir w.files files), { w with files := filled dir w.files files }) := by
  induction files generalizing w with
  | nil => rfl
  | cons file files ih =>
    rw [writeFiles, Host.run_bind, Host.run_bind, Host.run_writeText, ih, attempts]
    change _ = (_, { w with files := filled dir (attempt dir w.files file).2 files })
    rw [attempt]
    cases (w.files.writeFile (Path.join dir file.1) (Host.encodeText file.2)).1 with
    | ok u => rfl
    | error e => rfl

theorem keepsWays_filled (dir : String) (fs : FileSystem) (files : List (String × String)) :
    fs.KeepsWays (filled dir fs files) := by
  induction files generalizing fs with
  | nil => exact .refl fs
  | cons file files ih => exact keepsWays_writeFile.1.trans (ih _)

theorem node?_filled (dir : String) (fs : FileSystem) (files : List (String × String))
    (place : Location) :
    (filled dir fs files).node? place = fs.node? place ∨
      ∃ file ∈ files, fs.locate true (Path.join dir file.1) = .ok place ∧
        (Path.join dir file.1 ∈ (report (attempts dir fs files)).value ∨ fs.room ≠ none) := by
  induction files generalizing fs with
  | nil => exact .inl rfl
  | cons file files ih =>
    have hvalue : (report (attempts dir (attempt dir fs file).2 files)).value ⊆
        (report (attempts dir fs (file :: files))).value := by
      intro path hpath
      rw [report, attempts, List.filterMap_cons]
      split
      · exact hpath
      · exact List.mem_cons_of_mem _ hpath
    obtain hsame | ⟨other, hother, hlocate, hlisted⟩ := ih (attempt dir fs file).2
    · obtain hfirst | ⟨hlocate, hend⟩ :=
        fs.node?_writeFile (Path.join dir file.1) (Host.encodeText file.2) place
      · exact .inl (hsame.trans hfirst)
      · refine .inr ⟨file, List.mem_cons_self, hlocate, hend.imp_left ?_⟩
        intro hok
        have hwritten : written? (Path.join dir file.1, (attempt dir fs file).1) =
            some (Path.join dir file.1) := by
          rw [attempt, hok]
          rfl
        rw [report, attempts, List.filterMap_cons_some hwritten]
        exact List.mem_cons_self
    · refine .inr ⟨other, List.mem_cons_of_mem _ hother, locate_writeFile.mp hlocate,
        hlisted.imp (@hvalue _) ?_⟩
      exact mt room_writeFile

end Runs

section Settled

/-- What has become of a file: it is listed and holds its content once it is written, or there is
one remark on it, which gives the reason. -/
structure Settled (before : FileSystem) (outcome : Outcome (List String)) (path : String)
    (content : Wire.Bytes) : Prop where
  written : (before.writeFile path content).1 = .ok () →
    outcome.value.count path = 1 ∧ outcome.diagnostics.filter (·.subject == path) = [] ∧
      (before.writeFile path content).2.find? path = .ok (.file content)
  refused : ∀ {e}, (before.writeFile path content).1 = .error e →
    path ∉ outcome.value ∧ outcome.diagnostics.filter (·.subject == path) =
      [.warning Diagnostic.artifactWriteFailed path e.message]

theorem length_report (tries : List (String × Except FileError Unit)) :
    (report tries).value.length + (report tries).diagnostics.length = tries.length := by
  induction tries with
  | nil => rfl
  | cons first tries ih =>
    rw [List.length_cons, ← ih]
    obtain ⟨path, _ | _⟩ := first
    · exact (Nat.add_assoc _ _ 1).symm
    · exact Nat.add_right_comm _ 1 _

variable {tries : List (String × Except FileError Unit)} {result : Except FileError Unit}

theorem filter_eq_singleton (hpaths : (tries.map Prod.fst).Nodup)
    (hmem : (path, result) ∈ tries) : tries.filter (·.1 == path) = [(path, result)] := by
  have hcount : (tries.map Prod.fst).count path = 1 :=
    List.count_eq_one_of_mem hpaths (List.mem_map_of_mem hmem)
  rw [List.count_eq_countP, List.countP_map, List.countP_eq_length_filter] at hcount
  exact eq_singleton_iff.mpr ⟨hcount, List.mem_filter.mpr ⟨hmem, beq_self_eq_true path⟩⟩

/-- What is said of one path among all attempts comes from the attempt at it. -/
theorem filter_filterMap_tries {α : Type} {f : String × Except FileError Unit → Option α}
    {p : α → Bool} (hpaths : (tries.map Prod.fst).Nodup) (hmem : (path, result) ∈ tries)
    (hf : ∀ attempt, (f attempt).filter p = if attempt.1 == path then f attempt else none) :
    (tries.filterMap f).filter p = (f (path, result)).toList := by
  rw [List.filter_filterMap, funext hf, ← List.filterMap_filter, filter_eq_singleton hpaths hmem]
  cases hsaid : f (path, result) <;> simp [hsaid]

theorem settled_report {content : Wire.Bytes} (hpaths : (tries.map Prod.fst).Nodup)
    (hmem : (path, (fs.writeFile path content).1) ∈ tries) :
    Settled fs (report tries) path content := by
  have hvalue : (report tries).value.filter (· == path) =
      (written? (path, (fs.writeFile path content).1)).toList := by
    apply filter_filterMap_tries hpaths hmem
    rintro ⟨other, _ | _⟩ <;> simp [written?, Option.filter]
  have hremarks : (report tries).diagnostics.filter (·.subject == path) =
      (remark? (path, (fs.writeFile path content).1)).toList := by
    apply filter_filterMap_tries hpaths hmem
    rintro ⟨other, _ | _⟩ <;> simp [remark?, Option.filter, Diagnostic.warning]
  constructor
  · intro hok
    rw [hok] at hvalue hremarks
    refine ⟨?_, hremarks, find?_of_writeFile hok⟩
    rw [List.count_eq_length_filter, hvalue]
    rfl
  · intro e herror
    rw [herror] at hvalue hremarks
    refine ⟨?_, hremarks⟩
    intro hlisted
    have hfilter : path ∈ (report tries).value.filter (· == path) :=
      List.mem_filter.mpr ⟨hlisted, beq_self_eq_true path⟩
    rw [hvalue] at hfilter
    cases hfilter

theorem Settled.mem_value_iff {outcome : Outcome (List String)} {content : Wire.Bytes}
    (h : Settled fs outcome path content) :
    path ∈ outcome.value ↔ (fs.writeFile path content).1 = .ok () := by
  cases hresult : (fs.writeFile path content).1 with
  | ok u =>
    refine iff_of_true ?_ rfl
    exact List.count_pos_iff.mp (by rw [(h.written hresult).1]; exact Nat.one_pos)
  | error e => exact iff_of_false (h.refused hresult).1 nofun

theorem Settled.exists_error {outcome : Outcome (List String)} {content : Wire.Bytes}
    (h : Settled fs outcome path content) (hunlisted : path ∉ outcome.value) :
    ∃ e, (fs.writeFile path content).1 = .error e := by
  rw [h.mem_value_iff] at hunlisted
  cases hresult : (fs.writeFile path content).1 with
  | ok u => exact absurd hresult hunlisted
  | error e => exact ⟨e, rfl⟩

/-- What has become of two files that were written in turn. The second does away with the first only
if their paths lead to one file, and it depends on the first only if they do or if there may not be
room for all. -/
structure SettledInTurn (made after : FileSystem) (outcome : Outcome (List String))
    (path path' : String) (content content' : Wire.Bytes) : Prop where
  total : outcome.value.length + outcome.diagnostics.length = 2
  first : Settled made outcome path content
  second : Settled (made.writeFile path content).2 outcome path' content'
  last : path' ∈ outcome.value → after.find? path' = .ok (.file content')
  kept : path ∈ outcome.value →
    (made.SameFile path path' → path' ∉ outcome.value ∧ made.room = none) →
    after.find? path = .ok (.file content)
  replaced : path' ∈ outcome.value → made.SameFile path path' →
    after.find? path = .ok (.file content')
  apart : made.room = none → ¬made.SameFile path path' →
    (path' ∈ outcome.value ↔ (made.writeFile path' content').1 = .ok ())

theorem settledInTurn_report {name name' text text' : String} (hname : '/' ∉ name.toList)
    (hname' : '/' ∉ name'.toList) (hne : name ≠ name') :
    SettledInTurn fs (filled dir fs [(name, text), (name', text')])
      (report (attempts dir fs [(name, text), (name', text')]))
      (Path.join dir name) (Path.join dir name') (Host.encodeText text) (Host.encodeText text') := by
  have hpaths : ((attempts dir fs [(name, text), (name', text')]).map Prod.fst).Nodup := by
    have hjoin : Path.join dir name ≠ Path.join dir name' :=
      mt (Path.join_inj hname hname').mp hne
    simpa [attempts] using hjoin
  have hfirst : Settled fs _ (Path.join dir name) (Host.encodeText text) :=
    settled_report hpaths List.mem_cons_self
  have hsecond : Settled (fs.writeFile (Path.join dir name) (Host.encodeText text)).2 _
      (Path.join dir name') (Host.encodeText text') :=
    settled_report hpaths (List.mem_cons_of_mem _ List.mem_cons_self)
  have hlast := fun hlisted => (hsecond.written (hsecond.mem_value_iff.mp hlisted)).2.2
  refine ⟨length_report _, hfirst, hsecond, hlast, ?_, ?_, ?_⟩
  · intro hlisted hspared
    have hheld := (hfirst.written (hfirst.mem_value_iff.mp hlisted)).2.2
    by_cases hsame : fs.SameFile (Path.join dir name) (Path.join dir name')
    · obtain ⟨hunlisted, hroom⟩ := hspared hsame
      obtain ⟨e, herror⟩ := hsecond.exists_error hunlisted
      have hstays := writeFile_eq_self_of_error (room_writeFile hroom) herror
      exact (congrArg (·.find? (Path.join dir name)) hstays).trans hheld
    · refine find?_writeFile_of_not_sameFile hheld ?_
      rintro ⟨location, hlocate', hlocate⟩
      exact hsame ⟨location, locate_writeFile.mp hlocate, locate_writeFile.mp hlocate'⟩
  · rintro hlisted ⟨location, hlocate, hlocate'⟩
    have hkeeps := keepsWays_filled dir fs [(name, text), (name', text')]
    obtain ⟨place, hplace, hnode⟩ := find?_eq_ok_iff.mp (hlast hlisted)
    obtain rfl := Except.ok.inj (hplace.symm.trans (locate_mono hkeeps hlocate'))
    exact find?_eq_ok_iff.mpr ⟨place, locate_mono hkeeps hlocate, hnode⟩
  · intro hroom hdiffers
    rw [hsecond.mem_value_iff, writeFile_eq_ok_iff (room_writeFile hroom),
      writeFile_eq_ok_iff hroom]
    exact exists_congr fun location => spot_writeFile hdiffers

end Settled

section Writing

theorem run_write (a : Artifacts) (dir : String) (w : World) :
    (a.write dir : StateM World _) w = match (Host.makeDirectories dir : StateM World _) w with
      | (.error e, made) => ({ value := [], diagnostics := [.warning Diagnostic.artifactWriteFailed
          dir ("cannot create output directory: " ++ e.message)] }, made)
      | (.ok (), made) => (writeFiles dir a.files : StateM World _) made := by
  rw [write, Host.run_bind]
  obtain ⟨result, made⟩ := (Host.makeDirectories dir : StateM World _) w
  cases result <;> rfl

theorem run_writeArtifacts {a : Artifacts} {outcome : Outcome (List String)} {w' : World}
    (h : (a.write dir : StateM World _) w = (outcome, w')) (c : Compiled) :
    (c.artifacts = none → (c.writeArtifacts dir : StateM World _) w = ((c, []), w)) ∧
      (c.artifacts = some a → (c.writeArtifacts dir : StateM World _) w =
        (({ c with diagnostics := c.diagnostics ++ outcome.diagnostics }, outcome.value), w')) := by
  unfold Compiled.writeArtifacts
  constructor
  · intro hnone
    rw [hnone]
    rfl
  · intro hsome
    rw [hsome]
    dsimp only
    rw [Host.run_bind, h]
    rfl

/-- Writing artifacts is best effort. If the directory cannot be made, there is one remark on it and
nothing is written. Otherwise the two files are settled in turn. In both cases a location is as it
was, has a new directory, or is where one of the files is written. A compiled pipeline only gets the
remarks. -/
theorem write_settles_each (a : Artifacts) (dir : String) (w : World) :
    ∃ (made after : FileSystem) (result : Except FileError Unit) (outcome : Outcome (List String)),
      (Host.makeDirectories dir : StateM World _) w = (result, { w with files := made }) ∧
      (a.write dir : StateM World _) w = (outcome, { w with files := after }) ∧
      w.files.GainsDirectories made ∧ w.files.KeepsWays after ∧
      (result = .ok () ↔ made.Usable dir) ∧
      (∀ e, result = .error e → after = made ∧ outcome = { value := [], diagnostics :=
        [.warning Diagnostic.artifactWriteFailed dir
          ("cannot create output directory: " ++ e.message)] }) ∧
      (result = .ok () → SettledInTurn made after outcome
        (Path.join dir "execution-order.json") (Path.join dir "telemetry-boundary.json")
        (Host.encodeText a.executionOrder.toJson.pretty)
        (Host.encodeText a.telemetryBoundary.toJson.pretty)) ∧
      (∀ location, after.node? location = w.files.node? location ∨
        w.files.node? location = none ∧ after.node? location = some .directory ∨
        ∃ name ∈ ["execution-order.json", "telemetry-boundary.json"],
          made.locate true (Path.join dir name) = .ok location ∧
          (Path.join dir name ∈ outcome.value ∨ made.room ≠ none)) ∧
      ∀ c : Compiled,
        (c.artifacts = none → (c.writeArtifacts dir : StateM World _) w = ((c, []), w)) ∧
        (c.artifacts = some a → (c.writeArtifacts dir : StateM World _) w =
          (({ c with diagnostics := c.diagnostics ++ outcome.diagnostics }, outcome.value),
            { w with files := after })) := by
  obtain ⟨hgains, hprinted, husable⟩ := Host.made_makeDirectories dir w
  have hwrite := run_write a dir w
  cases hrun : (Host.makeDirectories dir : StateM World _) w with
  | mk result made =>
    obtain ⟨files, printed⟩ := made
    rw [hrun] at hgains hprinted husable hwrite
    obtain rfl : printed = w.printed := hprinted
    cases result with
    | error e =>
      refine ⟨files, files, .error e, _, rfl, hwrite, hgains, hgains.keepsWays, husable, ?_, nofun,
        ?_, run_writeArtifacts hwrite⟩
      · rintro _ ⟨⟩
        exact ⟨rfl, rfl⟩
      · intro location
        exact (hgains.node location).imp_right .inl
    | ok _ =>
      have hwrite := hwrite.trans (run_writeFiles dir a.files { w with files })
      refine ⟨files, _, .ok (), _, rfl, hwrite, hgains,
        hgains.keepsWays.trans (keepsWays_filled dir files a.files), husable, nofun, fun _ => ?_, ?_,
        run_writeArtifacts hwrite⟩
      · exact settledInTurn_report (by decide) (by decide) (by decide)
      · intro location
        obtain hsame | ⟨file, hfile, hwritten⟩ := node?_filled dir files a.files location
        · rw [hsame]
          exact (hgains.node location).imp_right .inl
        · exact .inr (.inr ⟨file.1, List.mem_map_of_mem (f := Prod.fst) hfile, hwritten⟩)

def fetching : Artifacts :=
  ⟨⟨["fetch"]⟩, { itemInputType := "Order", itemOutputType := "Bill" }⟩

/-- A directory stands where the order is to be written. -/
def blocked : World where
  files := { nodes := [(["out", "execution-order.json"], .directory), (["out"], .directory)] }

theorem boundary_written_beside_directory :
    ∃ after, (fetching.write "out" : StateM World _) blocked =
        ({ value := ["out/telemetry-boundary.json"]
           diagnostics := [.warning Diagnostic.artifactWriteFailed "out/execution-order.json"
            "Is a directory (os error 21)"] }, { blocked with files := after }) ∧
      after.find? "out/telemetry-boundary.json" =
        .ok (.file (Host.encodeText fetching.telemetryBoundary.toJson.pretty)) := by
  obtain ⟨made, after, result, outcome, hmade, hwrite, -, -, -, -, hsettled, -⟩ :=
    fetching.write_settles_each "out" blocked
  have hrun : ((Host.makeDirectories "out" : StateM World _) blocked).1 = .ok () ∧
      ((fetching.write "out" : StateM World _) blocked).1 =
        { value := ["out/telemetry-boundary.json"]
          diagnostics := [.warning Diagnostic.artifactWriteFailed "out/execution-order.json"
            "Is a directory (os error 21)"] } := by
    decide +kernel
  rw [hmade, hwrite] at hrun
  obtain ⟨hresult, rfl⟩ := hrun
  exact ⟨after, hwrite, (hsettled hresult).last (List.mem_singleton.mpr rfl)⟩

/-- The boundary is a link to the order. -/
def linked : World where
  files := {
    nodes := [(["out"], .directory)]
    links := [(["out", "telemetry-boundary.json"], .symbolic "execution-order.json")] }

/-- There is room for the order or for the boundary. -/
def cramped : World where
  files := { nodes := [(["out"], .directory)], room := some 100 }

/-- If both files are one, then both are listed and the order is lost. If there is room for one of
them only, then the boundary is not written because the order is. -/
theorem order_replaced_and_boundary_crowded_out :
    (((fetching.write "out" : StateM World _) linked).1 =
        { value := ["out/execution-order.json", "out/telemetry-boundary.json"] } ∧
      ((fetching.write "out" : StateM World _) linked).2.files.find? "out/execution-order.json" ≠
        .ok (.file (Host.encodeText fetching.executionOrder.toJson.pretty))) ∧
    ((fetching.write "out" : StateM World _) cramped).1 =
        { value := ["out/execution-order.json"]
          diagnostics := [.warning Diagnostic.artifactWriteFailed "out/telemetry-boundary.json"
            "No space left on device (os error 28)"] } ∧
      (cramped.files.writeFile "out/telemetry-boundary.json"
        (Host.encodeText fetching.telemetryBoundary.toJson.pretty)).1 = .ok () := by
  decide +kernel

end Writing

end Artifacts

end PipelinePlan
