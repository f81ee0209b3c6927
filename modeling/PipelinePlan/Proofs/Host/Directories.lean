import PipelinePlan.Host.Basic
import PipelinePlan.Proofs.Host.FileSystem
import PipelinePlan.Proofs.Host.Path

namespace PipelinePlan

namespace FileSystem

variable {fs fs' fs'' : FileSystem} {location place : Location} {path parent : String}

section Gains

/-- There are directories where nothing was, and all the rest is as before. -/
structure GainsDirectories (fs fs' : FileSystem) : Prop where
  here : fs'.here = fs.here
  links : fs'.links = fs.links
  refusals : fs'.refusals = fs.refusals
  room : fs'.room = fs.room
  node : ∀ location, fs'.node? location = fs.node? location ∨
    fs.node? location = none ∧ fs'.node? location = some .directory

namespace GainsDirectories

theorem refl (fs : FileSystem) : fs.GainsDirectories fs := ⟨rfl, rfl, rfl, rfl, fun _ => .inl rfl⟩

theorem trans (h : fs.GainsDirectories fs') (h' : fs'.GainsDirectories fs'') :
    fs.GainsDirectories fs'' := by
  refine ⟨h'.here.trans h.here, h'.links.trans h.links, h'.refusals.trans h.refusals,
    h'.room.trans h.room, fun location => ?_⟩
  obtain hsame | ⟨hnone, hdirectory⟩ := h'.node location
  · rw [hsame]
    exact h.node location
  · obtain hsame' | ⟨-, hdirectory'⟩ := h.node location
    · exact .inr ⟨hsame'.symm.trans hnone, hdirectory⟩
    · rw [hdirectory'] at hnone
      cases hnone

theorem keepsWays (h : fs.GainsDirectories fs') : fs.KeepsWays fs' where
  here := h.here
  links := h.links
  refusals := h.refusals
  directory := by
    intro location hlocation
    obtain hsame | ⟨-, hdirectory⟩ := h.node location
    · exact hsame.trans hlocation
    · exact hdirectory

end GainsDirectories

theorem gainsDirectories_put (h : fs.node? location = none) :
    fs.GainsDirectories (fs.put location .directory) := by
  refine ⟨here_put, links_put, refusals_put, room_put, fun place => ?_⟩
  rw [node?_put (ne_nil_of_node?_eq_none h)]
  split
  · next hplace =>
    rw [hplace]
    exact .inr ⟨h, rfl⟩
  · exact .inl rfl

theorem gainsDirectories_of_makeDirectory (h : fs.makeDirectory path = .ok fs') :
    fs.GainsDirectories fs' := by
  obtain ⟨front, name, k, hnames, -⟩ := Path.exists_last_name path
  obtain ⟨above, location, -, -, -, hnone, -, rfl⟩ := makeDirectory_eq_ok hnames h
  exact gainsDirectories_put hnone

end Gains

section Presence

theorem isDirectory_iff :
    fs.isDirectory path = true ↔
      ∃ location, fs.locate false path = .ok location ∧ fs.node? location = some .directory := by
  rw [← find?_eq_ok_iff, isDirectory]
  split <;> simp_all

theorem isDirectory_of_makeDirectory (h : fs.makeDirectory path = .ok fs') :
    fs'.isDirectory path = true := by
  obtain ⟨front, name, k, hdropped, hnames⟩ := Path.exists_last_name path
  have hkeeps := (gainsDirectories_of_makeDirectory h).keepsWays
  obtain ⟨above, location, hfollow, hmove, hname, hnone, hlink, rfl⟩ :=
    makeDirectory_eq_ok hdropped h
  obtain ⟨hfault, hway⟩ := follow_eq_ok_iff.mp hfollow
  have hnode : (fs.put location .directory).node? location = some .directory := by
    rw [node?_put (ne_nil_of_node?_eq_none hnone), if_pos rfl]
  refine isDirectory_iff.mpr ⟨location, follow_eq_ok_iff.mpr ⟨hfault, ?_⟩, hnode⟩
  rw [hnames, along, here_put]
  -- The way to the directory above is as before, and from there it takes one step to an entry.
  apply (hway.mono hkeeps).append
  intro m
  exact .step (.entry (hkeeps.move hmove) hname (by rwa [links_put]))
    (way_slashes_iff.mpr ⟨rfl, fun _ => hnode⟩)

theorem makeDirectory_of_isDirectory (h : fs.isDirectory path = true) :
    fs.makeDirectory path = .error .alreadyExists := by
  obtain ⟨front, name, k, hdropped, hnames⟩ := Path.exists_last_name path
  obtain ⟨place, hlocate, hnode⟩ := isDirectory_iff.mp h
  obtain ⟨hfault, hway⟩ := follow_eq_ok_iff.mp hlocate
  rw [hnames] at hway
  obtain ⟨above, m, hfront, hlast⟩ := hway.split
  have hfollow : fs.follow false path front = .ok above := follow_eq_ok_iff.mpr ⟨hfault, hfront⟩
  rw [makeDirectory_eq hdropped, hfollow]
  rcases hlast with _ | ⟨hstep, hway⟩
  cases hstep with
  | direct hmove => simp [hmove, bind, Except.bind]
  | entry hmove hname _ =>
    rw [(way_slashes_iff.mp hway).1] at hnode
    have hname : checkName false name [] = .ok () := hname
    simp [hmove, hname, hnode, bind, Except.bind]
  | hard hmove hname hlink | symbolic hmove hname hlink =>
    have hname : checkName false name [] = .ok () := hname
    simp [hmove, hname, hlink, bind, Except.bind]

theorem pathFault?_eq_none_iff :
    pathFault? path = none ↔
      Path.hasNul path = false ∧ path.utf8ByteSize ≤ Path.maxBytes ∧ path ≠ "" := by
  unfold pathFault?
  split_ifs with hnul hlong hempty
  · simp [hnul]
  · simp [hlong]
  · simp [String.isEmpty_iff.mp hempty]
  · have hne : path ≠ "" := by simpa using hempty
    simpa [hnul, hne] using hlong

theorem pathFault?_of_append {rest : String} (hne : path ≠ "")
    (h : pathFault? (path ++ rest) = none) : pathFault? path = none := by
  obtain ⟨hnul, hsize, -⟩ := pathFault?_eq_none_iff.mp h
  refine pathFault?_eq_none_iff.mpr ⟨?_, ?_, hne⟩
  · rw [Path.hasNul, String.toList_append, List.contains_eq_mem] at hnul
    rw [Path.hasNul, List.contains_eq_mem]
    simp_all
  · rw [String.utf8ByteSize_append] at hsize
    omega

theorem isDirectory_slash (fs : FileSystem) : fs.isDirectory "/" = true := by
  refine isDirectory_iff.mpr ⟨[], follow_eq_ok_iff.mpr ⟨by decide, ?_⟩, node?_nil fs⟩
  have hway : fs.Way false ⟨Path.maxLinks, [], List.replicate 2 ""⟩ [] :=
    way_slashes_iff.mpr ⟨rfl, fun _ => node?_nil fs⟩
  exact hway

/-- A way that goes on is at a directory. -/
theorem Way.directory {creates : Bool} {x : Walk} (h : fs.Way creates x place)
    (hahead : x.ahead ≠ []) : fs.node? x.location = some .directory := by
  cases h with
  | done => exact absurd rfl hahead
  | step hstep _ =>
    cases hstep with
    | direct hmove | entry hmove | hard hmove | symbolic hmove => exact directory_of_move hmove

/-- Above a directory there are directories. -/
theorem isDirectory_parent (hparent : Path.parent? path = some parent) (hne : parent ≠ "")
    (h : fs.isDirectory path = true) : fs.isDirectory parent = true := by
  obtain hempty | hslash | ⟨rest, hpath⟩ := Path.parent?_cases hparent
  · exact absurd hempty hne
  · rw [hslash]
    exact isDirectory_slash fs
  · obtain ⟨place, hlocate, -⟩ := isDirectory_iff.mp h
    obtain ⟨hfault, hway⟩ := follow_eq_ok_iff.mp hlocate
    rw [hpath, along, Path.names_append, String.append_assoc,
      Path.isAbsolute_append hne] at hway
    rw [hpath, String.append_assoc] at hfault
    obtain ⟨location, m, hfront, hrest⟩ := hway.split
    exact isDirectory_iff.mpr ⟨location,
      follow_eq_ok_iff.mpr ⟨pathFault?_of_append hne hfault, hfront⟩,
      hrest.directory (Path.names_ne_nil rest)⟩

/-- Files can be written below a path: it leads to a directory, or it is empty and adds nothing. -/
def Usable (fs : FileSystem) (dir : String) : Prop := dir = "" ∨ fs.isDirectory dir = true

end Presence

end FileSystem

namespace Host

open FileSystem

variable {path parent : String} {w : World}

structure Made (path : String) (w : World) (after : Except FileError Unit × World) : Prop where
  gains : w.files.GainsDirectories after.2.files
  printed : after.2.printed = w.printed
  succeeds_iff : after.1 = .ok () ↔ after.2.files.Usable path

theorem made_of_makeDirectory {files : FileSystem} (h : w.files.makeDirectory path = .ok files) :
    Made path w (.ok (), { w with files }) where
  gains := gainsDirectories_of_makeDirectory h
  printed := rfl
  succeeds_iff := iff_of_true rfl (.inr (isDirectory_of_makeDirectory h))

theorem made_of_settled (hne : path ≠ "") (e : FileError) :
    Made path w (if w.files.isDirectory path then .ok () else .error e, w) where
  gains := .refl w.files
  printed := rfl
  succeeds_iff := by
    unfold Usable
    split <;> simp_all

section Runs

theorem run_bind {α β : Type} (x : StateM World α) (f : α → StateM World β) (w : World) :
    (x >>= f) w = f (x w).1 (x w).2 := rfl

theorem run_change (f : FileSystem → Except FileError FileSystem) (w : World) :
    World.change f w = match f w.files with
      | .ok files => (.ok (), { w with files })
      | .error e => (.error e, w) := rfl

theorem run_makeDirectory (path : String) (w : World) :
    (makeDirectory path : StateM World _) w = match w.files.makeDirectory path with
      | .ok files => (.ok (), { w with files })
      | .error e => (.error e, w) := run_change (·.makeDirectory path) w

theorem run_writeText (path text : String) (w : World) :
    (writeText path text : StateM World _) w =
      ((w.files.writeFile path (encodeText text)).1,
        { w with files := (w.files.writeFile path (encodeText text)).2 }) := rfl

theorem run_settleDirectory (path : String) (e : FileError) (w : World) :
    (settleDirectory path e : StateM World _) w =
      (if w.files.isDirectory path then .ok () else .error e, w) := by
  unfold settleDirectory
  rw [run_bind]
  change (if w.files.isDirectory path then _ else _ : StateM World _) w = _
  split <;> rfl

theorem run_makeLineage_cons (path : String) (above : List String) (w : World) :
    (makeLineage (path :: above) : StateM World _) w =
      if path.isEmpty then (.ok (), w)
      else match w.files.makeDirectory path with
        | .ok files => (.ok (), { w with files })
        | .error .notFound =>
          match (makeLineage above : StateM World _) w with
          | (.error e, w₁) => (.error e, w₁)
          | (.ok (), w₁) =>
            match w₁.files.makeDirectory path with
            | .ok files => (.ok (), { w₁ with files })
            | .error e => (if w₁.files.isDirectory path then .ok () else .error e, w₁)
        | .error e => (if w.files.isDirectory path then .ok () else .error e, w) := by
  rw [makeLineage]
  split
  · rfl
  · rw [run_bind, run_makeDirectory]
    cases w.files.makeDirectory path with
    | ok files => rfl
    | error e =>
      cases e with
      | notFound =>
        dsimp only
        rw [run_bind]
        cases (makeLineage above : StateM World _) w with
        | mk result w₁ =>
          cases result with
          | error e => rfl
          | ok _ =>
            dsimp only
            rw [run_bind, run_makeDirectory]
            cases w₁.files.makeDirectory path with
            | ok files => rfl
            | error e => exact run_settleDirectory path e w₁
      | _ => exact run_settleDirectory path _ w

end Runs

theorem made_cons {above : List String}
    (hgains : ∀ w : World,
      w.files.GainsDirectories ((makeLineage above : StateM World _) w).2.files)
    (hprinted : ∀ w : World, ((makeLineage above : StateM World _) w).2.printed = w.printed)
    (hfails : ∀ (w : World) e w₁, (makeLineage above : StateM World _) w = (.error e, w₁) →
      w.files.isDirectory path = false → w₁.files.isDirectory path = false) (w : World) :
    Made path w ((makeLineage (path :: above) : StateM World _) w) := by
  rw [run_makeLineage_cons]
  split
  · next hempty => exact ⟨.refl w.files, rfl, iff_of_true rfl (.inl (String.isEmpty_iff.mp hempty))⟩
  · next hempty =>
    have hne : path ≠ "" := by simpa using hempty
    split
    · next files hmake => exact made_of_makeDirectory hmake
    · next hmake =>
      -- Of a directory that is there the error would have been that it exists.
      have habsent : w.files.isDirectory path = false := by
        rw [Bool.eq_false_iff]
        intro hpath
        rw [makeDirectory_of_isDirectory hpath] at hmake
        cases hmake
      have hgains := hgains w
      have hprinted := hprinted w
      split
      · next e w₁ hrun =>
        rw [hrun] at hgains hprinted
        have hpath := hfails w e w₁ hrun habsent
        exact ⟨hgains, hprinted, iff_of_false (by simp) (by simp [Usable, hne, hpath])⟩
      · next w₁ hrun =>
        rw [hrun] at hgains hprinted
        have hmade : ∀ {after}, Made path w₁ after → Made path w after := by
          intro after h
          exact ⟨hgains.trans h.gains, h.printed.trans hprinted, h.succeeds_iff⟩
        split
        · next files hmake => exact hmade (made_of_makeDirectory hmake)
        · next e hmake => exact hmade (made_of_settled hne e)
    · next e _ _ => exact made_of_settled hne e

theorem made_alone (path : String) (w : World) :
    Made path w ((makeLineage [path] : StateM World _) w) := by
  apply made_cons
  · intro w
    exact .refl w.files
  · intro w
    rfl
  · intro w e w₁ hrun hpath
    cases hrun
    exact hpath

/-- The induction goes up the directories: where one above cannot be made, none below it is. -/
theorem made_upwards (count : Nat) (path : String) (w : World) :
    Made path w ((makeLineage (Path.upwards count path) : StateM World _) w) := by
  induction count generalizing path w with
  | zero => exact made_alone path w
  | succ count ih =>
    rw [Path.upwards]
    cases hparent : Path.parent? path with
    | none => exact made_alone path w
    | some parent =>
      refine made_cons (fun w => (ih parent w).gains) (fun w => (ih parent w).printed) ?_ w
      intro w e w₁ hrun _
      have hparentless := (ih parent w).succeeds_iff
      rw [hrun] at hparentless
      rw [Bool.eq_false_iff]
      intro hpath
      -- If the directory were there in spite of the failure above it, so would be its parent.
      have husable : w₁.files.Usable parent :=
        or_iff_not_imp_left.mpr fun hne => isDirectory_parent hparent hne hpath
      cases hparentless.mpr husable

theorem made_makeDirectories (path : String) (w : World) :
    Made path w ((makeDirectories path : StateM World _) w) :=
  made_upwards _ path w

end Host

end PipelinePlan
