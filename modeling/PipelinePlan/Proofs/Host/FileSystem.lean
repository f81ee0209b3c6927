import PipelinePlan.Host.FileSystem
import PipelinePlan.Proofs.Except

namespace PipelinePlan.FileSystem

variable {fs fs' fs'' : FileSystem} {location place : Location} {node : Node} {path : String}

section Nodes

@[simp] theorem node?_nil (fs : FileSystem) : fs.node? [] = some .directory := rfl

theorem node?_of_ne_nil (h : location ≠ []) : fs.node? location = fs.nodes.lookup location :=
  if_neg (by simpa using h)

theorem lookup_cons_eq (nodes : List (Location × Node)) :
    ((location, node) :: nodes).lookup place =
      if place = location then some node else nodes.lookup place := by
  rw [List.lookup_cons]
  by_cases h : place = location
  · rw [if_pos h, beq_iff_eq.mpr h]
  · rw [if_neg h, beq_eq_false_iff_ne.mpr h]

theorem lookup_replaced (nodes : List (Location × Node)) :
    (nodes.map fun entry => if entry.1 == location then (location, node) else entry).lookup place =
      if place = location then (nodes.lookup location).map fun _ => node
      else nodes.lookup place := by
  induction nodes with
  | nil => simp
  | cons entry nodes ih =>
    obtain ⟨key, old⟩ := entry
    by_cases hkey : key = location
    · rw [List.map_cons, if_pos (beq_iff_eq.mpr hkey), lookup_cons_eq, ih, hkey, lookup_cons_eq,
        lookup_cons_eq, if_pos rfl]
      by_cases hplace : place = location
      · simp [hplace]
      · simp [hplace]
    · rw [List.map_cons, if_neg (by simpa using hkey), lookup_cons_eq, ih, lookup_cons_eq,
        lookup_cons_eq, if_neg (Ne.symm hkey)]
      by_cases hplace : place = location
      · simp [hplace, Ne.symm hkey]
      · simp [hplace]

/-- What is put at a location is there, and the rest is as it was. -/
theorem node?_put (h : location ≠ []) :
    (fs.put location node).node? place =
      if place = location then some node else fs.node? place := by
  by_cases hplace : place = []
  · rw [hplace, if_neg h.symm]
    rfl
  · rw [node?_of_ne_nil hplace, node?_of_ne_nil hplace, put]
    split
    · next hsome =>
      obtain ⟨old, hold⟩ := Option.isSome_iff_exists.mp hsome
      rw [lookup_replaced, hold, Option.map_some]
    · next hnone =>
      rw [Bool.not_eq_true, Option.isSome_eq_false_iff, Option.isNone_iff_eq_none] at hnone
      rw [List.lookup_append, lookup_cons_eq]
      by_cases hsame : place = location
      · simp [hsame, hnone]
      · simp [hsame]

theorem ne_nil_of_not_directory (h : fs.node? location ≠ some .directory) : location ≠ [] := by
  rintro rfl
  exact h rfl

theorem ne_nil_of_node?_eq_none (h : fs.node? location = none) : location ≠ [] := by
  rintro rfl
  cases h

@[simp] theorem here_put : (fs.put location node).here = fs.here := by
  unfold put
  split <;> rfl

@[simp] theorem links_put : (fs.put location node).links = fs.links := by
  unfold put
  split <;> rfl

@[simp] theorem refusals_put : (fs.put location node).refusals = fs.refusals := by
  unfold put
  split <;> rfl

@[simp] theorem room_put : (fs.put location node).room = fs.room := by
  unfold put
  split <;> rfl

end Nodes

section Ways

/-- Where a walk stands: how many symbolic links it may still go through, where it is, and the names
ahead of it. -/
structure Walk where
  links : Nat
  location : Location
  ahead : List String

inductive Step (fs : FileSystem) (creates : Bool) : Walk → Walk → Prop
  | direct {n : Nat} {location next : Location} {name : String} {rest : List String}
      (hmove : fs.move location name = .ok (.direct next)) :
      Step fs creates ⟨n, location, name :: rest⟩ ⟨n, next, rest⟩
  | entry {n : Nat} {location next : Location} {name : String} {rest : List String}
      (hmove : fs.move location name = .ok (.entry next))
      (hname : checkName creates name rest = .ok ()) (hlink : fs.links.lookup next = none) :
      Step fs creates ⟨n, location, name :: rest⟩ ⟨n, next, rest⟩
  | hard {n : Nat} {location next file : Location} {name : String} {rest : List String}
      (hmove : fs.move location name = .ok (.entry next))
      (hname : checkName creates name rest = .ok ())
      (hlink : fs.links.lookup next = some (.hard file)) :
      Step fs creates ⟨n, location, name :: rest⟩ ⟨n, file, rest⟩
  | symbolic {n : Nat} {location next : Location} {name target : String} {rest : List String}
      (hmove : fs.move location name = .ok (.entry next))
      (hname : checkName creates name rest = .ok ())
      (hlink : fs.links.lookup next = some (.symbolic target)) :
      Step fs creates ⟨n + 1, location, name :: rest⟩
        ⟨n, if Path.isAbsolute target then [] else location, Path.names target ++ rest⟩

inductive Way (fs : FileSystem) (creates : Bool) : Walk → Location → Prop
  | done {n : Nat} {location : Location} : Way fs creates ⟨n, location, []⟩ location
  | step {x y : Walk} {place : Location} (hstep : Step fs creates x y)
      (hway : Way fs creates y place) : Way fs creates x place

variable {creates : Bool} {n : Nat} {name : String} {names rest : List String} {x y : Walk}

theorem walkWith_cons (expand : Location → List String → Except FileError Location) :
    fs.walkWith creates expand location (name :: rest) = (do
      match ← fs.move location name with
      | .direct next => fs.walkWith creates expand next rest
      | .entry next =>
        checkName creates name rest
        match fs.links.lookup next with
        | none => fs.walkWith creates expand next rest
        | some (.hard file) => fs.walkWith creates expand file rest
        | some (.symbolic target) =>
          expand (if Path.isAbsolute target then [] else location)
            (Path.names target ++ rest)) := rfl

theorem walkWith_eq_ok_iff {expand : Location → List String → Except FileError Location}
    (hexpand : ∀ {location names}, expand location names = .ok place ↔
      ∃ m, n = m + 1 ∧ fs.Way creates ⟨m, location, names⟩ place) :
    fs.walkWith creates expand location names = .ok place ↔
      fs.Way creates ⟨n, location, names⟩ place := by
  induction names generalizing location with
  | nil =>
    constructor
    · intro h
      obtain rfl := Except.ok.inj h
      exact .done
    · intro h
      cases h with
      | done => rfl
      | step hstep _ => cases hstep
  | cons name rest ih =>
    rw [walkWith_cons]
    constructor
    · intro h
      obtain ⟨move, hmove, h⟩ := bind_eq_ok_iff.mp h
      cases move with
      | direct next => exact .step (.direct hmove) (ih.mp h)
      | entry next =>
        obtain ⟨⟨⟩, hname, h⟩ := bind_eq_ok_iff.mp h
        split at h
        · next hlink => exact .step (.entry hmove hname hlink) (ih.mp h)
        · next file hlink => exact .step (.hard hmove hname hlink) (ih.mp h)
        · next target hlink =>
          obtain ⟨m, rfl, hway⟩ := hexpand.mp h
          exact .step (.symbolic hmove hname hlink) hway
    · rintro (_ | ⟨hstep, hway⟩)
      cases hstep with
      | direct hmove => exact bind_eq_ok_iff.mpr ⟨_, hmove, ih.mpr hway⟩
      | entry hmove hname hlink =>
        refine bind_eq_ok_iff.mpr ⟨_, hmove, bind_eq_ok_iff.mpr ⟨_, hname, ?_⟩⟩
        rw [hlink]
        exact ih.mpr hway
      | hard hmove hname hlink =>
        refine bind_eq_ok_iff.mpr ⟨_, hmove, bind_eq_ok_iff.mpr ⟨_, hname, ?_⟩⟩
        rw [hlink]
        exact ih.mpr hway
      | symbolic hmove hname hlink =>
        refine bind_eq_ok_iff.mpr ⟨_, hmove, bind_eq_ok_iff.mpr ⟨_, hname, ?_⟩⟩
        rw [hlink]
        exact hexpand.mpr ⟨_, rfl, hway⟩

/-- Walking is computed as far as the links allow. -/
theorem walk_eq_ok_iff :
    fs.walk creates n location names = .ok place ↔
      fs.Way creates ⟨n, location, names⟩ place := by
  induction n generalizing location names with
  | zero => exact walkWith_eq_ok_iff (by simp)
  | succ n ih => exact walkWith_eq_ok_iff (by simp [ih])

/-- Every directory, link and refusal is still there, and relative paths start where they did. -/
structure KeepsWays (fs fs' : FileSystem) : Prop where
  here : fs'.here = fs.here
  links : fs'.links = fs.links
  refusals : fs'.refusals = fs.refusals
  directory : ∀ {location}, fs.node? location = some .directory →
    fs'.node? location = some .directory

theorem KeepsWays.refl (fs : FileSystem) : fs.KeepsWays fs := ⟨rfl, rfl, rfl, id⟩

theorem KeepsWays.trans (h : fs.KeepsWays fs') (h' : fs'.KeepsWays fs'') : fs.KeepsWays fs'' :=
  ⟨h'.here.trans h.here, h'.links.trans h.links, h'.refusals.trans h.refusals,
    fun hplace => h'.directory (h.directory hplace)⟩

theorem requireDirectory_eq_ok_iff :
    fs.requireDirectory location = .ok () ↔ fs.node? location = some .directory := by
  unfold requireDirectory
  split <;> simp_all

/-- A name is looked at from a directory, whatever it means there. -/
theorem directory_of_move {move : Move} (h : fs.move location name = .ok move) :
    fs.node? location = some .directory := by
  obtain ⟨⟨⟩, hdirectory, -⟩ := bind_eq_ok_iff.mp h
  exact requireDirectory_eq_ok_iff.mp hdirectory

theorem KeepsWays.permit (h : fs.KeepsWays fs') (access : Access) (location : Location) :
    fs'.permit access location = fs.permit access location := by
  rw [FileSystem.permit, FileSystem.permit, h.refusals]

theorem KeepsWays.move (h : fs.KeepsWays fs') {move : Move}
    (hmove : fs.move location name = .ok move) : fs'.move location name = .ok move := by
  have hdirectory := h.directory (directory_of_move hmove)
  obtain ⟨⟨⟩, -, hmove⟩ := bind_eq_ok_iff.mp hmove
  refine bind_eq_ok_iff.mpr ⟨(), requireDirectory_eq_ok_iff.mpr hdirectory, ?_⟩
  rwa [h.permit]

theorem Step.mono (hstep : fs.Step creates x y) (h : fs.KeepsWays fs') :
    fs'.Step creates x y := by
  cases hstep with
  | direct hmove => exact .direct (h.move hmove)
  | entry hmove hname hlink => exact .entry (h.move hmove) hname (h.links ▸ hlink)
  | hard hmove hname hlink => exact .hard (h.move hmove) hname (h.links ▸ hlink)
  | symbolic hmove hname hlink => exact .symbolic (h.move hmove) hname (h.links ▸ hlink)

theorem Way.mono (hway : fs.Way creates x place) (h : fs.KeepsWays fs') :
    fs'.Way creates x place := by
  induction hway with
  | done => exact .done
  | step hstep _ ih => exact .step (hstep.mono h) ih

theorem checkName_visit (h : checkName true name rest = .ok ()) :
    checkName false name rest = .ok () := by
  unfold checkName at h ⊢
  split at h
  · cases h
  · exact h

/-- A path to a file that may be made leads to the same place if the file is only looked for. -/
theorem Way.visit (h : fs.Way true x place) : fs.Way false x place := by
  induction h with
  | done => exact .done
  | step hstep _ ih =>
    refine .step ?_ ih
    cases hstep with
    | direct hmove => exact .direct hmove
    | entry hmove hname hlink => exact .entry hmove (checkName_visit hname) hlink
    | hard hmove hname hlink => exact .hard hmove (checkName_visit hname) hlink
    | symbolic hmove hname hlink => exact .symbolic hmove (checkName_visit hname) hlink

/-- More names ahead make no difference to a step. -/
theorem Step.append (h : fs.Step false x y) (rest : List String) :
    fs.Step false ⟨x.links, x.location, x.ahead ++ rest⟩ ⟨y.links, y.location, y.ahead ++ rest⟩ := by
  cases h with
  | direct hmove => exact .direct hmove
  | entry hmove hname hlink => exact .entry hmove hname hlink
  | hard hmove hname hlink => exact .hard hmove hname hlink
  | symbolic hmove hname hlink =>
    rw [List.append_assoc]
    exact .symbolic hmove hname hlink

/-- A step leaves alone the names behind the one that it takes. -/
theorem Step.split (h : fs.Step false ⟨n, location, name :: (names ++ rest)⟩ y) :
    ∃ ahead, y.ahead = ahead ++ rest ∧
      fs.Step false ⟨n, location, name :: names⟩ ⟨y.links, y.location, ahead⟩ := by
  cases h with
  | direct hmove => exact ⟨names, rfl, .direct hmove⟩
  | entry hmove hname hlink => exact ⟨names, rfl, .entry hmove hname hlink⟩
  | hard hmove hname hlink => exact ⟨names, rfl, .hard hmove hname hlink⟩
  | symbolic hmove hname hlink =>
    exact ⟨_, (List.append_assoc _ _ _).symm, .symbolic hmove hname hlink⟩

/-- A way goes on with names that need no more links. -/
theorem Way.append {base : Location} (h : fs.Way false x base)
    (hrest : ∀ m, fs.Way false ⟨m, base, rest⟩ place) :
    fs.Way false ⟨x.links, x.location, x.ahead ++ rest⟩ place := by
  induction h with
  | done => exact hrest _
  | step hstep _ ih => exact .step (hstep.append rest) (ih hrest)

/-- A way comes to where the first of its names lead. -/
theorem Way.split (h : fs.Way false ⟨n, location, names ++ rest⟩ place) :
    ∃ base m, fs.Way false ⟨n, location, names⟩ base ∧ fs.Way false ⟨m, base, rest⟩ place := by
  generalize hx : (⟨n, location, names ++ rest⟩ : Walk) = x at h
  induction h generalizing n location names with
  | done =>
    obtain ⟨rfl, rfl, hnil⟩ := Walk.mk.inj hx
    obtain ⟨rfl, rfl⟩ := List.append_eq_nil_iff.mp hnil
    exact ⟨location, n, .done, .done⟩
  | @step x y place hstep hway ih =>
    subst hx
    cases names with
    | nil => exact ⟨location, n, .done, .step hstep hway⟩
    | cons name names =>
      obtain ⟨ahead, hahead, hfirst⟩ := hstep.split
      have hy : (⟨y.links, y.location, ahead ++ rest⟩ : Walk) = y := by rw [← hahead]
      obtain ⟨base, m, hfront, hrest⟩ := ih hy
      exact ⟨base, m, .step hfirst hfront, hrest⟩

theorem move_empty (h : fs.node? location = some .directory) :
    fs.move location "" = .ok (.direct location) :=
  bind_eq_ok_iff.mpr ⟨(), requireDirectory_eq_ok_iff.mpr h, rfl⟩

/-- Slashes at the end of a path lead on only from a directory, and nowhere else. -/
theorem way_slashes_iff {k : Nat} :
    fs.Way creates ⟨n, location, .replicate k ""⟩ place ↔
      place = location ∧ (k ≠ 0 → fs.node? location = some .directory) := by
  induction k with
  | zero =>
    constructor
    · intro h
      cases h with
      | done => exact ⟨rfl, nofun⟩
      | step hstep _ => cases hstep
    · rintro ⟨rfl, -⟩
      exact .done
  | succ k ih =>
    rw [List.replicate_succ]
    constructor
    · rintro (_ | ⟨hstep, hway⟩)
      cases hstep with
      | direct hmove =>
        have hdirectory := directory_of_move hmove
        obtain ⟨⟩ := Except.ok.inj (hmove.symm.trans (move_empty hdirectory))
        exact ⟨(ih.mp hway).1, fun _ => hdirectory⟩
      | entry hmove | hard hmove | symbolic hmove =>
        cases hmove.symm.trans (move_empty (directory_of_move hmove))
    · rintro ⟨hplace, hdirectory⟩
      have hdirectory := hdirectory (Nat.succ_ne_zero k)
      exact .step (.direct (move_empty hdirectory)) (ih.mpr ⟨hplace, fun _ => hdirectory⟩)

end Ways

section Paths

def pathFault? (path : String) : Option FileError :=
  if Path.hasNul path then some .nulInName
  else if Path.maxBytes < path.utf8ByteSize then some .nameTooLong
  else if path.isEmpty then some .notFound
  else none

def along (fs : FileSystem) (path : String) (names : List String) : Walk :=
  ⟨Path.maxLinks, if Path.isAbsolute path then [] else fs.here, names⟩

variable {creates : Bool} {names : List String}

theorem follow_eq_ok_iff :
    fs.follow creates path names = .ok location ↔
      pathFault? path = none ∧ fs.Way creates (fs.along path names) location := by
  rw [along, ← walk_eq_ok_iff, follow, pathFault?]
  split
  · simp
  · split
    · simp
    · split <;> simp

theorem locate_mono (h : fs.KeepsWays fs') (hlocate : fs.locate creates path = .ok location) :
    fs'.locate creates path = .ok location := by
  obtain ⟨hfault, hway⟩ := follow_eq_ok_iff.mp hlocate
  refine follow_eq_ok_iff.mpr ⟨hfault, ?_⟩
  rw [along, h.here]
  exact hway.mono h

theorem locate_visit (h : fs.locate true path = .ok location) :
    fs.locate false path = .ok location := by
  obtain ⟨hfault, hway⟩ := follow_eq_ok_iff.mp h
  exact follow_eq_ok_iff.mpr ⟨hfault, hway.visit⟩

theorem find?_eq_ok_iff :
    fs.find? path = .ok node ↔
      ∃ location, fs.locate false path = .ok location ∧ fs.node? location = some node := by
  rw [find?, bind_eq_ok_iff]
  refine exists_congr fun location => and_congr_right fun _ => ?_
  cases fs.node? location <;> simp

end Paths

section Changes

theorem makeDirectory_eq {front : List String} {name : String}
    (h : Path.names (Path.dropSlashes path) = front ++ [name]) :
    fs.makeDirectory path = (do
      let above ← fs.follow false path front
      match ← fs.move above name with
      | .direct _ => .error .alreadyExists
      | .entry location =>
        checkName false name []
        if (fs.node? location).isSome || (fs.links.lookup location).isSome then
          .error .alreadyExists
        else
          fs.permit .write above
          .ok (fs.put location .directory)) := by
  have hname : (Path.names (Path.dropSlashes path)).getLast?.getD "" = name := by
    rw [h, List.getLast?_concat, Option.getD_some]
  have hfront : (Path.names (Path.dropSlashes path)).dropLast = front := by
    rw [h, List.dropLast_concat]
  subst hname hfront
  rfl

theorem makeDirectory_eq_ok {front : List String} {name : String}
    (hnames : Path.names (Path.dropSlashes path) = front ++ [name])
    (h : fs.makeDirectory path = .ok fs') :
    ∃ above location, fs.follow false path front = .ok above ∧
      fs.move above name = .ok (.entry location) ∧ checkName false name [] = .ok () ∧
      fs.node? location = none ∧ fs.links.lookup location = none ∧
      fs' = fs.put location .directory := by
  rw [makeDirectory_eq hnames] at h
  obtain ⟨above, hfollow, h⟩ := bind_eq_ok_iff.mp h
  obtain ⟨move, hmove, h⟩ := bind_eq_ok_iff.mp h
  cases move with
  | direct => cases h
  | entry location =>
    obtain ⟨⟨⟩, hname, h⟩ := bind_eq_ok_iff.mp h
    split at h
    · cases h
    · next hfree =>
      obtain ⟨⟨⟩, -, h⟩ := bind_eq_ok_iff.mp h
      simp only [Bool.or_eq_true, not_or, Bool.not_eq_true, Option.isSome_eq_false_iff,
        Option.isNone_iff_eq_none] at hfree
      exact ⟨above, location, hfollow, hmove, hname, hfree.1, hfree.2,
        (Except.ok.inj h).symm⟩

theorem not_directory_of_permitFile (h : fs.permitFile location = .ok ()) :
    fs.node? location ≠ some .directory := by
  intro hdirectory
  rw [permitFile, hdirectory] at h
  cases h

theorem spot_eq_ok_iff :
    fs.spot path = .ok location ↔
      fs.locate true path = .ok location ∧ fs.permitFile location = .ok () := by
  rw [spot, bind_eq_ok_iff]
  constructor
  · rintro ⟨place, hlocate, h⟩
    obtain ⟨⟨⟩, hpermit, heq⟩ := bind_eq_ok_iff.mp h
    obtain rfl := Except.ok.inj heq
    exact ⟨hlocate, hpermit⟩
  · rintro ⟨hlocate, hpermit⟩
    exact ⟨location, hlocate, bind_eq_ok_iff.mpr ⟨(), hpermit, rfl⟩⟩

/-- Nothing has changed but what is held by a file at a location, and the room. -/
structure Touches (fs fs' : FileSystem) (location : Location) : Prop where
  keeps : fs.KeepsWays fs'
  back : fs'.KeepsWays fs
  others : ∀ place, place ≠ location → fs'.node? place = fs.node? place

variable {content : Wire.Bytes}

theorem touches_put (h : fs.node? location ≠ some .directory) (room : Option Nat) :
    fs.Touches { fs.put location (.file content) with room } location := by
  have hput (place : Location) :
      { fs.put location (.file content) with room }.node? place =
        if place = location then some (.file content) else fs.node? place :=
    node?_put (ne_nil_of_not_directory h)
  refine ⟨⟨here_put, links_put, refusals_put, ?_⟩,
    ⟨here_put.symm, links_put.symm, refusals_put.symm, ?_⟩, ?_⟩
  · intro place hplace
    rw [hput, if_neg, hplace]
    rintro rfl
    exact h hplace
  · intro place hplace
    rw [hput] at hplace
    split at hplace
    · cases hplace
    · exact hplace
  · intro place hplace
    rw [hput, if_neg hplace]

/-- How filling a file may end. It fails only for want of room. -/
theorem fill_cases (fs : FileSystem) (location : Location) (content : Wire.Bytes) :
    ∃ kept room, (fs.fill location content).2 =
        { fs.put location (.file kept) with room := room } ∧
      ((fs.fill location content).1 = .ok () ∧ kept = content ∧
          (fs.room = none → room = none) ∨
        (fs.fill location content).1 = .error .noSpace ∧ fs.room ≠ none) := by
  unfold fill
  split
  · next hroom =>
    refine ⟨content, none, ?_, .inl ⟨rfl, rfl, fun _ => rfl⟩⟩
    unfold put
    split <;> simp [hroom]
  · next room hroom =>
    dsimp only
    split
    · exact ⟨content, _, rfl, .inl ⟨rfl, rfl, by simp [hroom]⟩⟩
    · exact ⟨_, _, rfl, .inr ⟨rfl, by simp [hroom]⟩⟩

/-- How writing a file may end. -/
theorem writeFile_cases (fs : FileSystem) (path : String) (content : Wire.Bytes) :
    (∃ e, fs.spot path = .error e ∧ fs.writeFile path content = (.error e, fs)) ∨
    ∃ location, fs.spot path = .ok location ∧
      fs.Touches (fs.writeFile path content).2 location ∧
      ((fs.writeFile path content).1 = .ok () ∧
          (fs.writeFile path content).2.node? location = some (.file content) ∧
          (fs.room = none → (fs.writeFile path content).2.room = none) ∨
        (fs.writeFile path content).1 = .error .noSpace ∧ fs.room ≠ none) := by
  rw [writeFile]
  cases hspot : fs.spot path with
  | error e => exact .inl ⟨e, rfl, rfl⟩
  | ok location =>
    have hnode := not_directory_of_permitFile (spot_eq_ok_iff.mp hspot).2
    obtain ⟨kept, room, hfill, hend⟩ := fs.fill_cases location content
    refine .inr ⟨location, rfl, ?_, ?_⟩
    · rw [hfill]
      exact touches_put hnode room
    · refine hend.imp ?_ id
      rintro ⟨hok, rfl, hroom⟩
      rw [hfill]
      refine ⟨hok, ?_, hroom⟩
      exact (node?_put (ne_nil_of_not_directory hnode)).trans (if_pos rfl)

end Changes

end PipelinePlan.FileSystem
