import PipelinePlan.Host.Path
import PipelinePlan.Proofs.Naming
import PipelinePlan.Proofs.Text.Pieces

namespace PipelinePlan

namespace Text

variable {α : Type} {p : α → Bool}

theorem pieces_append_replicate {c : α} (hc : p c = true) (cs : List α) (k : Nat) :
    pieces p (cs ++ List.replicate k c) = pieces p cs ++ List.replicate k [] := by
  induction k with
  | zero => simp
  | succ k ih =>
    rw [List.replicate_succ', ← List.append_assoc, pieces_append_cons hc, ih,
      List.replicate_succ', ← List.append_assoc]
    rfl

theorem intercalate_pieces [BEq α] [LawfulBEq α] (c : α) (cs : List α) :
    [c].intercalate (pieces (· == c) cs) = cs := by
  induction cs with
  | nil => rfl
  | cons d cs ih =>
    have hne := pieces_ne_nil (· == c) cs
    rw [pieces]
    split
    · next hd =>
      rw [List.intercalate_cons_of_ne_nil hne, ih, eq_of_beq hd]
      rfl
    · cases hpieces : pieces (· == c) cs with
      | nil => exact absurd hpieces hne
      | cons piece rest =>
        rw [hpieces] at ih
        rw [← ih]
        cases rest <;> simp

end Text

namespace Path

variable {path parent name dir : String}

section Names

theorem names_ne_nil (path : String) : names path ≠ [] := by
  rw [names, Ne, List.map_eq_nil_iff]
  exact Text.pieces_ne_nil _ _

theorem names_append (before after : String) :
    names (before ++ "/" ++ after) = names before ++ names after := by
  have hchars : (before ++ "/" ++ after).toList = before.toList ++ '/' :: after.toList := by
    simp
  rw [names, hchars, Text.pieces_append_cons (by simp), List.map_append]
  rfl

theorem intercalate_names (path : String) : "/".intercalate (names path) = path := by
  have hchars : (names path).map String.toList = Text.pieces (· == '/') path.toList := by
    rw [names, List.map_map]
    exact (List.map_congr_left fun _ _ => String.toList_ofList).trans (List.map_id _)
  rw [← String.toList_inj, String.toList_intercalate, hchars]
  exact Text.intercalate_pieces '/' path.toList

/-- Slashes at the end of a path are empty names after the others. -/
theorem names_dropSlashes (path : String) :
    ∃ k, names path = names (dropSlashes path) ++ List.replicate k "" := by
  have hchars : path.toList =
      path.toList.rdropWhile (· == '/') ++ path.toList.rtakeWhile (· == '/') :=
    List.rdropWhile_append_rtakeWhile.symm
  have hslashes : path.toList.rtakeWhile (· == '/') =
      List.replicate (path.toList.rtakeWhile (· == '/')).length '/' := by
    apply List.eq_replicate_of_mem
    intro c hc
    simpa using List.mem_rtakeWhile_imp hc
  unfold dropSlashes
  dsimp only
  split
  · exact ⟨0, by simp⟩
  · refine ⟨(path.toList.rtakeWhile (· == '/')).length, ?_⟩
    rw [names, names, String.toList_ofList]
    nth_rewrite 1 [hchars]
    nth_rewrite 1 [hslashes]
    rw [Text.pieces_append_replicate (by simp), List.map_append, List.map_replicate]
    rfl

theorem exists_last_name (path : String) : ∃ front name k,
    names (dropSlashes path) = front ++ [name] ∧
      names path = front ++ name :: List.replicate k "" := by
  obtain ⟨k, hnames⟩ := names_dropSlashes path
  obtain ⟨front, name, hlast⟩ := List.eq_nil_or_concat (names (dropSlashes path)) |>.resolve_left
    (names_ne_nil _)
  rw [List.concat_eq_append] at hlast
  refine ⟨front, name, k, hlast, ?_⟩
  rw [hnames, hlast, List.append_assoc, List.singleton_append]

theorem isAbsolute_append (h : path ≠ "") (rest : String) :
    isAbsolute (path ++ rest) = isAbsolute path := by
  have hne : path.toList ≠ [] := by simpa using h
  unfold isAbsolute Text.startsWith
  rw [String.toList_append]
  cases hchars : path.toList with
  | nil => exact absurd hchars hne
  | cons c cs => rfl

end Names

section Below

def lead (dir : String) : String :=
  if dir.isEmpty then "" else if Text.endsWith "/" dir then dir else dir ++ "/"

theorem isAbsolute_of_not_mem (h : '/' ∉ name.toList) : isAbsolute name = false := by
  rw [Bool.eq_false_iff]
  intro habsolute
  exact h ((Text.startsWith_iff.mp habsolute).subset (by decide))

theorem join_eq (h : '/' ∉ name.toList) : join dir name = lead dir ++ name := by
  unfold join lead
  rw [isAbsolute_of_not_mem h, Bool.false_or]
  split
  · exact (String.empty_append).symm
  · split <;> rfl

theorem join_inj {other : String} (h : '/' ∉ name.toList) (hother : '/' ∉ other.toList) :
    join dir name = join dir other ↔ name = other := by
  rw [join_eq h, join_eq hother, String.append_right_inj]

end Below

section Above

theorem dropIdleEnd_prefix (list : List String) : dropIdleEnd list <+: list :=
  List.rdropWhile_prefix isIdle list

/-- The names that are kept of a path are in front of at least one that is not. -/
theorem exists_dropped {list : List String} (h : (dropIdleEnd list).isEmpty = false) :
    ∃ dropped, dropped ≠ [] ∧ list = dropIdleEnd (dropIdleEnd list).dropLast ++ dropped := by
  have hkept := dropIdleEnd_prefix (dropIdleEnd list).dropLast
  have hbody := dropIdleEnd_prefix list
  obtain ⟨dropped, hdropped⟩ := (hkept.trans (List.dropLast_prefix _)).trans hbody
  refine ⟨dropped, ?_, hdropped.symm⟩
  rintro rfl
  have hpos : 0 < (dropIdleEnd list).length := by
    rw [List.length_pos_iff]
    simpa using h
  have hshort := hkept.length_le
  have hlong := hbody.length_le
  rw [List.append_nil] at hdropped
  rw [hdropped, List.length_dropLast] at hshort
  omega

theorem names_of_isAbsolute (h : isAbsolute path = true) : ∃ rest, names path = "" :: rest := by
  obtain ⟨rest, hrest⟩ := Text.startsWith_iff.mp h
  have hpath : path = "" ++ "/" ++ String.ofList rest := by
    rw [← String.toList_inj, ← hrest]
    simp
  rw [hpath, names_append]
  exact ⟨_, rfl⟩

theorem eq_intercalate_append {kept dropped : List String} (hkept : kept ≠ [])
    (hdropped : dropped ≠ []) (hnames : names path = kept ++ dropped) :
    ∃ rest, path = "/".intercalate kept ++ "/" ++ rest := by
  have hpath := intercalate_names path
  rw [hnames, String.intercalate_append_of_ne_nil hkept hdropped] at hpath
  exact ⟨_, hpath.symm⟩

/-- A path goes on behind its parent. -/
theorem parent?_cases (h : parent? path = some parent) :
    parent = "" ∨ parent = "/" ∨ ∃ rest, path = parent ++ "/" ++ rest := by
  unfold parent? at h
  cases hnames : names path with
  | nil => exact absurd hnames (names_ne_nil path)
  | cons first rest =>
    simp only [hnames] at h
    -- Absolute, relative with a dot in front, which is kept, and relative without.
    split_ifs at h with habsolute hbody hdot hbody hbody
    · obtain ⟨dropped, hdropped, hrest⟩ := exists_dropped (Bool.eq_false_iff.mpr hbody)
      obtain rfl := Option.some.inj h
      by_cases hkept : dropIdleEnd (dropIdleEnd rest).dropLast = []
      · rw [hkept]
        exact .inr (.inl rfl)
      · obtain ⟨others, hothers⟩ := names_of_isAbsolute habsolute
        obtain ⟨rfl, -⟩ := List.cons.inj (hnames.symm.trans hothers)
        have hpath := eq_intercalate_append (List.cons_ne_nil "" _) hdropped
          (hnames.trans (congrArg ("" :: ·) hrest))
        rw [String.intercalate_cons_of_ne_nil hkept, String.empty_append] at hpath
        exact .inr (.inr hpath)
    · exact .inl (Option.some.inj h).symm
    · obtain ⟨dropped, hdropped, hrest⟩ := exists_dropped (Bool.eq_false_iff.mpr hbody)
      obtain rfl := Option.some.inj h
      rw [beq_iff_eq] at hdot
      rw [hdot] at hnames
      exact .inr (.inr (eq_intercalate_append (List.cons_ne_nil "." _) hdropped
        (hnames.trans (congrArg ("." :: ·) hrest))))
    · obtain ⟨dropped, hdropped, hrest⟩ := exists_dropped (Bool.eq_false_iff.mpr hbody)
      obtain rfl := Option.some.inj h
      by_cases hkept : dropIdleEnd (dropIdleEnd (first :: rest)).dropLast = []
      · rw [hkept]
        exact .inl String.intercalate_nil
      · exact .inr (.inr (eq_intercalate_append hkept hdropped (hnames.trans hrest)))

end Above

end Path

end PipelinePlan
