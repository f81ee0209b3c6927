import Mathlib
import PipelinePlan.Text.EditDistance

namespace PipelinePlan.Text

variable {α : Type}

/-- One element is inserted, removed or replaced. -/
inductive Edit : List α → List α → Prop
  | insert (before after : List α) (x : α) : Edit (before ++ after) (before ++ x :: after)
  | remove (before after : List α) (x : α) : Edit (before ++ x :: after) (before ++ after)
  | replace (before after : List α) (x y : α) :
      Edit (before ++ x :: after) (before ++ y :: after)

inductive Edits : Nat → List α → List α → Prop
  | refl (xs : List α) : Edits 0 xs xs
  | step {n : Nat} {xs ys zs : List α} (h : Edits n xs ys) (hedit : Edit ys zs) :
      Edits (n + 1) xs zs

/-- An alignment of two lists with so many places at which they differ. It goes through both lists
once, while edits may come in any order and undo each other. -/
inductive Aligned : Nat → List α → List α → Prop
  | nil : Aligned 0 [] []
  | insert {n : Nat} {xs ys : List α} (y : α) (h : Aligned n xs ys) : Aligned (n + 1) xs (y :: ys)
  | remove {n : Nat} {xs ys : List α} (x : α) (h : Aligned n xs ys) : Aligned (n + 1) (x :: xs) ys
  | replace {n : Nat} {xs ys : List α} (x y : α) (h : Aligned n xs ys) :
      Aligned (n + 1) (x :: xs) (y :: ys)
  | keep {n : Nat} {xs ys : List α} (x : α) (h : Aligned n xs ys) : Aligned n (x :: xs) (x :: ys)

/-- The least number of places at which two lists differ. -/
def Nearest (xs ys : List α) (n : Nat) : Prop := IsLeast {m | Aligned m xs ys} n

section Edits

variable {n : Nat} {xs ys zs : List α}

theorem Edit.cons (x : α) (h : Edit xs ys) : Edit (x :: xs) (x :: ys) := by
  cases h with
  | insert before after y => exact .insert (x :: before) after y
  | remove before after y => exact .remove (x :: before) after y
  | replace before after y z => exact .replace (x :: before) after y z

/-- An edit changes the front of a list or leaves its first element. -/
theorem Edit.cons_cases {y : α} (h : Edit (y :: ys) zs) :
    (∃ z, zs = z :: y :: ys) ∨ zs = ys ∨ (∃ z, zs = z :: ys) ∨
      ∃ rest, zs = y :: rest ∧ Edit ys rest := by
  generalize hlist : y :: ys = whole at h
  cases h with
  | insert before after z =>
    cases before with
    | nil =>
      rw [List.nil_append] at hlist
      exact .inl ⟨z, hlist ▸ rfl⟩
    | cons b before =>
      obtain ⟨rfl, rfl⟩ := List.cons.inj hlist
      exact .inr (.inr (.inr ⟨_, rfl, .insert before after z⟩))
  | remove before after z =>
    cases before with
    | nil =>
      obtain ⟨rfl, rfl⟩ := List.cons.inj hlist
      exact .inr (.inl rfl)
    | cons b before =>
      obtain ⟨rfl, rfl⟩ := List.cons.inj hlist
      exact .inr (.inr (.inr ⟨_, rfl, .remove before after z⟩))
  | replace before after z w =>
    cases before with
    | nil =>
      obtain ⟨rfl, rfl⟩ := List.cons.inj hlist
      exact .inr (.inr (.inl ⟨w, rfl⟩))
    | cons b before =>
      obtain ⟨rfl, rfl⟩ := List.cons.inj hlist
      exact .inr (.inr (.inr ⟨_, rfl, .replace before after z w⟩))

theorem Edit.nil_cases (h : Edit [] zs) : ∃ z, zs = [z] := by
  generalize hlist : [] = whole at h
  cases h with
  | insert before after z =>
    obtain ⟨rfl, rfl⟩ := List.append_eq_nil_iff.mp hlist.symm
    exact ⟨z, rfl⟩
  | remove before after z => simp at hlist
  | replace before after z w => simp at hlist

theorem Edits.cons (x : α) (h : Edits n xs ys) : Edits n (x :: xs) (x :: ys) := by
  induction h with
  | refl xs => exact .refl (x :: xs)
  | step _ hedit ih => exact .step ih (hedit.cons x)

theorem Aligned.edits (h : Aligned n xs ys) : Edits n xs ys := by
  induction h with
  | nil => exact .refl []
  | @insert n xs ys y _ ih => exact .step ih (.insert [] ys y)
  | @remove n xs ys x _ ih => exact .step (ih.cons x) (.remove [] ys x)
  | @replace n xs ys x y _ ih => exact .step (ih.cons x) (.replace [] ys x y)
  | keep x _ ih => exact ih.cons x

theorem Aligned.refl (xs : List α) : Aligned 0 xs xs := by
  induction xs with
  | nil => exact .nil
  | cons x xs ih => exact .keep x ih

/-- One more edit costs an alignment at most one more place. -/
theorem Aligned.exists_of_edit (h : Aligned n xs ys) (hedit : Edit ys zs) :
    ∃ m ≤ n + 1, Aligned m xs zs := by
  induction h generalizing zs with
  | nil =>
    obtain ⟨z, rfl⟩ := hedit.nil_cases
    exact ⟨1, by omega, .insert z .nil⟩
  | @insert n xs ys y h ih =>
    rcases hedit.cons_cases with ⟨z, rfl⟩ | rfl | ⟨z, rfl⟩ | ⟨rest, rfl, hrest⟩
    · exact ⟨n + 2, by omega, .insert z (.insert y h)⟩
    · exact ⟨n, by omega, h⟩
    · exact ⟨n + 1, by omega, .insert z h⟩
    · obtain ⟨m, hm, haligned⟩ := ih hrest
      exact ⟨m + 1, by omega, .insert y haligned⟩
  | remove x h ih =>
    obtain ⟨m, hm, haligned⟩ := ih hedit
    exact ⟨m + 1, by omega, .remove x haligned⟩
  | @replace n xs ys x y h ih =>
    rcases hedit.cons_cases with ⟨z, rfl⟩ | rfl | ⟨z, rfl⟩ | ⟨rest, rfl, hrest⟩
    · exact ⟨n + 2, by omega, .insert z (.replace x y h)⟩
    · exact ⟨n + 1, by omega, .remove x h⟩
    · exact ⟨n + 1, by omega, .replace x z h⟩
    · obtain ⟨m, hm, haligned⟩ := ih hrest
      exact ⟨m + 1, by omega, .replace x y haligned⟩
  | @keep n xs ys x h ih =>
    rcases hedit.cons_cases with ⟨z, rfl⟩ | rfl | ⟨z, rfl⟩ | ⟨rest, rfl, hrest⟩
    · exact ⟨n + 1, by omega, .insert z (.keep x h)⟩
    · exact ⟨n + 1, by omega, .remove x h⟩
    · exact ⟨n + 1, by omega, .replace x z h⟩
    · obtain ⟨m, hm, haligned⟩ := ih hrest
      exact ⟨m, hm, .keep x haligned⟩

theorem Edits.exists_aligned (h : Edits n xs ys) : ∃ m ≤ n, Aligned m xs ys := by
  induction h with
  | refl xs => exact ⟨0, by omega, .refl xs⟩
  | step _ hedit ih =>
    obtain ⟨m, hm, haligned⟩ := ih
    obtain ⟨k, hk, haligned'⟩ := haligned.exists_of_edit hedit
    exact ⟨k, by omega, haligned'⟩

theorem Nearest.isLeast_edits (h : Nearest xs ys n) : IsLeast {m | Edits m xs ys} n := by
  refine ⟨h.1.edits, ?_⟩
  intro m hm
  obtain ⟨k, hk, haligned⟩ := Edits.exists_aligned hm
  exact (h.2 haligned).trans hk

end Edits

section Ends

variable {m n : Nat} {xs ys : List α}

theorem Aligned.append {xs' ys' : List α} (h : Aligned m xs ys) (h' : Aligned n xs' ys') :
    Aligned (m + n) (xs ++ xs') (ys ++ ys') := by
  induction h with
  | nil => simpa using h'
  | insert y _ ih => exact Nat.add_right_comm .. ▸ .insert y ih
  | remove x _ ih => exact Nat.add_right_comm .. ▸ .remove x ih
  | replace x y _ ih => exact Nat.add_right_comm .. ▸ .replace x y ih
  | keep x _ ih => exact .keep x ih

theorem Aligned.reverse (h : Aligned n xs ys) : Aligned n xs.reverse ys.reverse := by
  induction h with
  | nil => exact .nil
  | insert y _ ih => simpa using ih.append (.insert y .nil)
  | remove x _ ih => simpa using ih.append (.remove x .nil)
  | replace x y _ ih => simpa using ih.append (.replace x y .nil)
  | keep x _ ih => simpa using ih.append (.keep x .nil)

/-- An alignment ends with an insertion, a removal, a replacement or a common element. -/
theorem Aligned.concat_cases {x y : α} (h : Aligned n (xs ++ [x]) (ys ++ [y])) :
    (∃ m, n = m + 1 ∧ Aligned m (xs ++ [x]) ys) ∨ (∃ m, n = m + 1 ∧ Aligned m xs (ys ++ [y])) ∨
      (∃ m, n = m + 1 ∧ Aligned m xs ys) ∨ x = y ∧ Aligned n xs ys := by
  have hreverse := h.reverse
  rw [List.reverse_concat, List.reverse_concat] at hreverse
  cases hreverse with
  | insert _ h => exact .inl ⟨_, rfl, by simpa using h.reverse⟩
  | remove _ h => exact .inr (.inl ⟨_, rfl, by simpa using h.reverse⟩)
  | replace _ _ h => exact .inr (.inr (.inl ⟨_, rfl, by simpa using h.reverse⟩))
  | keep _ h => exact .inr (.inr (.inr ⟨rfl, by simpa using h.reverse⟩))

theorem Aligned.symm (h : Aligned n xs ys) : Aligned n ys xs := by
  induction h with
  | nil => exact .nil
  | insert y _ ih => exact .remove y ih
  | remove x _ ih => exact .insert x ih
  | replace x y _ ih => exact .replace y x ih
  | keep x _ ih => exact .keep x ih

theorem Aligned.length_le (h : Aligned n xs ys) : ys.length ≤ n + xs.length := by
  induction h with
  | nil => simp
  | _ =>
    simp only [List.length_cons]
    omega

theorem nearest_nil_left (ys : List α) : Nearest [] ys ys.length := by
  constructor
  · induction ys with
    | nil => exact .nil
    | cons y ys ih => exact .insert y ih
  · intro m hm
    simpa using Aligned.length_le hm

theorem nearest_nil_right (xs : List α) : Nearest xs [] xs.length := by
  obtain ⟨haligned, hleast⟩ := nearest_nil_left xs
  exact ⟨haligned.symm, fun m hm => hleast (Aligned.symm hm)⟩

/-- The entry of the table at the ends of two beginnings, from the three entries beside it. -/
theorem Nearest.concat [BEq α] [LawfulBEq α] {x y : α} {corner above left : Nat}
    (hcorner : Nearest xs ys corner) (habove : Nearest xs (ys ++ [y]) above)
    (hleft : Nearest (xs ++ [x]) ys left) :
    Nearest (xs ++ [x]) (ys ++ [y])
      (min (min (above + 1) (left + 1)) (corner + if x == y then 0 else 1)) := by
  constructor
  · have hinsert : Aligned (left + 1) (xs ++ [x]) (ys ++ [y]) := by
      simpa using hleft.1.append (.insert y .nil)
    have hremove : Aligned (above + 1) (xs ++ [x]) (ys ++ [y]) := by
      simpa using habove.1.append (.remove x .nil)
    have hlast : Aligned (corner + if x == y then 0 else 1) (xs ++ [x]) (ys ++ [y]) := by
      split
      · next hsame =>
        obtain rfl := eq_of_beq hsame
        exact hcorner.1.append (.keep x .nil)
      · exact hcorner.1.append (.replace x y .nil)
    apply min_rec'
    · apply min_rec'
      · exact hremove
      · exact hinsert
    · exact hlast
  · intro m hm
    rcases Aligned.concat_cases hm with ⟨k, rfl, h⟩ | ⟨k, rfl, h⟩ | ⟨k, rfl, h⟩ | ⟨rfl, h⟩
    · have := hleft.2 h
      omega
    · have := habove.2 h
      omega
    · have := hcorner.2 h
      split <;> omega
    · have := hcorner.2 h
      simp only [beq_self_eq_true, if_true]
      omega

end Ends

section Table

/-- The entries of the table for `xs` and all longer beginnings of a list that starts with `ys`. -/
def Entries (xs ys : List α) : List α → List Nat → Prop
  | [], [] => True
  | y :: rest, n :: entries => Nearest xs (ys ++ [y]) n ∧ Entries xs (ys ++ [y]) rest entries
  | _, _ => False

def Row (xs ys : List α) (row : List Nat) : Prop :=
  ∃ entries, row = xs.length :: entries ∧ Entries xs [] ys entries

theorem entries_nextEntries [BEq α] [LawfulBEq α] {xs ys rest : List α} {x : α} {corner left : Nat}
    {entries : List Nat} (hcorner : Nearest xs ys corner) (hleft : Nearest (xs ++ [x]) ys left)
    (h : Entries xs ys rest entries) :
    Entries (xs ++ [x]) ys rest (nextEntries x corner left (rest.zip entries)) := by
  induction rest generalizing ys corner left entries with
  | nil => simp [nextEntries, Entries]
  | cons y rest ih =>
    cases entries with
    | nil => exact h.elim
    | cons above entries =>
      obtain ⟨habove, hentries⟩ := h
      have hhere := hcorner.concat habove hleft
      exact ⟨hhere, ih habove hhere hentries⟩

theorem row_nextRow [BEq α] [LawfulBEq α] {xs ys : List α} {row : List Nat} (x : α)
    (h : Row xs ys row) : Row (xs ++ [x]) ys (nextRow ys row x) := by
  obtain ⟨entries, rfl, hentries⟩ := h
  have hfirst := nearest_nil_right (xs ++ [x])
  rw [List.length_append, List.length_singleton] at hfirst
  refine ⟨_, ?_, entries_nextEntries (nearest_nil_right xs) hfirst hentries⟩
  simp [nextRow]

theorem row_foldl [BEq α] [LawfulBEq α] {before ys : List α} {row : List Nat} (xs : List α)
    (h : Row before ys row) : Row (before ++ xs) ys (xs.foldl (nextRow ys) row) := by
  induction xs generalizing before row with
  | nil => simpa using h
  | cons x xs ih => simpa using ih (row_nextRow x h)

theorem entries_range (ys rest : List α) :
    Entries [] ys rest (List.range' (ys.length + 1) rest.length) := by
  induction rest generalizing ys with
  | nil => trivial
  | cons y rest ih =>
    have hlength : (ys ++ [y]).length = ys.length + 1 := by simp
    have hfirst := nearest_nil_left (ys ++ [y])
    have hrest := ih (ys ++ [y])
    rw [hlength] at hfirst hrest
    exact ⟨hfirst, hrest⟩

theorem row_range (ys : List α) : Row [] ys (List.range (ys.length + 1)) := by
  refine ⟨List.range' 1 ys.length, ?_, entries_range [] ys⟩
  rw [List.range_eq_range', List.range'_succ]
  rfl

theorem nearest_getLast {xs ys rest : List α} {first : Nat} {entries : List Nat}
    (hfirst : Nearest xs ys first) (h : Entries xs ys rest entries) :
    Nearest xs (ys ++ rest) ((first :: entries).getLast?.getD 0) := by
  induction rest generalizing ys first entries with
  | nil =>
    cases entries with
    | nil => simpa using hfirst
    | cons => exact h.elim
  | cons y rest ih =>
    cases entries with
    | nil => exact h.elim
    | cons n entries =>
      obtain ⟨hn, hentries⟩ := h
      simpa using ih hn hentries

end Table

/-- No fewer edits turn one list into the other than the distance says, and so many do. -/
theorem isLeast_editDistance [BEq α] [LawfulBEq α] (xs ys : List α) :
    IsLeast {n | Edits n xs ys} (editDistance xs ys) := by
  obtain ⟨entries, hrow, hentries⟩ := row_foldl xs (row_range ys)
  rw [List.nil_append] at hrow hentries
  rw [editDistance, hrow]
  exact (nearest_getLast (nearest_nil_right xs) hentries).isLeast_edits

end PipelinePlan.Text
