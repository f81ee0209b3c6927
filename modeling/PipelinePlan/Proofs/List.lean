import Mathlib

namespace PipelinePlan

variable {α β γ : Type}

theorem find?_of_unique {p : α → Bool} {l : List α} {a : α} (ha : a ∈ l)
    (hp : p a = true) (h : ∀ b ∈ l, p b = true → b = a) : l.find? p = some a := by
  obtain ⟨b, hb⟩ := Option.isSome_iff_exists.mp (List.find?_isSome.mpr ⟨a, ha, hp⟩)
  rw [hb, h b (List.mem_of_find?_eq_some hb) (List.find?_some hb)]

theorem find?_eq_of_perm {p : α → Bool} {l l' : List α} (h : l.Perm l')
    (hunique : ∀ a ∈ l, ∀ b ∈ l, p a = true → p b = true → a = b) : l.find? p = l'.find? p := by
  cases hfind : l.find? p with
  | none =>
    rw [List.find?_eq_none] at hfind
    symm
    rw [List.find?_eq_none]
    intro a ha
    exact hfind a (h.mem_iff.mpr ha)
  | some a =>
    have ha := List.mem_of_find?_eq_some hfind
    have hp := List.find?_some hfind
    symm
    apply find?_of_unique (h.mem_iff.mp ha) hp
    intro b hb hpb
    exact hunique b (h.mem_iff.mpr hb) a ha hpb hp

theorem findIdx?_concat (p : α → Bool) (l : List α) (a : α) :
    (l ++ [a]).findIdx? p = (l.findIdx? p).or (if p a then some l.length else none) := by
  rw [List.findIdx?_append, List.findIdx?_singleton]
  split <;> simp

theorem eq_filter_of_sublist {p : α → Bool} {part whole : List α}
    (h : part.Sublist whole) (hwhole : whole.Nodup)
    (hp : ∀ a ∈ whole, a ∈ part ↔ p a = true) : part = whole.filter p := by
  induction h with
  | slnil => rfl
  | @cons part whole a h ih =>
    obtain ⟨ha, hwhole⟩ := List.nodup_cons.mp hwhole
    have hdrop : ¬p a = true := by
      rw [← hp a List.mem_cons_self]
      exact fun hmem => ha (h.mem hmem)
    rw [List.filter_cons_of_neg hdrop]
    exact ih hwhole fun b hb => hp b (List.mem_cons_of_mem _ hb)
  | @cons_cons part whole a h ih =>
    obtain ⟨ha, hwhole⟩ := List.nodup_cons.mp hwhole
    have hkeep : p a = true := (hp a List.mem_cons_self).mp List.mem_cons_self
    rw [List.filter_cons_of_pos hkeep]
    congr 1
    apply ih hwhole
    intro b hb
    have hne : b ≠ a := fun heq => ha (heq ▸ hb)
    rw [← hp b (List.mem_cons_of_mem _ hb), List.mem_cons, or_iff_right hne]

theorem eq_singleton_iff {l : List α} {a : α} : l = [a] ↔ l.length = 1 ∧ a ∈ l := by
  constructor
  · rintro rfl
    simp
  · rintro ⟨hlength, hmem⟩
    obtain ⟨b, rfl⟩ := List.length_eq_one_iff.mp hlength
    rw [List.mem_singleton.mp hmem]

theorem exists_cons_cons_of_one_lt_length {l : List α} (h : 1 < l.length) :
    ∃ a b rest, l = a :: b :: rest := by
  match l, h with
  | a :: b :: rest, _ => exact ⟨a, b, rest, rfl⟩

theorem insertIdx_length_append (first second : List α) (a : α) :
    (first ++ second).insertIdx first.length a = first ++ a :: second := by
  induction first with
  | nil => rfl
  | cons b first ih => simp [List.insertIdx_succ_cons, ih]

theorem getElem?_filterMap_of_isSome {f : α → Option β} {l : List α}
    (h : ∀ a ∈ l, (f a).isSome = true) (k : Nat) : (l.filterMap f)[k]? = l[k]?.bind f := by
  induction l generalizing k with
  | nil => rfl
  | cons a l ih =>
    obtain ⟨ha, hl⟩ := List.forall_mem_cons.mp h
    obtain ⟨b, hb⟩ := Option.isSome_iff_exists.mp ha
    rw [List.filterMap_cons_some hb]
    cases k with
    | zero => exact hb.symm
    | succ k => exact ih hl k

/-- An end without some character lies behind every occurrence of it. -/
theorem suffix_append_cons_iff {part : List α} {c : α} (h : c ∉ part)
    (before after : List α) : part <:+ before ++ c :: after ↔ part <:+ after := by
  constructor
  · intro hpart
    rcases List.suffix_or_suffix_of_suffix hpart (List.suffix_append before (c :: after)) with
      hshort | hlong
    · rcases List.suffix_cons_iff.mp hshort with rfl | hafter
      · exact absurd List.mem_cons_self h
      · exact hafter
    · exact absurd (hlong.mem List.mem_cons_self) h
  · intro hpart
    exact hpart.trans ((List.suffix_cons c after).trans (List.suffix_append before _))

section Places

variable [BEq α] [LawfulBEq α] [BEq β] [LawfulBEq β] {a b : α}

/-- Which of two members comes first does not depend on members that are left out. -/
theorem idxOf_filter_lt_iff {p : α → Bool} (ha : p a = true) (hb : p b = true) (l : List α) :
    (l.filter p).idxOf a < (l.filter p).idxOf b ↔ l.idxOf a < l.idxOf b := by
  induction l with
  | nil => rfl
  | cons x l ih =>
    by_cases hx : p x = true
    · rw [List.filter_cons_of_pos hx]
      simp only [List.idxOf_cons]
      cases hxa : x == a <;> cases hxb : x == b <;> simp [ih]
    · have hxa : (x == a) = false := by
        rw [beq_eq_false_iff_ne]
        rintro rfl
        exact hx ha
      have hxb : (x == b) = false := by
        rw [beq_eq_false_iff_ne]
        rintro rfl
        exact hx hb
      rw [List.filter_cons_of_neg hx, ih]
      simp [List.idxOf_cons, hxa, hxb]

theorem idxOf_map_of_injective {f : α → β} (hf : Function.Injective f) (l : List α) :
    (l.map f).idxOf (f a) = l.idxOf a := by
  induction l with
  | nil => rfl
  | cons x l ih =>
    have hbeq : (f x == f a) = (x == a) := by
      rw [Bool.eq_iff_iff, beq_iff_eq, beq_iff_eq, hf.eq_iff]
    rw [List.map_cons, List.idxOf_cons, List.idxOf_cons, hbeq, ih]

end Places

theorem lt_iff_of_getElem?_sorted {l : List Nat} (h : l.Pairwise (· < ·)) {k k' i j : Nat}
    (hi : l[k]? = some i) (hj : l[k']? = some j) : k' < k ↔ j < i := by
  obtain ⟨hk, rfl⟩ := List.getElem?_eq_some_iff.mp hi
  obtain ⟨hk', rfl⟩ := List.getElem?_eq_some_iff.mp hj
  exact h.sortedLT.getElem_lt_getElem_iff.symm

theorem idxOf_lt_of_sublist [DecidableEq α] {l : List α} (hl : l.Nodup) {a b : α}
    (h : [a, b].Sublist l) : l.idxOf a < l.idxOf b := by
  have hsorted : l.Pairwise fun a b => l.idxOf a < l.idxOf b := by
    rw [List.pairwise_iff_getElem]
    intro i j hi hj hij
    rwa [hl.idxOf_getElem, hl.idxOf_getElem]
  exact List.pairwise_iff_forall_sublist.mp hsorted h

/-- What is listed earlier comes earlier in every part of the list. -/
theorem mem_before_iff [DecidableEq α] {l before rest : List α} {a b : α}
    (hl : l.Nodup) (hpart : (before ++ b :: rest).Sublist l) (ha : a ∈ before ++ b :: rest) :
    a ∈ before ↔ l.idxOf a < l.idxOf b := by
  constructor
  · intro hbefore
    apply idxOf_lt_of_sublist hl
    exact ((List.singleton_sublist.mpr hbefore).append
      ((List.nil_sublist rest).cons_cons b)).trans hpart
  · intro hlt
    rcases List.mem_append.mp ha with hbefore | hrest
    · exact hbefore
    · rcases List.mem_cons.mp hrest with rfl | hrest
      · exact absurd hlt (Nat.lt_irrefl _)
      · have hgt : l.idxOf b < l.idxOf a := idxOf_lt_of_sublist hl
          (((List.singleton_sublist.mpr hrest).cons_cons b).trans
            ((List.sublist_append_right before _).trans hpart))
        omega

section Related

variable {r : α → β → Prop} {xs : List α} {ys : List β}

theorem map_eq_of_forall₂ {r : α → β → Prop} {f : α → γ} {g : β → γ} {xs : List α} {ys : List β}
    (h : List.Forall₂ r xs ys) (hr : ∀ x y, r x y → f x = g y) : xs.map f = ys.map g := by
  induction h with
  | nil => rfl
  | cons hxy _ ih => rw [List.map_cons, List.map_cons, hr _ _ hxy, ih]

theorem exists_of_mem_forall₂ {r : α → β → Prop} {xs : List α} {ys : List β}
    (h : List.Forall₂ r xs ys) {y : β} (hy : y ∈ ys) : ∃ x ∈ xs, r x y := by
  induction h with
  | nil => cases hy
  | @cons a b _ _ hab _ ih =>
    rcases List.mem_cons.mp hy with rfl | hy
    · exact ⟨a, List.mem_cons_self, hab⟩
    · obtain ⟨x, hx, hxy⟩ := ih hy
      exact ⟨x, List.mem_cons_of_mem a hx, hxy⟩

theorem getElem?_of_forall₂ {r : α → β → Prop} {xs : List α} {ys : List β}
    (h : List.Forall₂ r xs ys) (i : Nat) :
    xs[i]? = none ∧ ys[i]? = none ∨ ∃ x y, xs[i]? = some x ∧ ys[i]? = some y ∧ r x y := by
  induction h generalizing i with
  | nil => exact .inl ⟨rfl, rfl⟩
  | @cons x y _ _ hxy _ ih =>
    cases i with
    | zero => exact .inr ⟨x, y, rfl, rfl, hxy⟩
    | succ i => exact ih i

end Related

section Ends

variable {r : α → α → Prop}

theorem head?_eq_some_iff_of_pairwise {l : List α} (h : l.Pairwise r)
    (hr : ∀ a b, r a b → ¬r b a) {a : α} :
    l.head? = some a ↔ a ∈ l ∧ ∀ b ∈ l, ¬r b a := by
  cases l with
  | nil => simp
  | cons first rest =>
    have hrest := (List.pairwise_cons.mp h).1
    rw [List.head?_cons, Option.some.injEq]
    constructor
    · rintro rfl
      refine ⟨List.mem_cons_self, ?_⟩
      intro b hb hba
      rcases List.mem_cons.mp hb with rfl | hb
      · exact hr _ _ hba hba
      · exact hr _ _ (hrest b hb) hba
    · rintro ⟨ha, hnone⟩
      rcases List.mem_cons.mp ha with rfl | ha
      · rfl
      · exact absurd (hrest a ha) (hnone first List.mem_cons_self)

theorem getLast?_eq_some_iff_of_pairwise {l : List α} (h : l.Pairwise r)
    (hr : ∀ a b, r a b → ¬r b a) {a : α} :
    l.getLast? = some a ↔ a ∈ l ∧ ∀ b ∈ l, ¬r a b := by
  have hreverse : l.reverse.Pairwise fun a b => r b a := List.pairwise_reverse.mpr h
  rw [List.getLast?_eq_head?_reverse,
    head?_eq_some_iff_of_pairwise hreverse fun a b hba => hr b a hba]
  simp only [List.mem_reverse]

end Ends

section Firsts

variable {r : α → α → Bool}

theorem eraseDupsBy_loop_append (l m seen : List α) :
    List.eraseDupsBy.loop r (l ++ m) seen =
      List.eraseDupsBy.loop r m (List.eraseDupsBy.loop r l seen).reverse := by
  induction l generalizing seen with
  | nil => simp [List.eraseDupsBy.loop]
  | cons a l ih =>
    simp only [List.cons_append, List.eraseDupsBy.loop]
    split
    · exact ih seen
    · exact ih (a :: seen)

theorem eraseDupsBy_concat (l : List α) (a : α) :
    (l ++ [a]).eraseDupsBy r =
      if (l.eraseDupsBy r).any (r a) then l.eraseDupsBy r else l.eraseDupsBy r ++ [a] := by
  rw [List.eraseDupsBy, eraseDupsBy_loop_append, ← List.eraseDupsBy]
  -- The loop starts its last round with its own result so far, in reverse.
  simp only [List.eraseDupsBy.loop, List.any_reverse]
  split <;> simp_all

theorem eraseDupsBy_sublist (l : List α) : (l.eraseDupsBy r).Sublist l := by
  induction l using List.reverseRecOn with
  | nil => exact List.Sublist.refl _
  | append_singleton l a ih =>
    rw [eraseDupsBy_concat]
    split
    · exact ih.trans (List.sublist_append_left l [a])
    · exact ih.append_right [a]

end Firsts

section Runs

variable {a b : α} {l part : List α}

/-- Between two places of a member there is another one, unless they are neighbours. -/
theorem exists_between (hl : l.IsChain (· ≠ ·)) (h : [a, a].Sublist l) :
    ∃ b, a ≠ b ∧ [a, b, a].Sublist l := by
  induction l with
  | nil => cases h
  | cons c l ih =>
    rcases List.sublist_cons_iff.mp h with hrest | ⟨rest, heq, hrest⟩
    · obtain ⟨b, hab, hsub⟩ := ih hl.of_cons hrest
      exact ⟨b, hab, hsub.cons c⟩
    · obtain ⟨rfl, rfl⟩ := List.cons.inj heq
      cases l with
      | nil => cases hrest
      | cons b l =>
        have hab : a ≠ b := (List.isChain_cons_cons.mp hl).1
        have ha : a ∈ l := List.mem_of_ne_of_mem hab (List.singleton_sublist.mp hrest)
        exact ⟨b, hab, ((List.singleton_sublist.mpr ha).cons_cons b).cons_cons a⟩

/-- Of three members without equal neighbours only the first and the last can be equal. -/
theorem nodup_take_three_iff (hl : l.IsChain (· ≠ ·)) :
    (l.take 3).Nodup ↔ ∀ a b, a ≠ b → ¬[a, b, a] <+: l := by
  match l with
  | [] => simp
  | [a] => simp
  | [a, b] => simpa using hl
  | a :: b :: c :: l =>
    obtain ⟨hab, hrest⟩ := List.isChain_cons_cons.mp hl
    obtain ⟨hbc, -⟩ := List.isChain_cons_cons.mp hrest
    constructor
    · intro h a' b' _ hpre
      simp only [List.cons_prefix_cons] at hpre
      obtain ⟨rfl, rfl, rfl, -⟩ := hpre
      simp at h
    · intro h
      have hac : a ≠ c := by
        rintro rfl
        exact h a b hab (by simp)
      simp [hab, hbc, hac]

variable [DecidableEq α]

/-- A part without equal neighbours is still there when equal neighbours are merged. -/
theorem sublist_destutter' (hpart : part.IsChain (· ≠ ·)) (h : part.Sublist (a :: l)) :
    part.Sublist (l.destutter' (· ≠ ·) a) := by
  induction l generalizing a part with
  | nil => exact h
  | cons b l ih =>
    by_cases hab : a ≠ b
    · rw [List.destutter'_cons_pos _ hab]
      rcases List.sublist_cons_iff.mp h with hrest | ⟨rest, rfl, hrest⟩
      · exact (ih hpart hrest).cons a
      · exact (ih hpart.of_cons hrest).cons_cons a
    · rw [List.destutter'_cons_neg _ hab]
      obtain rfl := not_not.mp hab
      refine ih hpart ?_
      rcases List.sublist_cons_iff.mp h with hrest | ⟨rest, rfl, hrest⟩
      · exact hrest
      · -- The part starts with the merged member and cannot go on with it.
        rcases List.sublist_cons_iff.mp hrest with hrest | ⟨rest, rfl, -⟩
        · exact hrest.cons_cons a
        · exact absurd rfl (List.isChain_cons_cons.mp hpart).1

theorem sublist_destutter (hpart : part.IsChain (· ≠ ·)) (h : part.Sublist l) :
    part.Sublist (l.destutter (· ≠ ·)) := by
  cases l with
  | nil => exact h
  | cons a l => exact sublist_destutter' hpart h

theorem nodup_destutter_iff :
    (l.destutter (· ≠ ·)).Nodup ↔ ∀ a b, a ≠ b → ¬[a, b, a].Sublist l := by
  rw [List.nodup_iff_sublist]
  constructor
  · intro h a b hab hsub
    have hchain : [a, b, a].IsChain (· ≠ ·) := by simp [hab, hab.symm]
    refine h a (List.Sublist.trans ?_ (sublist_destutter hchain hsub))
    exact ((List.Sublist.refl [a]).cons b).cons_cons a
  · intro h a hsub
    obtain ⟨b, hab, hbetween⟩ := exists_between (List.isChain_destutter _ l) hsub
    exact h a b hab (hbetween.trans (List.destutter_sublist _ l))

theorem destutter_replicate_append (n : Nat) (h : l.head? ≠ some a) :
    (List.replicate (n + 1) a ++ l).destutter (· ≠ ·) = a :: l.destutter (· ≠ ·) := by
  induction n with
  | zero =>
    cases l with
    | nil => rfl
    | cons b l =>
      have hab : a ≠ b := fun heq => h (by rw [List.head?_cons, heq])
      exact List.destutter'_cons_pos _ hab
  | succ n ih =>
    rw [← ih]
    exact List.destutter'_cons_neg _ (not_not_intro rfl)

/-- A list starts with a run of its first member. -/
theorem exists_run (a : α) (l : List α) :
    ∃ n rest, a :: l = List.replicate (n + 1) a ++ rest ∧ rest.head? ≠ some a := by
  refine ⟨(l.takeWhile (· == a)).length, l.dropWhile (· == a), ?_, ?_⟩
  · have hrun : l.takeWhile (· == a) = List.replicate (l.takeWhile (· == a)).length a := by
      refine List.eq_replicate_iff.mpr ⟨rfl, ?_⟩
      intro b hb
      exact eq_of_beq (List.mem_takeWhile_imp (p := (· == a)) hb)
    rw [List.replicate_succ, List.cons_append, ← hrun, List.takeWhile_append_dropWhile]
  · intro hhead
    have hnot := List.head?_dropWhile_not (· == a) l
    rw [hhead] at hnot
    simp at hnot

theorem cons_prefix_destutter (h : a :: part <+: l.destutter (· ≠ ·)) :
    ∃ n rest, l = List.replicate (n + 1) a ++ rest ∧ part <+: rest.destutter (· ≠ ·) := by
  cases l with
  | nil => simp at h
  | cons c l =>
    obtain ⟨n, rest, hrun, hhead⟩ := exists_run c l
    rw [hrun, destutter_replicate_append n hhead, List.cons_prefix_cons] at h
    obtain ⟨rfl, hpart⟩ := h
    exact ⟨n, rest, hrun, hpart⟩

/-- After merging a list begins with two members and the first again exactly if it begins with a run
of the first, a run of the second and the first again. -/
theorem prefix_destutter_iff (hab : a ≠ b) :
    [a, b, a] <+: l.destutter (· ≠ ·) ↔
      ∃ i j, List.replicate (i + 1) a ++ List.replicate (j + 1) b ++ [a] <+: l := by
  constructor
  · intro h
    obtain ⟨i, afterFirst, rfl, hfirst⟩ := cons_prefix_destutter h
    obtain ⟨j, afterSecond, rfl, hsecond⟩ := cons_prefix_destutter hfirst
    obtain ⟨k, rest, rfl, -⟩ := cons_prefix_destutter hsecond
    refine ⟨i, j, List.replicate k a ++ rest, ?_⟩
    simp [List.replicate_succ]
  · rintro ⟨i, j, rest, rfl⟩
    rw [List.append_assoc, List.append_assoc,
      destutter_replicate_append i (by simp [List.replicate_succ, hab.symm]),
      List.singleton_append, destutter_replicate_append j (by simp [hab])]
    obtain ⟨n, after, hrun, hhead⟩ := exists_run a rest
    rw [hrun, destutter_replicate_append n hhead]
    simp

end Runs

end PipelinePlan
