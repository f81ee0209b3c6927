import PipelinePlan.Proofs.Except
import PipelinePlan.Proofs.List
import PipelinePlan.Proofs.Schema.Suggestion

namespace PipelinePlan

namespace Schema

variable {name : String} {candidates : List String} {limit n : Nat}

theorem destutter'_candidates (last : String) (l : List Suggestion) :
    (l.map (·.candidate)).destutter' (· ≠ ·) last =
      last :: (dropRepeats (some last) l).map (·.candidate) := by
  induction l generalizing last with
  | nil => rfl
  | cons s l ih =>
    rw [List.map_cons, dropRepeats]
    by_cases hsame : last = s.candidate
    · rw [List.destutter'_cons_neg _ (not_not_intro hsame), if_pos (by simp [hsame]), ih]
    · rw [List.destutter'_cons_pos _ hsame, if_neg (by simp [hsame]), List.map_cons, ih]

/-- Dropping repeats merges equal neighbours. -/
theorem candidates_dropRepeats (l : List Suggestion) :
    (dropRepeats none l).map (·.candidate) = (l.map (·.candidate)).destutter (· ≠ ·) := by
  cases l with
  | nil => rfl
  | cons s l => exact (destutter'_candidates s.candidate l).symm

def peers (name : String) (candidates : List String) (n : Nat) : List String :=
  candidates.filter fun c => c ≠ name ∧ Apart name c n

def ranked (name : String) (candidates : List String) (limit : Nat) : List String :=
  (((candidates.filter (isNear name limit)).map (scored name)).mergeSort closer).map (·.candidate)

section Ranked

theorem candidates_suggest (name : String) (candidates : List String) (limit : Nat) :
    (suggest name candidates limit).map (·.candidate) =
      (ranked name candidates limit).destutter (· ≠ ·) := by
  rw [suggest_eq, candidates_dropRepeats, ranked]

theorem distance_le_of_mem_ranked {c : String} (h : c ∈ ranked name candidates limit) :
    distance name c ≤ limit := by
  obtain ⟨s, hs, rfl⟩ := List.mem_map.mp h
  obtain ⟨hscored, -, -, hlimit⟩ := mem_near_iff.mp (List.mem_mergeSort.mp hs)
  rwa [hscored, scored_distance] at hlimit

theorem ranked_pairwise (name : String) (candidates : List String) (limit : Nat) :
    (ranked name candidates limit).Pairwise (distance name · ≤ distance name ·) := by
  refine List.pairwise_map.mpr ((pairwise_mergeSort_closer _).imp_of_mem ?_)
  intro s t hs ht hle
  rwa [(mem_near_iff.mp (List.mem_mergeSort.mp hs)).1,
    (mem_near_iff.mp (List.mem_mergeSort.mp ht)).1] at hle

/-- Ranking leaves the candidates of one distance in their order. -/
theorem filter_ranked (h : n ≤ limit) :
    (ranked name candidates limit).filter (distance name · == n) = peers name candidates n := by
  let near := (candidates.filter (isNear name limit)).map (scored name)
  have hscored : ∀ s ∈ near.mergeSort closer, (distance name s.candidate == n) =
      (s.distance == n) := by
    intro s hs
    rw [(mem_near_iff.mp (List.mem_mergeSort.mp hs)).1, scored_candidate, scored_distance]
  calc (ranked name candidates limit).filter (distance name · == n)
      = ((near.mergeSort closer).filter (·.distance == n)).map (·.candidate) := by
        rw [ranked, List.filter_map]
        exact congrArg _ (List.filter_congr hscored)
    _ = (near.filter (·.distance == n)).map (·.candidate) := by rw [filter_mergeSort_closer]
    _ = (candidates.filter (isNear name limit)).filter (distance name · == n) := by
        rw [List.filter_map, List.map_map]
        exact List.map_id'' (scored_candidate name) _
    _ = peers name candidates n := by
        rw [List.filter_filter]
        refine List.filter_congr fun c _ => ?_
        rw [Bool.eq_iff_iff]
        by_cases hn : distance name c = n
        · simp [isNear, apart_iff, hn, h]
        · simp [apart_iff, hn]

/-- Two places of a candidate enclose none that is closer or farther. -/
theorem distance_between {a b : String} (h : [a, b, a].Sublist (ranked name candidates limit)) :
    distance name b = distance name a := by
  have hsorted := (ranked_pairwise name candidates limit).sublist h
  simp only [List.pairwise_cons, List.mem_cons, List.not_mem_nil, or_false, forall_eq_or_imp,
    forall_eq] at hsorted
  exact Nat.le_antisymm hsorted.2.1 hsorted.1.1

theorem peers_of_lt_iff (h : n ≤ limit) :
    (∀ m < n, peers name candidates m = []) ↔
      ∀ c ∈ ranked name candidates limit, n ≤ distance name c := by
  constructor
  · intro hnone c hc
    by_contra hlt
    have hpeers := hnone _ (Nat.lt_of_not_le hlt)
    rw [← filter_ranked (distance_le_of_mem_ranked hc), List.filter_eq_nil_iff] at hpeers
    exact hpeers c hc (beq_self_eq_true _)
  · intro hleast m hm
    rw [← filter_ranked (hm.le.trans h), List.filter_eq_nil_iff]
    intro c hc heq
    have := hleast c hc
    rw [eq_of_beq heq] at this
    omega

/-- The closest candidates come first. -/
theorem peers_prefix_ranked (h : n ≤ limit) (hleast : ∀ m < n, peers name candidates m = []) :
    peers name candidates n <+: ranked name candidates limit := by
  rw [peers_of_lt_iff h] at hleast
  rw [← filter_ranked h]
  have hsorted := ranked_pairwise name candidates limit
  generalize ranked name candidates limit = l at hleast hsorted
  induction l with
  | nil => exact List.prefix_refl []
  | cons c l ih =>
    obtain ⟨hc, hl⟩ := List.forall_mem_cons.mp hleast
    obtain ⟨hfirst, hrest⟩ := List.pairwise_cons.mp hsorted
    by_cases heq : distance name c = n
    · rw [List.filter_cons_of_pos (by simp [heq]), List.cons_prefix_cons]
      exact ⟨rfl, ih hl hrest⟩
    · have hnone : (c :: l).filter (distance name · == n) = [] := by
        rw [List.filter_eq_nil_iff, List.forall_mem_cons]
        refine ⟨by simp [heq], fun d hd => ?_⟩
        have := hfirst d hd
        simp only [beq_iff_eq]
        omega
      rw [hnone]
      exact List.nil_prefix

end Ranked

/-- A candidate comes back after another one that is as far from the name. -/
def ComesBack (name : String) (candidates : List String) (limit : Nat) : Prop :=
  ∃ n ≤ limit, ∃ a b, a ≠ b ∧ [a, b, a].Sublist (peers name candidates n)

/-- The closest candidates begin with a run of one, a run of another and the first again. -/
def OpensWithReturn (name : String) (candidates : List String) (limit : Nat) : Prop :=
  ∃ n ≤ limit, (∀ m < n, peers name candidates m = []) ∧ ∃ a b i j, a ≠ b ∧
    List.replicate (i + 1) a ++ List.replicate (j + 1) b ++ [a] <+: peers name candidates n

theorem comesBack_iff :
    ComesBack name candidates limit ↔
      ∃ a b, a ≠ b ∧ [a, b, a].Sublist (ranked name candidates limit) := by
  constructor
  · rintro ⟨n, hn, a, b, hab, hsub⟩
    rw [← filter_ranked hn] at hsub
    exact ⟨a, b, hab, hsub.trans List.filter_sublist⟩
  · rintro ⟨a, b, hab, hsub⟩
    have hlimit := distance_le_of_mem_ranked (hsub.mem (List.mem_cons_self : a ∈ [a, b, a]))
    refine ⟨distance name a, hlimit, a, b, hab, ?_⟩
    have hkept := hsub.filter (distance name · == distance name a)
    rw [filter_ranked hlimit] at hkept
    simpa [distance_between hsub] using hkept

theorem opensWithReturn_iff :
    OpensWithReturn name candidates limit ↔ ∃ a b i j, a ≠ b ∧
      List.replicate (i + 1) a ++ List.replicate (j + 1) b ++ [a] <+:
        ranked name candidates limit := by
  constructor
  · rintro ⟨n, hn, hleast, a, b, i, j, hab, hpre⟩
    exact ⟨a, b, i, j, hab, hpre.trans (peers_prefix_ranked hn hleast)⟩
  · rintro ⟨a, b, i, j, hab, hpre⟩
    let opening := List.replicate (i + 1) a ++ List.replicate (j + 1) b ++ [a]
    have hsub : [a, b, a].Sublist opening := by
      have ha : [a].Sublist (List.replicate (i + 1) a) := List.singleton_sublist.mpr (by simp)
      have hb : [b].Sublist (List.replicate (j + 1) b) := List.singleton_sublist.mpr (by simp)
      exact (ha.append hb).append (List.Sublist.refl [a])
    have hbetween := distance_between (hsub.trans hpre.sublist)
    have hlimit : distance name a ≤ limit :=
      distance_le_of_mem_ranked (hpre.mem (by simp [opening] : a ∈ opening))
    refine ⟨distance name a, hlimit, ?_, a, b, i, j, hab, ?_⟩
    · obtain ⟨rest, heq⟩ := hpre
      have hsorted := ranked_pairwise name candidates limit
      rw [peers_of_lt_iff hlimit, ← heq]
      rw [← heq] at hsorted
      exact List.forall_mem_cons.mpr ⟨Nat.le_refl _, (List.pairwise_cons.mp hsorted).1⟩
    · have hkept := hpre.filter (distance name · == distance name a)
      rw [filter_ranked hlimit] at hkept
      simpa [hbetween] using hkept

theorem nodup_candidates_suggest_iff :
    ((suggest name candidates limit).map (·.candidate)).Nodup ↔
      ¬ComesBack name candidates limit := by
  rw [candidates_suggest, nodup_destutter_iff, comesBack_iff]
  push Not
  rfl

theorem nodup_suggestServices_iff {pool : Pool} :
    (pool.suggestServices name).Nodup ↔ ¬OpensWithReturn name pool.serviceNames 4 := by
  rw [Pool.suggestServices, List.map_take, candidates_suggest,
    nodup_take_three_iff (List.isChain_destutter _ _), opensWithReturn_iff]
  constructor
  · rintro h ⟨a, b, i, j, hab, hpre⟩
    exact h a b hab ((prefix_destutter_iff hab).mpr ⟨i, j, hpre⟩)
  · intro h a b hab hpre
    obtain ⟨i, j, hruns⟩ := (prefix_destutter_iff hab).mp hpre
    exact h ⟨a, b, i, j, hab, hruns⟩

/-- No candidate is suggested twice exactly if none comes back after another one that is as far from
the name. The at most three services that are suggested differ exactly if the closest ones do not
begin with one name, another and the first again. -/
theorem suggestions_differ_iff (name : String) (candidates : List String) (limit : Nat)
    (pool : Pool) :
    (((suggest name candidates limit).map (·.candidate)).Nodup ↔
      ¬ComesBack name candidates limit) ∧
    (pool.suggestServices name).length ≤ 3 ∧
    ((pool.suggestServices name).Nodup ↔ ¬OpensWithReturn name pool.serviceNames 4) := by
  refine ⟨nodup_candidates_suggest_iff, ?_, nodup_suggestServices_iff⟩
  rw [Pool.suggestServices, List.length_map]
  exact List.length_take_le _ _

def serviceFile (name service : String) : FileDescriptor where
  name := some name
  services := [{ name := some service }]

/-- The first service comes again in the third file, and in the second file is one that is as far
from the name. -/
def plyFiles : List FileDescriptor :=
  [serviceFile "a.proto" "ply", serviceFile "b.proto" "pat", serviceFile "c.proto" "ply"]

theorem ply_suggested_twice :
    ¬((suggest "pay" ["ply", "pat", "ply"] 2).map (·.candidate)).Nodup ∧
    ∃ pool, Pool.build plyFiles = .ok pool ∧ ¬(pool.suggestServices "pay").Nodup := by
  have hpeers : peers "pay" ["ply", "pat", "ply"] 1 = ["ply", "pat", "ply"] ∧
      peers "pay" ["ply", "pat", "ply"] 0 = [] ∧
      (Pool.build plyFiles).toOption.any (·.serviceNames == ["ply", "pat", "ply"]) = true := by
    decide +kernel
  obtain ⟨hone, hzero, hbuilds⟩ := hpeers
  constructor
  · rw [nodup_candidates_suggest_iff, not_not]
    refine ⟨1, by decide, "ply", "pat", by decide, ?_⟩
    rw [hone]
  · obtain ⟨pool, hpool, hnames⟩ := (Option.any_eq_true _ _).mp hbuilds
    refine ⟨pool, toOption_eq_some_iff.mp hpool, ?_⟩
    rw [nodup_suggestServices_iff, not_not, eq_of_beq hnames]
    refine ⟨1, by decide, ?_, "ply", "pat", 0, 0, by decide, ?_⟩
    · intro m hm
      obtain rfl : m = 0 := by omega
      exact hzero
    · rw [hone]
      simp

end Schema

end PipelinePlan
