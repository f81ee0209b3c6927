import PipelinePlan.Compilation.Basic
import PipelinePlan.Proofs.Description.Matching
import PipelinePlan.Proofs.List

namespace PipelinePlan

namespace TopologyEntry

/-- The step, or its service, has the token of the entry. -/
def HasName (entry : TopologyEntry) (step : Step) : Prop :=
  Text.token step.name = Text.token entry.name ∨
    Text.token (Naming.serviceBase step.serviceName) = Text.token entry.name

def sharedWords (entry : TopologyEntry) (step : Step) : List (List Char) :=
  (Overlap.meaningfulWords entry.name).filter (· ∈ Overlap.meaningfulWords step.name)

def SharesWord (entry : TopologyEntry) (step : Step) : Prop :=
  ∃ word ∈ Overlap.meaningfulWords entry.name, word ∈ Overlap.meaningfulWords step.name

/-- How much a step shares with the entry. The number of words counts first, then their length. -/
def sharing (entry : TopologyEntry) (step : Step) : ℕ ×ₗ ℕ :=
  toLex ((entry.sharedWords step).length, ((entry.sharedWords step).map List.length).sum)

/-- Of the steps at the allowed positions, the step at position `i` is the first that shares most
with the entry, and it shares a word. -/
structure SharesMost (entry : TopologyEntry) (steps : List Step) (allowed : Nat → Prop) (i : Nat)
    (step : Step) : Prop where
  found : steps[i]? = some step
  isAllowed : allowed i
  shares : entry.SharesWord step
  most : ∀ j other, steps[j]? = some other → allowed j → entry.sharing other ≤ entry.sharing step
  first : ∀ j other, steps[j]? = some other → allowed j → j < i →
    entry.sharing other < entry.sharing step

/-- The entry refers to the step at position `i` where earlier entries have taken some steps. -/
inductive Refers (entry : TopologyEntry) (steps : List Step) (taken : Nat → Prop) (i : Nat)
    (step : Step) : Prop where
  /-- The first step with the name of the entry, taken or not. -/
  | byName (found : steps[i]? = some step) (name : entry.HasName step)
      (first : ∀ j other, steps[j]? = some other → j < i → ¬entry.HasName other)
  | byWords (unnamed : ∀ other ∈ steps, ¬entry.HasName other)
      (most : entry.SharesMost steps (¬taken ·) i step)
  /-- Only if no step that is left shares a word is a taken one referred to again. -/
  | again (unnamed : ∀ other ∈ steps, ¬entry.HasName other)
      (noneLeft : ∀ j other, steps[j]? = some other → ¬taken j → ¬entry.SharesWord other)
      (most : entry.SharesMost steps (fun _ => True) i step)

variable {entry : TopologyEntry} {steps : List Step} {taken : List Nat}

theorem names_iff {step : Step} : entry.names step = true ↔ entry.HasName step := by
  simp [names, HasName]

theorem sharesWord_iff {step : Step} : entry.SharesWord step ↔ entry.sharedWords step ≠ [] := by
  simp [SharesWord, sharedWords]

/-- A step that shares no word shares less than one that does. -/
theorem sharing_lt_of_sharesWord {step other : Step} (h : entry.SharesWord step)
    (hother : ¬entry.SharesWord other) : entry.sharing other < entry.sharing step := by
  rw [sharesWord_iff, ← List.length_pos_iff] at h hother
  rw [sharing, sharing, Prod.Lex.toLex_lt_toLex]
  left
  dsimp only
  omega

theorem score?_eq_some_iff {step : Step} {score : Overlap.Score} :
    Overlap.score? (Overlap.meaningfulWords entry.name) step.name = some score ↔
      entry.SharesWord step ∧ entry.sharing step = toLex (score.count, score.length) := by
  obtain ⟨count, length⟩ := score
  rw [sharesWord_iff, sharing, sharedWords, Overlap.score?]
  -- What the words of a name are does not matter here.
  generalize Overlap.meaningfulWords entry.name = wanted
  generalize Overlap.meaningfulWords step.name = tokens
  have hshared : wanted.filter tokens.contains = wanted.filter (· ∈ tokens) := by
    apply List.filter_congr
    intro word _
    rw [List.contains_eq_mem]
  rw [hshared, List.length_flatten]
  by_cases h : wanted.filter (· ∈ tokens) = []
  · simp [h]
  · simp [h]

theorem exists_score?_of_sharesWord {step : Step} (h : entry.SharesWord step) :
    ∃ score, Overlap.score? (Overlap.meaningfulWords entry.name) step.name = some score := by
  obtain ⟨count, length, hsharing⟩ : ∃ count length, entry.sharing step = toLex (count, length) := by
    rw [sharing]
    exact ⟨_, _, rfl⟩
  exact ⟨⟨count, length⟩, score?_eq_some_iff.mpr ⟨h, hsharing⟩⟩

/-- Scores compare as what is shared. -/
theorem score_lt_iff {step other : Step} {a b : Overlap.Score}
    (ha : Overlap.score? (Overlap.meaningfulWords entry.name) step.name = some a)
    (hb : Overlap.score? (Overlap.meaningfulWords entry.name) other.name = some b) :
    a.lt b = true ↔ entry.sharing step < entry.sharing other := by
  rw [(score?_eq_some_iff.mp ha).2, (score?_eq_some_iff.mp hb).2, Overlap.Score.lt_iff,
    Prod.Lex.toLex_lt_toLex]

/-- Only the steps that share a word need to be compared. -/
theorem SharesMost.of_sharing {allowed : Nat → Prop} {i : Nat} {step : Step}
    (found : steps[i]? = some step) (isAllowed : allowed i) (shares : entry.SharesWord step)
    (h : ∀ j other, steps[j]? = some other → allowed j → entry.SharesWord other →
      entry.sharing other ≤ entry.sharing step ∧
        (j < i → entry.sharing other < entry.sharing step)) :
    entry.SharesMost steps allowed i step := by
  refine ⟨found, isAllowed, shares, ?_, ?_⟩
  · intro j other hother hj
    by_cases hword : entry.SharesWord other
    · exact (h j other hother hj hword).1
    · exact (sharing_lt_of_sharesWord shares hword).le
  · intro j other hother hj hlt
    by_cases hword : entry.SharesWord other
    · exact (h j other hother hj hword).2 hlt
    · exact sharing_lt_of_sharesWord shares hword

theorem SharesMost.of_iff {allowed allowed' : Nat → Prop} {i : Nat} {step : Step}
    (hiff : ∀ j < steps.length, (allowed j ↔ allowed' j))
    (h : entry.SharesMost steps allowed i step) : entry.SharesMost steps allowed' i step where
  found := h.found
  isAllowed := (hiff i (List.getElem?_eq_some_iff.mp h.found).1).mp h.isAllowed
  shares := h.shares
  most j other hother hj :=
    h.most j other hother ((hiff j (List.getElem?_eq_some_iff.mp hother).1).mpr hj)
  first j other hother hj :=
    h.first j other hother ((hiff j (List.getElem?_eq_some_iff.mp hother).1).mpr hj)

/-- Which positions are allowed matters only where there is a step. -/
theorem SharesMost.congr {allowed allowed' : Nat → Prop} {i : Nat} {step : Step}
    (hiff : ∀ j < steps.length, (allowed j ↔ allowed' j)) :
    entry.SharesMost steps allowed i step ↔ entry.SharesMost steps allowed' i step :=
  ⟨.of_iff hiff, .of_iff fun j hj => (hiff j hj).symm⟩

structure ArePositions (steps : List Step) (positions : List Nat) : Prop where
  bound : ∀ i ∈ positions, i < steps.length
  ordered : positions.Pairwise (· < ·)

def namesAt (steps : List Step) (positions : List Nat) : List String :=
  positions.filterMap fun i => (steps[i]?).map (·.name)

section Positions

variable {positions : List Nat} {i k : Nat} {score : Overlap.Score}

theorem ArePositions.getElem?_namesAt (h : ArePositions steps positions) (k : Nat) :
    (namesAt steps positions)[k]? = positions[k]?.bind fun i => (steps[i]?).map (·.name) := by
  apply getElem?_filterMap_of_isSome
  intro i hi
  rw [Option.isSome_map, List.getElem?_eq_getElem (h.bound i hi), Option.isSome_some]

/-- The scores of the names are those of the steps at the positions. -/
theorem ArePositions.scoreAt_namesAt (h : ArePositions steps positions)
    {wanted : List (List Char)} :
    Overlap.scoreAt wanted (namesAt steps positions) k = some score ↔
      ∃ i step, positions[k]? = some i ∧ steps[i]? = some step ∧
        Overlap.score? wanted step.name = some score := by
  rw [Overlap.scoreAt, h.getElem?_namesAt]
  simp only [Option.bind_eq_some_iff, Option.map_eq_some_iff]
  constructor
  · rintro ⟨-, ⟨i, hi, step, hstep, rfl⟩, hscore⟩
    exact ⟨i, step, hi, hstep, hscore⟩
  · rintro ⟨i, step, hi, hstep, hscore⟩
    exact ⟨step.name, ⟨i, hi, step, hstep, rfl⟩, hscore⟩

theorem ArePositions.sharesMost_of_isBest (h : ArePositions steps positions)
    (hbest : Overlap.IsBest (Overlap.meaningfulWords entry.name) (namesAt steps positions) k score)
    (hi : positions[k]? = some i) : ∃ step, entry.SharesMost steps (· ∈ positions) i step := by
  obtain ⟨i', step, hi', hstep, hscore⟩ := h.scoreAt_namesAt.mp hbest.scored
  obtain rfl : i' = i := Option.some.inj (hi'.symm.trans hi)
  refine ⟨step, .of_sharing hstep (List.mem_of_getElem? hi) (score?_eq_some_iff.mp hscore).1 ?_⟩
  intro j other hother hj hword
  obtain ⟨k', hk'⟩ := List.mem_iff_getElem?.mp hj
  obtain ⟨score', hscore'⟩ := exists_score?_of_sharesWord hword
  have hat := h.scoreAt_namesAt.mpr ⟨j, other, hk', hother, hscore'⟩
  constructor
  · have hle := hbest.greatest k' score' hat
    rw [← Bool.not_eq_true, score_lt_iff hscore hscore', not_lt] at hle
    exact hle
  · intro hlt
    rw [← score_lt_iff hscore' hscore]
    exact hbest.first k' score' hat ((lt_iff_of_getElem?_sorted h.ordered hi hk').mpr hlt)

theorem ArePositions.exists_isBest (h : ArePositions steps positions) {step : Step}
    (hmost : entry.SharesMost steps (· ∈ positions) i step) :
    ∃ k score, Overlap.IsBest (Overlap.meaningfulWords entry.name) (namesAt steps positions) k
      score ∧ positions[k]? = some i := by
  obtain ⟨k, hk⟩ := List.mem_iff_getElem?.mp hmost.isAllowed
  obtain ⟨score, hscore⟩ := exists_score?_of_sharesWord hmost.shares
  refine ⟨k, score, ⟨?_, ?_, ?_⟩, hk⟩
  · exact h.scoreAt_namesAt.mpr ⟨i, step, hk, hmost.found, hscore⟩
  · intro k' score' hat
    obtain ⟨j, other, hk', hother, hscore'⟩ := h.scoreAt_namesAt.mp hat
    rw [← Bool.not_eq_true, score_lt_iff hscore hscore', not_lt]
    exact hmost.most j other hother (List.mem_of_getElem? hk')
  · intro k' score' hat hlt
    obtain ⟨j, other, hk', hother, hscore'⟩ := h.scoreAt_namesAt.mp hat
    rw [score_lt_iff hscore' hscore]
    exact hmost.first j other hother (List.mem_of_getElem? hk')
      ((lt_iff_of_getElem?_sorted h.ordered hk hk').mp hlt)

/-- The best overlap with the names at some positions is the first step there that shares most. -/
theorem ArePositions.best?_namesAt_iff (h : ArePositions steps positions) :
    (Overlap.best? entry.name (namesAt steps positions)).bind (positions[·]?) = some i ↔
      ∃ step, entry.SharesMost steps (· ∈ positions) i step := by
  simp only [Option.bind_eq_some_iff, Overlap.best?_eq_some_iff]
  constructor
  · rintro ⟨k, ⟨score, hbest⟩, hi⟩
    exact h.sharesMost_of_isBest hbest hi
  · rintro ⟨step, hmost⟩
    obtain ⟨k, score, hbest, hi⟩ := h.exists_isBest hmost
    exact ⟨k, ⟨score, hbest⟩, hi⟩

theorem ArePositions.best?_namesAt_eq_none_iff (h : ArePositions steps positions) :
    (Overlap.best? entry.name (namesAt steps positions)).bind (positions[·]?) = none ↔
      ∀ i ∈ positions, ∀ step, steps[i]? = some step → ¬entry.SharesWord step := by
  simp only [Option.bind_eq_none_iff, Overlap.best?_eq_some_iff]
  constructor
  · intro hnone i hi step hstep hshares
    obtain ⟨k, hk⟩ := List.mem_iff_getElem?.mp hi
    obtain ⟨score, hscore⟩ := exists_score?_of_sharesWord hshares
    have hat := h.scoreAt_namesAt.mpr ⟨i, step, hk, hstep, hscore⟩
    -- Where one name shares a word there is a best one, and its position is one of the list.
    cases hbest : Overlap.best? entry.name (namesAt steps positions) with
    | none =>
      rw [Overlap.best?_eq_none_iff.mp hbest k] at hat
      cases hat
    | some k' =>
      obtain ⟨best, hbest⟩ := Overlap.best?_eq_some_iff.mp hbest
      obtain ⟨i', -, hi', -⟩ := h.scoreAt_namesAt.mp hbest.scored
      rw [hnone k' ⟨best, hbest⟩] at hi'
      cases hi'
  · rintro hnone k ⟨score, hbest⟩
    obtain ⟨i, step, hi, hstep, hscore⟩ := h.scoreAt_namesAt.mp hbest.scored
    exact absurd (score?_eq_some_iff.mp hscore).1 (hnone i (List.mem_of_getElem? hi) step hstep)

end Positions

def free (steps : List Step) (taken : List Nat) : List Nat :=
  (List.range steps.length).filter (!taken.contains ·)

theorem mem_free {i : Nat} : i ∈ free steps taken ↔ i < steps.length ∧ i ∉ taken := by
  simp [free]

theorem arePositions_free (steps : List Step) (taken : List Nat) :
    ArePositions steps (free steps taken) :=
  ⟨fun _ hi => (mem_free.mp hi).1, List.pairwise_lt_range.filter _⟩

theorem best?_free_iff {i : Nat} :
    (Overlap.best? entry.name (namesAt steps (free steps taken))).bind ((free steps taken)[·]?) =
        some i ↔
      ∃ step, entry.SharesMost steps (· ∉ taken) i step := by
  rw [(arePositions_free steps taken).best?_namesAt_iff]
  refine exists_congr fun step => SharesMost.congr fun j hj => ?_
  rw [mem_free, and_iff_right hj]

theorem best?_free_eq_none_iff :
    (Overlap.best? entry.name (namesAt steps (free steps taken))).bind ((free steps taken)[·]?) =
        none ↔
      ∀ j other, steps[j]? = some other → j ∉ taken → ¬entry.SharesWord other := by
  rw [(arePositions_free steps taken).best?_namesAt_eq_none_iff]
  constructor
  · intro h j other hother hj
    exact h j (mem_free.mpr ⟨(List.getElem?_eq_some_iff.mp hother).1, hj⟩) other hother
  · intro h i hi step hstep
    exact h i step hstep (mem_free.mp hi).2

theorem free_nil (steps : List Step) : free steps [] = List.range steps.length := by
  simp [free]

theorem namesAt_free_nil (steps : List Step) :
    namesAt steps (free steps []) = steps.map (·.name) := by
  apply List.ext_getElem?
  intro k
  rw [(arePositions_free steps []).getElem?_namesAt, free_nil, List.getElem?_map]
  by_cases hk : k < steps.length
  · rw [List.getElem?_range hk, Option.bind_some]
  · rw [List.getElem?_eq_none (by simpa using hk), List.getElem?_eq_none (by omega)]
    rfl

/-- Without anything taken the free positions are all positions. -/
theorem best?_all_eq (entry : TopologyEntry) (steps : List Step) :
    Overlap.best? entry.name (steps.map (·.name)) =
      (Overlap.best? entry.name (namesAt steps (free steps []))).bind ((free steps [])[·]?) := by
  rw [namesAt_free_nil, free_nil]
  cases hbest : Overlap.best? entry.name (steps.map (·.name)) with
  | none => rfl
  | some k =>
    obtain ⟨score, hscore⟩ := Overlap.best?_eq_some_iff.mp hbest
    have hk := Overlap.lt_of_scoreAt_eq_some hscore.scored
    rw [List.length_map] at hk
    exact (List.getElem?_range hk).symm

theorem best?_all_iff {i : Nat} :
    Overlap.best? entry.name (steps.map (·.name)) = some i ↔
      ∃ step, entry.SharesMost steps (fun _ => True) i step := by
  rw [best?_all_eq, best?_free_iff]
  exact exists_congr fun step => SharesMost.congr fun j hj => by simp

theorem best?_all_eq_none_iff :
    Overlap.best? entry.name (steps.map (·.name)) = none ↔
      ∀ other ∈ steps, ¬entry.SharesWord other := by
  rw [best?_all_eq, best?_free_eq_none_iff]
  constructor
  · intro h other hother
    obtain ⟨j, hj⟩ := List.mem_iff_getElem?.mp hother
    exact h j other hj List.not_mem_nil
  · intro h j other hother _
    exact h other (List.mem_of_getElem? hother)

theorem findIdx?_names_iff {i : Nat} :
    steps.findIdx? entry.names = some i ↔ ∃ step, steps[i]? = some step ∧ entry.HasName step ∧
      ∀ j other, steps[j]? = some other → j < i → ¬entry.HasName other := by
  simp only [List.findIdx?_eq_some_iff_getElem, names_iff, List.getElem?_eq_some_iff]
  constructor
  · rintro ⟨hi, hname, hfirst⟩
    refine ⟨steps[i], ⟨hi, rfl⟩, hname, ?_⟩
    rintro j other ⟨_, rfl⟩ hlt
    exact hfirst j hlt
  · rintro ⟨step, ⟨hi, rfl⟩, hname, hfirst⟩
    exact ⟨hi, hname, fun j hlt => hfirst j _ ⟨hlt.trans hi, rfl⟩ hlt⟩

theorem findIdx?_names_eq_none_iff :
    steps.findIdx? entry.names = none ↔ ∀ other ∈ steps, ¬entry.HasName other := by
  simp only [List.findIdx?_eq_none_iff, ← names_iff, Bool.not_eq_true]

theorem stepAmong?_eq (entry : TopologyEntry) (steps : List Step) (taken : List Nat) :
    entry.stepAmong? steps taken = (steps.findIdx? entry.names).or
      (((Overlap.best? entry.name (namesAt steps (free steps taken))).bind
        ((free steps taken)[·]?)).or (Overlap.best? entry.name (steps.map (·.name)))) := by
  rw [stepAmong?]
  cases steps.findIdx? entry.names with
  | some i => rfl
  | none =>
    dsimp only [Option.none_or]
    rw [← free, ← namesAt]
    cases (Overlap.best? entry.name (namesAt steps (free steps taken))).bind
      ((free steps taken)[·]?) <;> rfl

/-- An entry gets a position exactly if it refers to the step there. -/
theorem stepAmong?_eq_some_iff {i : Nat} :
    entry.stepAmong? steps taken = some i ↔ ∃ step, entry.Refers steps (· ∈ taken) i step := by
  rw [stepAmong?_eq, Option.or_eq_some_iff, Option.or_eq_some_iff, findIdx?_names_iff,
    findIdx?_names_eq_none_iff, best?_free_iff, best?_free_eq_none_iff, best?_all_iff]
  constructor
  · rintro (⟨step, hfound, hname, hfirst⟩ | ⟨hunnamed, ⟨step, hmost⟩ | ⟨hnone, step, hmost⟩⟩)
    · exact ⟨step, .byName hfound hname hfirst⟩
    · exact ⟨step, .byWords hunnamed hmost⟩
    · exact ⟨step, .again hunnamed hnone hmost⟩
  · rintro ⟨step, hrefers⟩
    cases hrefers with
    | byName hfound hname hfirst => exact .inl ⟨step, hfound, hname, hfirst⟩
    | byWords hunnamed hmost => exact .inr ⟨hunnamed, .inl ⟨step, hmost⟩⟩
    | again hunnamed hnone hmost => exact .inr ⟨hunnamed, .inr ⟨hnone, step, hmost⟩⟩

/-- An entry gets no step exactly if it has nothing in common with any, whatever is taken. -/
theorem stepAmong?_eq_none_iff :
    entry.stepAmong? steps taken = none ↔
      ∀ step ∈ steps, ¬entry.HasName step ∧ ¬entry.SharesWord step := by
  rw [stepAmong?_eq, Option.or_eq_none_iff, Option.or_eq_none_iff, findIdx?_names_eq_none_iff,
    best?_free_eq_none_iff, best?_all_eq_none_iff]
  constructor
  · rintro ⟨hunnamed, -, hnone⟩ step hstep
    exact ⟨hunnamed step hstep, hnone step hstep⟩
  · intro h
    refine ⟨fun step hstep => (h step hstep).1, ?_, fun step hstep => (h step hstep).2⟩
    intro j other hother _
    exact (h other (List.mem_of_getElem? hother)).2

end TopologyEntry

namespace Topology

def TakenBefore (topology : Topology) (steps : List Step) (p i : Nat) : Prop :=
  ∃ q < p, (topology.matches? steps)[q]? = some (some i)

variable {steps : List Step}

theorem mem_reduceOption_take_iff {topology : Topology} {p i : Nat} :
    i ∈ ((topology.matches? steps).take p).reduceOption ↔ topology.TakenBefore steps p i := by
  rw [List.reduceOption_mem_iff, TakenBefore]
  simp only [List.mem_iff_getElem?, List.getElem?_take]
  constructor
  · rintro ⟨q, hq⟩
    split at hq
    · next hlt => exact ⟨q, hlt, hq⟩
    · cases hq
  · rintro ⟨q, hlt, hq⟩
    exact ⟨q, by rw [if_pos hlt, hq]⟩

/-- Every entry of a topology gets an answer. It gets a step exactly if it gets one on its own, and
this is the step that it refers to where the steps of the earlier entries are taken. -/
theorem matches?_refers (topology : Topology) (steps : List Step) :
    (topology.matches? steps).length = topology.length ∧
    ∀ p (entry : TopologyEntry), topology[p]? = some entry →
      ∃ answer, (topology.matches? steps)[p]? = some answer ∧
        answer.isSome = (entry.step? steps).isSome ∧
        (∀ i, answer = some i → i < steps.length) ∧
        ∀ i, answer = some i ↔
          ∃ step, entry.Refers steps (topology.TakenBefore steps p) i step := by
  refine ⟨length_matchFrom steps [] topology, fun p entry hentry => ?_⟩
  have hanswer : (topology.matches? steps)[p]? = some (entry.stepAmong? steps
      ((topology.matches? steps).take p).reduceOption) := by
    have h := getElem?_matchFrom steps [] topology p
    rw [hentry, Option.map_some, List.nil_append] at h
    exact h
  refine ⟨_, hanswer, ?_, fun i hi => TopologyEntry.stepAmong?_lt hi, fun i => ?_⟩
  · rw [Bool.eq_iff_iff, Option.isSome_iff_ne_none, Option.isSome_iff_ne_none, TopologyEntry.step?,
      ne_eq, ne_eq, TopologyEntry.stepAmong?_eq_none_iff, TopologyEntry.stepAmong?_eq_none_iff]
  · rw [TopologyEntry.stepAmong?_eq_some_iff]
    simp only [mem_reduceOption_take_iff]

/-- Three entries for two steps. On its own the second would get the step of the first. -/
def packing : Topology := [{ name := "pay-bill" }, { name := "box-bill" }, { name := "bill" }]

def packingSteps : List Step :=
  (Compilation.extractAll { baseSpace := "acme" } [{ name := "pay-bill" }, { name := "box" }]).1

theorem packing_refers :
    packing.matches? packingSteps = [some 0, some 1, some 0] ∧
    TopologyEntry.step? { name := "box-bill" } packingSteps = some 0 ∧
    packing.TakenBefore packingSteps 1 0 ∧
    (∃ step, TopologyEntry.Refers { name := "box-bill" } packingSteps
      (packing.TakenBefore packingSteps 1) 1 step) ∧
    ∃ step, TopologyEntry.Refers { name := "bill" } packingSteps
      (packing.TakenBefore packingSteps 2) 0 step := by
  have hmatches : packing.matches? packingSteps = [some 0, some 1, some 0] ∧
      TopologyEntry.step? { name := "box-bill" } packingSteps = some 0 := by
    decide +kernel
  have hrefers : ∀ p (entry : TopologyEntry) i, packing[p]? = some entry →
      (packing.matches? packingSteps)[p]? = some (some i) →
      ∃ step, entry.Refers packingSteps (packing.TakenBefore packingSteps p) i step := by
    intro p entry i hentry hanswer
    obtain ⟨answer, hfound, -, -, hiff⟩ := (matches?_refers packing packingSteps).2 p entry hentry
    obtain rfl := Option.some.inj (hfound.symm.trans hanswer)
    exact (hiff i).mp rfl
  refine ⟨hmatches.1, hmatches.2, ⟨0, Nat.zero_lt_one, ?_⟩, hrefers 1 _ 1 rfl ?_,
    hrefers 2 _ 0 rfl ?_⟩
  all_goals
    rw [hmatches.1]
    rfl

end Topology

end PipelinePlan
