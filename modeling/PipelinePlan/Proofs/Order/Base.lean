import PipelinePlan.Proofs.List
import PipelinePlan.Proofs.Order.TopologyEntries

namespace PipelinePlan

theorem Topology.mem_of_mem_matched {topology : Topology} {steps : List Step}
    {pair : TopologyEntry × Option Step} (h : pair ∈ topology.matched steps) {step : Step}
    (hstep : pair.2 = some step) : step ∈ steps := by
  have hmatch := (List.of_mem_zip h).2
  rw [hstep] at hmatch
  obtain ⟨position, -, hposition⟩ := List.mem_map.mp hmatch
  obtain ⟨i, -, hi⟩ := Option.bind_eq_some_iff.mp hposition
  exact List.mem_of_getElem? hi

namespace Order

theorem mem_firsts {texts seen : List String} {s : String} :
    s ∈ firsts seen texts ↔ s ∈ seen ∨ s ∈ texts := by
  induction texts generalizing seen with
  | nil => simp [firsts]
  | cons first rest ih =>
    rw [firsts, ih]
    split
    next h =>
      have hseen : first ∈ seen := by simpa using h
      simp only [List.mem_cons]
      constructor
      · rintro (h | h)
        · exact .inl h
        · exact .inr (.inr h)
      · rintro (h | rfl | h)
        · exact .inl h
        · exact .inl hseen
        · exact .inr h
    next => simp [or_assoc]

theorem exists_step_of_mem_base {topology : Topology} {steps : List Step} {transport : Transport}
    {client : String} (h : client ∈ (base topology steps transport).value) :
    ∃ step ∈ steps, step.client transport = client := by
  by_cases htopology : topology = []
  · subst htopology
    have hmem : client ∈ firsts [] ((mainSteps steps).map (·.client transport)) := h
    rw [mem_firsts] at hmem
    obtain ⟨step, hstep, hclient⟩ := List.mem_map.mp (hmem.resolve_left List.not_mem_nil)
    exact ⟨step, List.mem_of_mem_filter hstep, hclient⟩
  · obtain ⟨p, hp⟩ := (mem_base_iff htopology).mp h
    obtain ⟨⟨entry, step, hmatched, hclient⟩, -⟩ := Topology.firstFor?_eq_some_iff.mp hp
    exact ⟨step, Topology.mem_of_mem_matched (List.mem_of_getElem? hmatched) rfl, hclient⟩

/-- Where a client adapter is referred to first, or the end. -/
def firstPlace (transport : Transport) (pairs : List (TopologyEntry × Option Step))
    (client : String) : Nat :=
  pairs.findIdx (Topology.refersTo transport client)

theorem firstPlace_lt_iff {transport : Transport} {pairs : List (TopologyEntry × Option Step)}
    {client : String} :
    firstPlace transport pairs client < pairs.length ↔
      ∃ pair ∈ pairs, Topology.refersTo transport client pair = true :=
  List.findIdx_lt_length

theorem firstPlace_append (transport : Transport) (pairs more : List (TopologyEntry × Option Step))
    (client : String) :
    firstPlace transport (pairs ++ more) client =
      if firstPlace transport pairs client < pairs.length then firstPlace transport pairs client
      else firstPlace transport more client + pairs.length :=
  List.findIdx_append

theorem place_order_cases (transport : Transport) (progress : Progress)
    (pair : TopologyEntry × Option Step) :
    (progress.place transport pair).order = progress.order ∨
      ∃ client, client ∉ progress.order ∧
        (progress.place transport pair).order = progress.order ++ [client] := by
  obtain ⟨entry, step⟩ := pair
  cases step with
  | none => exact .inl rfl
  | some step =>
    by_cases hplaced : step.client transport ∈ progress.order
    · left
      simp [Progress.place, hplaced]
    · right
      exact ⟨step.client transport, hplaced, by simp [Progress.place, hplaced]⟩

/-- What is ordered stands in the order of the first entries that refer to it. -/
theorem foldl_place_pairwise (transport : Transport)
    (pairs : List (TopologyEntry × Option Step)) :
    (pairs.foldl (Progress.place transport) {}).order.Pairwise fun a b =>
      firstPlace transport pairs a < firstPlace transport pairs b := by
  -- From the end of the list: an entry adds a client only behind those of the entries before it.
  induction pairs using List.reverseRecOn with
  | nil => exact .nil
  | append_singleton pairs pair ih =>
    have hlt {client : String}
        (h : client ∈ (pairs.foldl (Progress.place transport) {}).order) :
        firstPlace transport pairs client < pairs.length := by
      rw [mem_foldl_place_order] at h
      exact firstPlace_lt_iff.mpr (h.resolve_left List.not_mem_nil)
    have hkeep {client : String}
        (h : client ∈ (pairs.foldl (Progress.place transport) {}).order) :
        firstPlace transport (pairs ++ [pair]) client = firstPlace transport pairs client := by
      rw [firstPlace_append, if_pos (hlt h)]
    have hold : (pairs.foldl (Progress.place transport) {}).order.Pairwise fun a b =>
        firstPlace transport (pairs ++ [pair]) a < firstPlace transport (pairs ++ [pair]) b := by
      refine ih.imp_of_mem ?_
      intro a b ha hb hab
      rw [hkeep ha, hkeep hb]
      exact hab
    rw [List.foldl_append, List.foldl_cons, List.foldl_nil]
    rcases place_order_cases transport (pairs.foldl (Progress.place transport) {}) pair with
      hsame | ⟨client, hnew, hadded⟩
    · rw [hsame]
      exact hold
    · rw [hadded, List.pairwise_append]
      refine ⟨hold, List.pairwise_singleton _ _, ?_⟩
      intro a ha b hb
      rw [List.mem_singleton.mp hb, hkeep ha]
      -- No earlier entry refers to the new client, or it would not be new.
      have hnone : pairs.length ≤ firstPlace transport pairs client := by
        by_contra hsome
        have hmem := firstPlace_lt_iff.mp (Nat.not_le.mp hsome)
        exact hnew ((mem_foldl_place_order pairs _).mpr (.inr hmem))
      have hlast : pairs.length ≤ firstPlace transport (pairs ++ [pair]) client := by
        rw [firstPlace_append, if_neg (Nat.not_lt.mpr hnone)]
        omega
      have ha' := hlt ha
      omega

section Places

variable {topology : Topology} {steps : List Step} {transport : Transport} {client : String}

theorem base_of_ne_nil (h : topology ≠ []) : (base topology steps transport).value =
    ((topology.matched steps).foldl (Progress.place transport) {}).order := by
  have hempty : topology.isEmpty = false := by simpa using h
  simp only [base, hempty, Bool.false_eq_true, if_false]

theorem base_eq_nil_iff (transport : Transport) (h : topology ≠ []) :
    (base topology steps transport).value = [] ↔
      ∀ pair ∈ topology.matched steps, pair.2 = none := by
  rw [base_of_ne_nil h, List.eq_nil_iff_forall_not_mem]
  simp only [mem_foldl_place_order, List.not_mem_nil, false_or, Topology.refersTo_iff]
  constructor
  · intro hnone pair hpair
    by_contra hsome
    obtain ⟨step, hstep⟩ := Option.ne_none_iff_exists'.mp hsome
    exact hnone (step.client transport) ⟨pair, hpair, step, hstep, rfl⟩
  · rintro hnone client ⟨pair, hpair, step, hstep, -⟩
    rw [hnone pair hpair] at hstep
    cases hstep

/-- One entry refers to one step. -/
theorem eq_of_firstFor?_eq_some {other : String} {p : Nat}
    (h : topology.firstFor? steps transport client = some p)
    (hother : topology.firstFor? steps transport other = some p) : client = other := by
  obtain ⟨⟨entry, step, hmatched, rfl⟩, -⟩ := Topology.firstFor?_eq_some_iff.mp h
  obtain ⟨⟨entry', step', hmatched', rfl⟩, -⟩ := Topology.firstFor?_eq_some_iff.mp hother
  rw [hmatched] at hmatched'
  cases hmatched'
  rfl

theorem firstFor?_eq_some_iff_firstPlace {p : Nat} :
    topology.firstFor? steps transport client = some p ↔
      p < (topology.matched steps).length ∧
        firstPlace transport (topology.matched steps) client = p :=
  List.findIdx?_eq_some_iff_findIdx_eq

theorem forall_mem_base_iff (h : topology ≠ []) {r : Nat → Nat → Prop} :
    (client ∈ (base topology steps transport).value ∧
      ∀ other ∈ (base topology steps transport).value,
        r (firstPlace transport (topology.matched steps) client)
          (firstPlace transport (topology.matched steps) other)) ↔
      ∃ p, topology.firstFor? steps transport client = some p ∧
        ∀ other q, topology.firstFor? steps transport other = some q → r p q := by
  simp only [mem_base_iff h]
  constructor
  · rintro ⟨⟨p, hp⟩, hall⟩
    refine ⟨p, hp, ?_⟩
    intro other q hq
    have hother := hall other ⟨q, hq⟩
    rw [(firstFor?_eq_some_iff_firstPlace.mp hp).2,
      (firstFor?_eq_some_iff_firstPlace.mp hq).2] at hother
    exact hother
  · rintro ⟨p, hp, hall⟩
    refine ⟨⟨p, hp⟩, ?_⟩
    rintro other ⟨q, hq⟩
    rw [(firstFor?_eq_some_iff_firstPlace.mp hp).2, (firstFor?_eq_some_iff_firstPlace.mp hq).2]
    exact hall other q hq

/-- The first client is the one that is referred to before all others. -/
theorem head?_base_iff (h : topology ≠ []) :
    (base topology steps transport).value.head? = some client ↔
      ∃ p, topology.firstFor? steps transport client = some p ∧
        ∀ other q, topology.firstFor? steps transport other = some q → p ≤ q := by
  have hsorted := foldl_place_pairwise transport (topology.matched steps)
  rw [← base_of_ne_nil h] at hsorted
  rw [head?_eq_some_iff_of_pairwise hsorted fun a b hab hba => by omega]
  simp only [Nat.not_lt]
  exact forall_mem_base_iff h (r := fun p q => p ≤ q)

/-- The last client is the one that is referred to for the first time after all others. -/
theorem getLast?_base_iff (h : topology ≠ []) :
    (base topology steps transport).value.getLast? = some client ↔
      ∃ p, topology.firstFor? steps transport client = some p ∧
        ∀ other q, topology.firstFor? steps transport other = some q → q ≤ p := by
  have hsorted := foldl_place_pairwise transport (topology.matched steps)
  rw [← base_of_ne_nil h] at hsorted
  rw [getLast?_eq_some_iff_of_pairwise hsorted fun a b hab hba => by omega]
  simp only [Nat.not_lt]
  exact forall_mem_base_iff h (r := fun p q => q ≤ p)

/-- The first client belongs to the first entry, unless that refers to no step and another does. -/
theorem head?_base_refers_iff (h : topology ≠ []) :
    (∀ client, (base topology steps transport).value.head? = some client →
      (topology.matched steps).head?.any (Topology.refersTo transport client) = true) ↔
      (∃ entry step, (topology.matched steps).head? = some (entry, some step)) ∨
        ∀ pair ∈ topology.matched steps, pair.2 = none := by
  rw [← base_eq_nil_iff transport h]
  constructor
  · intro hends
    by_cases hnil : (base topology steps transport).value = []
    · exact .inr hnil
    · obtain ⟨client, hclient⟩ := Option.isSome_iff_exists.mp (List.isSome_head?.mpr hnil)
      obtain ⟨pair, hpair, hrefers⟩ := (Option.any_eq_true _ _).mp (hends client hclient)
      obtain ⟨step, hstep, -⟩ := Topology.refersTo_iff.mp hrefers
      exact .inl ⟨pair.1, step, by rw [hpair, ← hstep]⟩
  · rintro (⟨entry, step, hhead⟩ | hnil) client hclient
    · have hzero : topology.firstFor? steps transport (step.client transport) = some 0 := by
        apply Topology.firstFor?_eq_some_iff.mpr
        rw [List.head?_eq_getElem?] at hhead
        exact ⟨⟨entry, step, hhead, rfl⟩, fun q hq => absurd hq (Nat.not_lt_zero q)⟩
      obtain ⟨p, hp, hleast⟩ := (head?_base_iff h).mp hclient
      have hle := hleast _ 0 hzero
      obtain rfl : p = 0 := by omega
      rw [hhead, Option.any_some]
      exact Topology.refersTo_iff.mpr ⟨step, rfl, eq_of_firstFor?_eq_some hzero hp⟩
    · rw [hnil] at hclient
      cases hclient

/-- The last client belongs to the last entry if that refers to a step and no entry refers to a new
one after the first entry for this step. -/
theorem getLast?_base_refers_iff (h : topology ≠ []) :
    (∀ client, (base topology steps transport).value.getLast? = some client →
      (topology.matched steps).getLast?.any (Topology.refersTo transport client) = true) ↔
      (∃ entry step p, (topology.matched steps).getLast? = some (entry, some step) ∧
        topology.firstFor? steps transport (step.client transport) = some p ∧
        ∀ other q, topology.firstFor? steps transport other = some q → q ≤ p) ∨
      ∀ pair ∈ topology.matched steps, pair.2 = none := by
  rw [← base_eq_nil_iff transport h]
  constructor
  · intro hends
    by_cases hnil : (base topology steps transport).value = []
    · exact .inr hnil
    · obtain ⟨client, hclient⟩ := Option.isSome_iff_exists.mp (List.getLast?_isSome.mpr hnil)
      obtain ⟨pair, hpair, hrefers⟩ := (Option.any_eq_true _ _).mp (hends client hclient)
      obtain ⟨step, hstep, rfl⟩ := Topology.refersTo_iff.mp hrefers
      obtain ⟨p, hp, hmost⟩ := (getLast?_base_iff h).mp hclient
      exact .inl ⟨pair.1, step, p, by rw [hpair, ← hstep], hp, hmost⟩
  · rintro (⟨entry, step, p, hlast, hp, hmost⟩ | hnil) client hclient
    · obtain ⟨q, hq, hmost'⟩ := (getLast?_base_iff h).mp hclient
      have hle := hmost _ q hq
      have hle' := hmost' _ p hp
      obtain rfl : p = q := by omega
      rw [hlast, Option.any_some]
      exact Topology.refersTo_iff.mpr ⟨step, rfl, eq_of_firstFor?_eq_some hp hq⟩
    · rw [hnil] at hclient
      cases hclient

end Places

end Order

end PipelinePlan
