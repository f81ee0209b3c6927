import PipelinePlan.Compilation.Basic
import PipelinePlan.Proofs.Description.Matching
import PipelinePlan.Proofs.Table

namespace PipelinePlan

def TopologyEntry.typeAt? (entry : TopologyEntry) (position : Position) : Option String :=
  some (match position with
    | .before => Text.trim entry.inputType
    | .after => Text.trim entry.outputType) |>.filter (!Name.isVoid ·)

namespace Topology

def refersTo (transport : Transport) (client : String) (pair : TopologyEntry × Option Step) : Bool :=
  pair.2.any (·.client transport == client)

theorem refersTo_iff {transport : Transport} {client : String} {pair : TopologyEntry × Option Step} :
    refersTo transport client pair = true ↔
      ∃ step, pair.2 = some step ∧ step.client transport = client := by
  simp [refersTo, Option.any_eq_true]

def firstFor? (topology : Topology) (steps : List Step) (transport : Transport)
    (client : String) : Option Nat :=
  (topology.matched steps).findIdx? (refersTo transport client)

theorem firstFor?_eq_some_iff {topology : Topology} {steps : List Step} {transport : Transport}
    {client : String} {p : Nat} :
    topology.firstFor? steps transport client = some p ↔
      (∃ entry step, (topology.matched steps)[p]? = some (entry, some step) ∧
        step.client transport = client) ∧
      ∀ q < p, ∀ entry step, (topology.matched steps)[q]? = some (entry, some step) →
        step.client transport ≠ client := by
  rw [firstFor?, List.findIdx?_eq_some_iff_getElem]
  constructor
  · rintro ⟨hlt, hrefers, hearlier⟩
    obtain ⟨step, hstep, hclient⟩ := refersTo_iff.mp hrefers
    refine ⟨⟨(topology.matched steps)[p].1, step, ?_, hclient⟩, ?_⟩
    · rw [List.getElem?_eq_getElem hlt, ← hstep]
    · intro q hq entry other hother hclient
      obtain ⟨hlt', heq⟩ := List.getElem?_eq_some_iff.mp hother
      apply hearlier q hq
      rw [heq]
      exact refersTo_iff.mpr ⟨other, rfl, hclient⟩
  · rintro ⟨⟨entry, step, hmatched, hclient⟩, hearlier⟩
    obtain ⟨hlt, heq⟩ := List.getElem?_eq_some_iff.mp hmatched
    refine ⟨hlt, ?_, ?_⟩
    · rw [heq]
      exact refersTo_iff.mpr ⟨step, rfl, hclient⟩
    · intro q hq hrefers
      have hlt' := hq.trans hlt
      obtain ⟨other, hother, hclient⟩ := refersTo_iff.mp hrefers
      refine hearlier q hq (topology.matched steps)[q].1 other ?_ hclient
      rw [List.getElem?_eq_getElem hlt', ← hother]

theorem matched_getElem?_fst {topology : Topology} {steps : List Step} {p : Nat}
    {pair : TopologyEntry × Option Step} (h : (topology.matched steps)[p]? = some pair) :
    topology[p]? = some pair.1 := by
  rw [matched, List.getElem?_zip_eq_some] at h
  exact h.1

/-- What an entry refers to by name does not depend on the entries before it. -/
theorem matchFrom_getElem?_of_names {steps : List Step} {i : Nat} {entry : TopologyEntry}
    (hnames : steps.findIdx? entry.names = some i) (topology : Topology) (taken : List Nat) {p : Nat}
    (hentry : topology[p]? = some entry) :
    (matchFrom steps taken topology)[p]? = some (some i) := by
  rw [getElem?_matchFrom, hentry, Option.map_some]
  -- A name is looked for among all steps, whether they are taken or not.
  simp [TopologyEntry.stepAmong?, hnames]

theorem matched_getElem?_of_names {topology : Topology} {steps : List Step} {p : Nat}
    {entry : TopologyEntry} (hentry : topology[p]? = some entry)
    (hnames : ∃ step ∈ steps, entry.names step = true) :
    ∃ step ∈ steps, entry.names step = true ∧
      (topology.matched steps)[p]? = some (entry, some step) := by
  obtain ⟨named, hnamed, hname⟩ := hnames
  obtain ⟨i, hi⟩ := Option.isSome_iff_exists.mp
    ((List.findIdx?_isSome (p := entry.names)).trans (List.any_eq_true.mpr ⟨named, hnamed, hname⟩))
  obtain ⟨hlt, hstep, -⟩ := List.findIdx?_eq_some_iff_getElem.mp hi
  refine ⟨steps[i], List.getElem_mem hlt, hstep, ?_⟩
  have hmatch := matchFrom_getElem?_of_names hi topology [] hentry
  rw [matched, List.getElem?_zip_eq_some]
  refine ⟨hentry, ?_⟩
  rw [List.getElem?_map, matches?, hmatch]
  simp [hlt]

end Topology

namespace Order

theorem mem_place_order {transport : Transport} {progress : Progress}
    {pair : TopologyEntry × Option Step} {client : String} :
    client ∈ (progress.place transport pair).order ↔
      client ∈ progress.order ∨ Topology.refersTo transport client pair = true := by
  obtain ⟨entry, step⟩ := pair
  rw [Topology.refersTo_iff]
  cases step with
  | none => simp [Progress.place]
  | some step =>
    simp only [Progress.place]
    split
    next hmem =>
      have hplaced : step.client transport ∈ progress.order := by simpa using hmem
      simp only [Option.some.injEq, exists_eq_left']
      constructor
      · exact Or.inl
      · rintro (h | rfl)
        · exact h
        · exact hplaced
    next => simp [eq_comm]

theorem mem_foldl_place_order {transport : Transport}
    (pairs : List (TopologyEntry × Option Step)) (progress : Progress) {client : String} :
    client ∈ (pairs.foldl (Progress.place transport) progress).order ↔
      client ∈ progress.order ∨ ∃ pair ∈ pairs, Topology.refersTo transport client pair = true := by
  induction pairs generalizing progress with
  | nil => simp
  | cons pair rest ih =>
    rw [List.foldl_cons, ih, mem_place_order]
    simp [or_assoc]

/-- The base order holds what the entries refer to. -/
theorem mem_base_iff {topology : Topology} (h : topology ≠ []) {steps : List Step}
    {transport : Transport} {client : String} :
    client ∈ (base topology steps transport).value ↔
      ∃ p, topology.firstFor? steps transport client = some p := by
  have hempty : topology.isEmpty = false := by simpa using h
  rw [← Option.isSome_iff_exists, Topology.firstFor?, List.findIdx?_isSome, List.any_eq_true]
  simp [base, hempty, mem_foldl_place_order]

theorem find?_contracts {steps : List Step} {transport : Transport} {identifier : String} :
    (contracts steps transport).find? identifier =
      (steps.reverse.find? (·.client transport == identifier)).map Contract.ofStep := by
  rw [contracts, Table.find?_ofList, ← List.map_reverse, List.find?_map, Option.map_map]
  rfl

namespace Expander

def declared? (x : Expander) (step : String) (position : Position) : Option String :=
  ((x.contracts.find? step).bind fun c =>
    match position with
    | .before => c.inputType
    | .after => c.outputType).filter (!Name.isVoid ·)

def HasKey (x : Expander) (step : String) (p : Nat) : Prop :=
  ∃ entry, x.topology[p]? = some entry ∧ Text.token entry.name ∈ x.stepKeys step

/-- The entry at a position means the step: it is the first with a token of the step or, if there is
none, the first of those that share most with the step's identifier. -/
inductive Means (x : Expander) (step : String) (p : Nat) : Prop where
  | byKey (key : x.HasKey step p) (first : ∀ q < p, ¬x.HasKey step q)
  | byWords (noKey : ∀ q, ¬x.HasKey step q) (score : Overlap.Score)
      (best : Overlap.IsBest (Overlap.meaningfulWords step) (x.topology.map (·.name)) p score)

theorem Means.unique {x : Expander} {step : String} {p q : Nat} (hp : x.Means step p)
    (hq : x.Means step q) : p = q := by
  cases hp with
  | byKey hkey hfirst =>
    cases hq with
    | byKey hkey' hfirst' =>
      rcases Nat.lt_trichotomy p q with hlt | heq | hlt
      · exact absurd hkey (hfirst' p hlt)
      · exact heq
      · exact absurd hkey' (hfirst q hlt)
    | byWords hnone => exact absurd hkey (hnone p)
  | byWords hnone score hbest =>
    cases hq with
    | byKey hkey => exact absurd hkey (hnone q)
    | byWords _ score' hbest' => exact hbest.unique hbest'

theorem means_of_find?_eq_some {x : Expander} {step : String} {entry : TopologyEntry}
    (h : (x.topology.find? fun entry => (x.stepKeys step).contains (Text.token entry.name)) =
      some entry) : ∃ p, x.Means step p ∧ x.topology[p]? = some entry := by
  obtain ⟨hkey, p, hp, rfl, hearlier⟩ := List.find?_eq_some_iff_getElem.mp h
  have hentry := List.getElem?_eq_getElem hp
  refine ⟨p, .byKey ⟨_, hentry, by simpa using hkey⟩ ?_, hentry⟩
  rintro q hq ⟨other, hother, hkey'⟩
  obtain ⟨hlt, rfl⟩ := List.getElem?_eq_some_iff.mp hother
  have hnot := hearlier q hq
  rw [List.contains_iff_mem.mpr hkey'] at hnot
  cases hnot

theorem not_hasKey_of_find?_eq_none {x : Expander} {step : String}
    (h : (x.topology.find? fun entry => (x.stepKeys step).contains (Text.token entry.name)) = none)
    (p : Nat) : ¬x.HasKey step p := by
  rintro ⟨entry, hentry, hkey⟩
  exact List.find?_eq_none.mp h entry (List.mem_of_getElem? hentry) (by simpa using hkey)

/-- The entry of a step is the one that means it. -/
theorem entry?_eq_some_iff {x : Expander} {step : String} {entry : TopologyEntry} :
    x.entry? step = some entry ↔ ∃ p, x.Means step p ∧ x.topology[p]? = some entry := by
  unfold entry?
  dsimp only
  split
  next found hfound =>
    obtain ⟨p, hmeans, hp⟩ := means_of_find?_eq_some hfound
    constructor
    · intro h
      exact ⟨p, hmeans, hp.trans h⟩
    · rintro ⟨q, hq, hentry⟩
      rw [← hmeans.unique hq, hp] at hentry
      exact hentry
  next hnone =>
    have hnoKey := not_hasKey_of_find?_eq_none hnone
    rw [Option.bind_eq_some_iff]
    constructor
    · rintro ⟨p, hbest, hentry⟩
      obtain ⟨score, hscore⟩ := Overlap.best?_eq_some_iff.mp hbest
      exact ⟨p, .byWords hnoKey score hscore, hentry⟩
    · rintro ⟨p, hmeans, hentry⟩
      cases hmeans with
      | byKey hkey => exact absurd hkey (hnoKey p)
      | byWords _ score hscore => exact ⟨p, Overlap.best?_eq_some_iff.mpr ⟨score, hscore⟩, hentry⟩

/-- A step without a declared type takes the type of the entry that means it. -/
theorem type?_eq {x : Expander} {step : String} {position : Position} :
    x.type? step position =
      (x.declared? step position).or ((x.entry? step).bind (·.typeAt? position)) := by
  cases position <;> simp only [type?, declared?] <;> split
  all_goals
    next htype =>
      rw [htype]
      cases x.entry? step <;> simp [TopologyEntry.typeAt?]

/-- The topology refers to steps by their names, and no step can be taken for another: each has a
client adapter of its own, and its name is none of the tokens by which another is meant. -/
structure NamedApart (x : Expander) (steps : List Step) : Prop where
  named : ∀ entry ∈ x.topology, ∃ step ∈ steps, Text.token entry.name = Text.token step.name
  clients : ∀ step ∈ steps, ∀ other ∈ steps,
    step.client x.transport = other.client x.transport → step = other
  apart : ∀ step ∈ steps, ∀ other ∈ steps,
    Text.token step.name ∈ x.stepKeys (other.client x.transport) ∨
      Text.token step.name = Text.token (Naming.serviceBase other.serviceName) → step = other

/-- The entry at a position is the only one that shares a word with the step, and no entry has a
token of the step. -/
structure SharesAlone (x : Expander) (step : String) (p : Nat) : Prop where
  noKey : ∀ q, ¬x.HasKey step q
  shares : ∃ score, Overlap.scoreAt (Overlap.meaningfulWords step) (x.topology.map (·.name)) p =
    some score
  alone : ∀ q score, Overlap.scoreAt (Overlap.meaningfulWords step) (x.topology.map (·.name)) q =
    some score → q = p

theorem SharesAlone.means {x : Expander} {step : String} {p : Nat} (h : x.SharesAlone step p) :
    x.Means step p := by
  obtain ⟨score, hscore⟩ := h.shares
  refine .byWords h.noKey score ⟨hscore, ?_, ?_⟩
  · intro q other hother
    obtain rfl := h.alone q other hother
    rw [hscore] at hother
    cases hother
    rw [Overlap.Score.lt_false_iff]
    omega
  · intro q other hother hlt
    obtain rfl := h.alone q other hother
    omega

section NamedApart

variable {x : Expander} {steps : List Step}

/-- The contract of a client adapter that only one step has is that of the step. -/
theorem NamedApart.contract (h : x.NamedApart steps)
    (hcontracts : x.contracts = Order.contracts steps x.transport) {step : Step} (hstep : step ∈ steps) :
    x.contracts.find? (step.client x.transport) = some (Contract.ofStep step) := by
  have hfind : steps.reverse.find? (·.client x.transport == step.client x.transport) =
      some step := by
    apply find?_of_unique (List.mem_reverse.mpr hstep)
    · exact beq_self_eq_true (step.client x.transport)
    · intro other hother hclient
      exact h.clients other (List.mem_reverse.mp hother) step hstep (beq_iff_eq.mp hclient)
  rw [hcontracts, find?_contracts, hfind, Option.map_some]

theorem NamedApart.token_mem_stepKeys (h : x.NamedApart steps)
    (hcontracts : x.contracts = Order.contracts steps x.transport) {step : Step} (hstep : step ∈ steps) :
    Text.token step.name ∈ x.stepKeys (step.client x.transport) := by
  simp [stepKeys, h.contract hcontracts hstep, Contract.ofStep]

/-- Every entry is matched with the step that it has the name of. -/
theorem NamedApart.matched (h : x.NamedApart steps)
    (hcontracts : x.contracts = Order.contracts steps x.transport) {p : Nat} {entry : TopologyEntry}
    (hentry : x.topology[p]? = some entry) {step : Step} (hstep : step ∈ steps)
    (hname : Text.token entry.name = Text.token step.name) :
    (x.topology.matched steps)[p]? = some (entry, some step) := by
  obtain ⟨other, hother, hnames, hmatched⟩ :=
    Topology.matched_getElem?_of_names hentry ⟨step, hstep, by simp [TopologyEntry.names, hname]⟩
  -- The step that is found bears the name itself or through its service; either makes it the one.
  have heq : step = other := by
    apply h.apart step hstep other hother
    rw [TopologyEntry.names, Bool.or_eq_true, beq_iff_eq, beq_iff_eq, hname] at hnames
    rcases hnames with hnames | hnames
    · left
      rw [← hnames]
      exact h.token_mem_stepKeys hcontracts hother
    · exact .inr hnames.symm
  rw [heq]
  exact hmatched

/-- The first entry that refers to a step is the first with a token of the step. -/
theorem NamedApart.means (h : x.NamedApart steps)
    (hcontracts : x.contracts = Order.contracts steps x.transport) {client : String} {p : Nat}
    (hp : x.topology.firstFor? steps x.transport client = some p) : x.Means client p := by
  obtain ⟨⟨entry, step, hmatched, rfl⟩, hearlier⟩ := Topology.firstFor?_eq_some_iff.mp hp
  have hentry : x.topology[p]? = some entry := Topology.matched_getElem?_fst hmatched
  obtain ⟨named, hnamed, hname⟩ := h.named entry (List.mem_of_getElem? hentry)
  obtain rfl : step = named := by
    rw [h.matched hcontracts hentry hnamed hname] at hmatched
    cases hmatched
    rfl
  refine .byKey ⟨entry, hentry, ?_⟩ ?_
  · rw [hname]
    exact h.token_mem_stepKeys hcontracts hnamed
  · rintro q hq ⟨other, hother, hkey⟩
    obtain ⟨meant, hmeant, hname'⟩ := h.named other (List.mem_of_getElem? hother)
    rw [hname'] at hkey
    -- An earlier entry with a token of the step has its name and would refer to it first.
    have hmatched' := h.matched hcontracts hother hmeant hname'
    rw [h.apart meant hmeant step hnamed (.inl hkey)] at hmatched'
    exact hearlier q hq other step hmatched' rfl

end NamedApart

/-- Where a step of the base order has no declared type, its type is that of the entry that means it;
the first entry that refers to the step is this one if the topology goes by the names of the steps
or if no other entry shares a word with the step. -/
theorem type?_of_mem_base {x : Expander} {steps : List Step} {client : String}
    {position : Position} (hcontracts : x.contracts = Order.contracts steps x.transport)
    (htopology : x.topology ≠ [])
    (hclient : client ∈ (base x.topology steps x.transport).value)
    (hdeclared : x.declared? client position = none) :
    (∀ p entry, x.Means client p → x.topology[p]? = some entry →
      x.type? client position = entry.typeAt? position) ∧
    ((∀ p, ¬x.Means client p) → x.type? client position = none) ∧
    ∃ p entry, x.topology.firstFor? steps x.transport client = some p ∧
      x.topology[p]? = some entry ∧
      (x.NamedApart steps ∨ x.SharesAlone client p →
        x.type? client position = entry.typeAt? position) := by
  have hmeans {p : Nat} {entry : TopologyEntry} (hp : x.Means client p)
      (hentry : x.topology[p]? = some entry) :
      x.type? client position = entry.typeAt? position := by
    rw [type?_eq, hdeclared, entry?_eq_some_iff.mpr ⟨p, hp, hentry⟩, Option.none_or, Option.bind_some]
  refine ⟨fun p entry => hmeans, ?_, ?_⟩
  · intro hnone
    have hentry : x.entry? client = none := by
      by_contra hsome
      obtain ⟨entry, hentry⟩ := Option.ne_none_iff_exists'.mp hsome
      obtain ⟨p, hp, -⟩ := entry?_eq_some_iff.mp hentry
      exact hnone p hp
    rw [type?_eq, hdeclared, hentry, Option.none_or, Option.bind_none]
  · obtain ⟨p, hp⟩ := (mem_base_iff htopology).mp hclient
    obtain ⟨⟨entry, step, hmatched, -⟩, -⟩ := Topology.firstFor?_eq_some_iff.mp hp
    have hentry : x.topology[p]? = some entry := Topology.matched_getElem?_fst hmatched
    refine ⟨p, entry, hp, hentry, ?_⟩
    rintro (h | h)
    · exact hmeans (h.means hcontracts hp) hentry
    · exact hmeans h.means hentry

/-- Two entries that share one word with each of two steps. -/
def twoOrders : Description where
  baseSpace := "acme"
  steps := [{ name := "alpha-order" }, { name := "beta-order" }]
  topology := [
    { name := "order one", inputType := "acme.Raw", outputType := "acme.First" },
    { name := "order two", inputType := "acme.First", outputType := "acme.Second" }]

def orderSteps : List Step := (Compilation.extractAll twoOrders twoOrders.steps).1

/-- The second entry puts the second step into the order, but the first gives it its type. -/
theorem twoOrders_disagree :
    "acme.ProcessBetaOrderGrpcClientStep" ∈
      (base twoOrders.topology orderSteps twoOrders.transport).value ∧
    (Compilation.expander twoOrders orderSteps none).declared?
      "acme.ProcessBetaOrderGrpcClientStep" .after = none ∧
    twoOrders.topology.firstFor? orderSteps twoOrders.transport
      "acme.ProcessBetaOrderGrpcClientStep" = some 1 ∧
    (twoOrders.topology[1]?).bind (·.typeAt? .after) = some "acme.Second" ∧
    (Compilation.expander twoOrders orderSteps none).type?
      "acme.ProcessBetaOrderGrpcClientStep" .after = some "acme.First" := by
  decide +kernel

def payThenShip : Description where
  baseSpace := "acme"
  steps := [{ name := "ship" }, { name := "pay" }]
  topology := [
    { name := "Pay", inputType := "acme.Bill", outputType := " acme.Receipt " },
    { name := "SHIP", inputType := "acme.Receipt", outputType := "void" }]

def paySteps : List Step := (Compilation.extractAll payThenShip payThenShip.steps).1

def billThenBox : Description where
  baseSpace := "acme"
  steps := [{ name := "pay-bill" }, { name := "ship-box" }]
  topology := [
    { name := "bill in", inputType := "acme.Bill", outputType := "acme.Receipt" },
    { name := "box out", inputType := "acme.Receipt", outputType := "acme.Label" }]

def billSteps : List Step := (Compilation.extractAll billThenBox billThenBox.steps).1

theorem billThenBox_sharesAlone :
    (Compilation.expander billThenBox billSteps none).SharesAlone
      "acme.ProcessShipBoxGrpcClientStep" 1 := by
  obtain ⟨hnone, hscore, hscore'⟩ :
      (billThenBox.topology.find? fun entry =>
        ((Compilation.expander billThenBox billSteps none).stepKeys
          "acme.ProcessShipBoxGrpcClientStep").contains (Text.token entry.name)) = none ∧
      Overlap.scoreAt (Overlap.meaningfulWords "acme.ProcessShipBoxGrpcClientStep")
        (billThenBox.topology.map (·.name)) 0 = none ∧
      Overlap.scoreAt (Overlap.meaningfulWords "acme.ProcessShipBoxGrpcClientStep")
        (billThenBox.topology.map (·.name)) 1 = some ⟨1, 3⟩ := by
    decide +kernel
  refine ⟨not_hasKey_of_find?_eq_none hnone, ⟨_, hscore'⟩, ?_⟩
  intro q score h
  have hlt : q < 2 := Overlap.lt_of_scoreAt_eq_some h
  have hne : q ≠ 0 := by
    rintro rfl
    cases hscore.symm.trans h
  omega

theorem payThenShip_namedApart :
    (Compilation.expander payThenShip paySteps none).NamedApart paySteps := by
  obtain ⟨hnamed, hclients, hapart⟩ :
      (∀ entry ∈ payThenShip.topology, ∃ step ∈ paySteps,
        Text.token entry.name = Text.token step.name) ∧
      (∀ step ∈ paySteps, ∀ other ∈ paySteps, step.client .grpc = other.client .grpc →
        step = other) ∧
      ∀ step ∈ paySteps, ∀ other ∈ paySteps,
        Text.token step.name ∈ (Compilation.expander payThenShip paySteps none).stepKeys
            (other.client .grpc) ∨
          Text.token step.name = Text.token (Naming.serviceBase other.serviceName) →
        step = other := by
    decide +kernel
  exact ⟨hnamed, hclients, hapart⟩

theorem pay_and_box_type? :
    (Compilation.expander payThenShip paySteps none).type?
      "acme.ProcessPayGrpcClientStep" .after = some "acme.Receipt" ∧
    (Compilation.expander billThenBox billSteps none).type?
      "acme.ProcessShipBoxGrpcClientStep" .after = some "acme.Label" := by
  constructor
  · obtain ⟨hdeclared, hfirst⟩ :
        (Compilation.expander payThenShip paySteps none).declared?
          "acme.ProcessPayGrpcClientStep" .after = none ∧
        payThenShip.topology.firstFor? paySteps payThenShip.transport
          "acme.ProcessPayGrpcClientStep" = some 0 := by decide +kernel
    have htopology : payThenShip.topology ≠ [] := List.cons_ne_nil _ _
    obtain ⟨-, -, p, entry, hp, hentry, htype⟩ :=
      type?_of_mem_base (x := Compilation.expander payThenShip paySteps none) rfl htopology
        ((mem_base_iff htopology).mpr ⟨0, hfirst⟩) hdeclared
    obtain rfl : 0 = p := Option.some.inj (hfirst.symm.trans hp)
    cases hentry
    rw [htype (.inl payThenShip_namedApart)]
    decide +kernel
  · obtain ⟨hdeclared, hfirst⟩ :
        (Compilation.expander billThenBox billSteps none).declared?
          "acme.ProcessShipBoxGrpcClientStep" .after = none ∧
        billThenBox.topology.firstFor? billSteps billThenBox.transport
          "acme.ProcessShipBoxGrpcClientStep" = some 1 := by decide +kernel
    have htopology : billThenBox.topology ≠ [] := List.cons_ne_nil _ _
    obtain ⟨-, -, p, entry, hp, hentry, htype⟩ :=
      type?_of_mem_base (x := Compilation.expander billThenBox billSteps none) rfl htopology
        ((mem_base_iff htopology).mpr ⟨1, hfirst⟩) hdeclared
    obtain rfl : 1 = p := Option.some.inj (hfirst.symm.trans hp)
    cases hentry
    rw [htype (.inr billThenBox_sharesAlone)]
    decide +kernel

end Expander

end Order

end PipelinePlan
