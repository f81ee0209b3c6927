import PipelinePlan.Proofs.Description.Matching
import PipelinePlan.Proofs.Order.Base

namespace PipelinePlan

def Topology.clients (topology : Topology) (steps : List Step) (transport : Transport) :
    List String :=
  (topology.matches? steps).filterMap fun position =>
    (position.bind (steps[·]?)).map (·.client transport)

namespace Order

theorem eraseDups_concat (texts : List String) (s : String) :
    (texts ++ [s]).eraseDups =
      if s ∈ texts then texts.eraseDups else texts.eraseDups ++ [s] := by
  rw [List.eraseDups_append]
  by_cases h : s ∈ texts <;> simp [List.removeAll, List.eraseDups_cons, h]

theorem firsts_eraseDups (texts more : List String) :
    firsts texts.eraseDups more = (texts ++ more).eraseDups := by
  induction more generalizing texts with
  | nil => rw [firsts, List.append_nil]
  | cons s more ih =>
    have hnext : (if texts.eraseDups.contains s then texts.eraseDups
        else texts.eraseDups ++ [s]) = (texts ++ [s]).eraseDups := by
      rw [eraseDups_concat]
      simp only [List.contains_iff_mem, List.mem_eraseDups]
    rw [firsts, hnext, ih, List.append_assoc, List.singleton_append]

def clientsOf (transport : Transport) (pairs : List (TopologyEntry × Option Step)) : List String :=
  (pairs.map Prod.snd).filterMap fun step => step.map (·.client transport)

theorem clientsOf_matched (topology : Topology) (steps : List Step) (transport : Transport) :
    clientsOf transport (topology.matched steps) = topology.clients steps transport := by
  rw [clientsOf, Topology.map_snd_matched, List.filterMap_map]
  rfl

/-- What a run through entries has ordered and remarked on accounts for all of them. -/
structure Accounts (transport : Transport) (pairs : List (TopologyEntry × Option Step))
    (progress : Progress) : Prop where
  order : progress.order = (clientsOf transport pairs).eraseDups
  unmatched : (progress.diagnostics.withCode Diagnostic.topologyStepUnmatched).map (·.subject) =
    (pairs.filter (·.2.isNone)).map (·.1.name)
  entries : progress.order.length +
      (progress.diagnostics.withCode Diagnostic.topologyStepUnmatched).length +
      (progress.diagnostics.withCode Diagnostic.topologyStepDuplicate).length = pairs.length
  leftOut : progress.diagnostics.withCode Diagnostic.stepNotInTopology = []

theorem clientsOf_concat_none (transport : Transport)
    (pairs : List (TopologyEntry × Option Step)) (entry : TopologyEntry) :
    clientsOf transport (pairs ++ [(entry, none)]) = clientsOf transport pairs := by
  simp [clientsOf]

theorem clientsOf_concat_some (transport : Transport)
    (pairs : List (TopologyEntry × Option Step)) (entry : TopologyEntry) (step : Step) :
    clientsOf transport (pairs ++ [(entry, some step)]) =
      clientsOf transport pairs ++ [step.client transport] := by
  simp [clientsOf]

theorem withCode_concat (ds : Diagnostics) (code other subject message : String) :
    Diagnostics.withCode (ds ++ [.warning other subject message]) code =
      ds.withCode code ++ if other = code then [.warning other subject message] else [] := by
  simp only [Diagnostics.withCode, List.filter_append]
  by_cases h : other = code <;> simp [Diagnostic.warning, h]

theorem codes_apart : Diagnostic.topologyStepUnmatched ≠ Diagnostic.topologyStepDuplicate ∧
    Diagnostic.topologyStepUnmatched ≠ Diagnostic.stepNotInTopology ∧
    Diagnostic.topologyStepDuplicate ≠ Diagnostic.stepNotInTopology := by
  decide

/-- One more entry is ordered, or reported under one of two codes. -/
theorem Accounts.place {transport : Transport} {pairs : List (TopologyEntry × Option Step)}
    {progress : Progress} (h : Accounts transport pairs progress)
    (pair : TopologyEntry × Option Step) :
    Accounts transport (pairs ++ [pair]) (progress.place transport pair) := by
  obtain ⟨hunmatchedDuplicate, hunmatchedLeft, hduplicateLeft⟩ := codes_apart
  obtain ⟨entry, step⟩ := pair
  have hentries := h.entries
  cases step with
  | none =>
    simp only [Progress.place]
    constructor
    · rw [clientsOf_concat_none]
      exact h.order
    · rw [withCode_concat, if_pos rfl, List.map_append, h.unmatched, List.filter_append,
        List.map_append]
      rfl
    · simp only [withCode_concat, if_true, if_neg hunmatchedDuplicate, List.length_append,
        List.length_singleton, List.length_nil]
      omega
    · rw [withCode_concat, if_neg hunmatchedLeft, List.append_nil]
      exact h.leftOut
  | some step =>
    have hmem : step.client transport ∈ progress.order ↔
        step.client transport ∈ clientsOf transport pairs := by
      rw [h.order, List.mem_eraseDups]
    have hunmatched : ((pairs ++ [(entry, some step)]).filter (·.2.isNone)).map (·.1.name) =
        (pairs.filter (·.2.isNone)).map (·.1.name) := by
      simp
    by_cases hplaced : step.client transport ∈ progress.order
    · have hplace : progress.place transport (entry, some step) =
          { progress with diagnostics := progress.diagnostics ++
              [.warning Diagnostic.topologyStepDuplicate entry.name
                s!"topology step resolves to '{step.name}', which is already ordered"] } := by
        simp [Progress.place, hplaced]
      rw [hplace]
      constructor
      · rw [clientsOf_concat_some, eraseDups_concat, if_pos (hmem.mp hplaced)]
        exact h.order
      · rw [withCode_concat, if_neg hunmatchedDuplicate.symm, List.append_nil, hunmatched]
        exact h.unmatched
      · simp only [withCode_concat, if_true, if_neg hunmatchedDuplicate.symm, List.length_append,
          List.length_singleton, List.length_nil]
        omega
      · rw [withCode_concat, if_neg hduplicateLeft, List.append_nil]
        exact h.leftOut
    · have hplace : progress.place transport (entry, some step) =
          { progress with order := progress.order ++ [step.client transport] } := by
        simp [Progress.place, hplaced]
      rw [hplace]
      constructor
      · rw [clientsOf_concat_some, eraseDups_concat, if_neg (mt hmem.mpr hplaced), h.order]
      · rw [hunmatched]
        exact h.unmatched
      · simp only [List.length_append, List.length_singleton]
        omega
      · exact h.leftOut

theorem accounts_foldl (transport : Transport) (pairs : List (TopologyEntry × Option Step)) :
    Accounts transport pairs (pairs.foldl (Progress.place transport) {}) := by
  induction pairs using List.reverseRecOn with
  | nil => exact ⟨rfl, rfl, rfl, rfl⟩
  | append_singleton pairs pair ih =>
    rw [List.foldl_append]
    exact ih.place pair

theorem withCode_unreached (transport : Transport) (order : List String) (steps : List Step)
    (code : String) :
    (unreached transport order steps).withCode code =
      if Diagnostic.stepNotInTopology = code then unreached transport order steps else [] := by
  by_cases h : Diagnostic.stepNotInTopology = code
  · rw [if_pos h]
    apply List.filter_eq_self.mpr
    intro d hd
    obtain ⟨step, -, rfl⟩ := List.mem_map.mp hd
    simpa [Diagnostic.warning] using h
  · rw [if_neg h]
    apply List.filter_eq_nil_iff.mpr
    intro d hd
    obtain ⟨step, -, rfl⟩ := List.mem_map.mp hd
    simpa [Diagnostic.warning] using h

theorem subjects_unreached (transport : Transport) (order : List String) (steps : List Step) :
    (unreached transport order steps).map (·.subject) =
      (steps.filter fun step => !step.sideEffect && step.client transport ∉ order).map
        (·.name) := by
  simp only [unreached, mainSteps, List.filter_filter, List.map_map]
  congr 1
  apply List.filter_congr
  intro step _
  simp [Bool.and_comm]

theorem base_nodup {topology : Topology} (h : topology ≠ []) (steps : List Step)
    (transport : Transport) : (base topology steps transport).value.Nodup := by
  rw [base_of_ne_nil h]
  apply (foldl_place_pairwise transport _).imp
  rintro client _ hlt rfl
  exact Nat.lt_irrefl _ hlt

theorem withCode_append (ds more : Diagnostics) (code : String) :
    Diagnostics.withCode (ds ++ more) code = ds.withCode code ++ more.withCode code :=
  List.filter_append ds more

/-- With a topology the base order is the client adapters of the steps it refers to, each once, and
every entry and every step that is not in it is reported. Without one it is the client adapters of
the steps that are no side effects, and nothing is reported. -/
theorem base_accounts (topology : Topology) (steps : List Step) (transport : Transport) :
    (topology ≠ [] →
      (base topology steps transport).value.Nodup ∧
      (base topology steps transport).value = (topology.clients steps transport).eraseDups ∧
      (base topology steps transport).value.length +
        ((base topology steps transport).diagnostics.withCode
          Diagnostic.topologyStepUnmatched).length +
        ((base topology steps transport).diagnostics.withCode
          Diagnostic.topologyStepDuplicate).length = topology.length ∧
      ((base topology steps transport).diagnostics.withCode
        Diagnostic.topologyStepUnmatched).map (·.subject) =
        ((topology.zip (topology.matches? steps)).filter (·.2.isNone)).map (·.1.name) ∧
      ((base topology steps transport).diagnostics.withCode
        Diagnostic.stepNotInTopology).map (·.subject) =
        (steps.filter fun step => !step.sideEffect &&
          step.client transport ∉ (base topology steps transport).value).map (·.name)) ∧
    (base [] steps transport).value =
      ((steps.filter (!·.sideEffect)).map (·.client transport)).eraseDups ∧
    (base [] steps transport).diagnostics = [] := by
  refine ⟨fun h => ?_, firsts_eraseDups [] _, rfl⟩
  obtain ⟨hunmatchedDuplicate, hunmatchedLeft, hduplicateLeft⟩ := codes_apart
  obtain ⟨horder, hunmatched, hentries, hleftOut⟩ :=
    accounts_foldl transport (topology.matched steps)
  have hvalue : (base topology steps transport).value =
      ((topology.matched steps).foldl (Progress.place transport) {}).order := base_of_ne_nil h
  have hdiagnostics : (base topology steps transport).diagnostics =
      ((topology.matched steps).foldl (Progress.place transport) {}).diagnostics ++
        unreached transport (base topology steps transport).value steps := by
    have hempty : topology.isEmpty = false := by simpa using h
    simp only [base, hempty, Bool.false_eq_true, if_false]
  have hnames : ((topology.matched steps).filter (·.2.isNone)).map (·.1.name) =
      ((topology.zip (topology.matches? steps)).filter (·.2.isNone)).map (·.1.name) := by
    have hentries := congrArg (List.map TopologyEntry.name)
      (Topology.filter_isNone_matched topology steps)
    rwa [List.map_map, List.map_map] at hentries
  refine ⟨base_nodup h steps transport, ?_, ?_, ?_, ?_⟩
  · rw [hvalue, horder, clientsOf_matched]
  · rw [Topology.length_matched] at hentries
    rw [hdiagnostics, withCode_append, withCode_append, withCode_unreached, withCode_unreached,
      if_neg hunmatchedLeft.symm, if_neg hduplicateLeft.symm, List.append_nil, List.append_nil,
      hvalue]
    exact hentries
  · rw [hdiagnostics, withCode_append, withCode_unreached, if_neg hunmatchedLeft.symm,
      List.append_nil, hunmatched, hnames]
  · rw [hdiagnostics, withCode_append, withCode_unreached, if_pos rfl, hleftOut, List.nil_append,
      subjects_unreached]

/-- Four entries for two of three steps: one entry comes back to a step and one has none. -/
def payTwice : Description where
  baseSpace := "acme"
  steps := [{ name := "pay" }, { name := "box" }, { name := "log" }]
  topology := [{ name := "Pay" }, { name := "box" }, { name := "pay" }, { name := "fly" }]

def payTwiceSteps : List Step := (Compilation.extractAll payTwice payTwice.steps).1

theorem payTwice_accounts :
    payTwice.topology ≠ [] ∧
    (base payTwice.topology payTwiceSteps .grpc).value =
      ["acme.ProcessPayGrpcClientStep", "acme.ProcessBoxGrpcClientStep"] ∧
    (base payTwice.topology payTwiceSteps .grpc).value.length +
      ((base payTwice.topology payTwiceSteps .grpc).diagnostics.withCode
        Diagnostic.topologyStepUnmatched).length +
      ((base payTwice.topology payTwiceSteps .grpc).diagnostics.withCode
        Diagnostic.topologyStepDuplicate).length = 4 ∧
    ((base payTwice.topology payTwiceSteps .grpc).diagnostics.withCode
      Diagnostic.topologyStepUnmatched).map (·.subject) = ["fly"] ∧
    ((base payTwice.topology payTwiceSteps .grpc).diagnostics.withCode
      Diagnostic.stepNotInTopology).map (·.subject) = ["log"] := by
  have htopology : payTwice.topology ≠ [] := List.cons_ne_nil _ _
  obtain ⟨-, hvalue, hentries, hunmatched, hleftOut⟩ :=
    (base_accounts payTwice.topology payTwiceSteps .grpc).1 htopology
  have horder : (payTwice.topology.clients payTwiceSteps .grpc).eraseDups =
      ["acme.ProcessPayGrpcClientStep", "acme.ProcessBoxGrpcClientStep"] ∧
      ((payTwice.topology.zip (payTwice.topology.matches? payTwiceSteps)).filter
        (·.2.isNone)).map (·.1.name) = ["fly"] ∧
      (payTwiceSteps.filter fun step => !step.sideEffect && step.client .grpc ∉
        ["acme.ProcessPayGrpcClientStep", "acme.ProcessBoxGrpcClientStep"]).map (·.name) =
        ["log"] := by
    decide +kernel
  rw [horder.1] at hvalue
  rw [hvalue] at hleftOut
  exact ⟨htopology, hvalue, hentries, hunmatched.trans horder.2.1, hleftOut.trans horder.2.2⟩

end Order

end PipelinePlan
