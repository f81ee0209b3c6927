import PipelinePlan.Placement.Basic
import PipelinePlan.Proofs.Except
import PipelinePlan.Proofs.Placement.Overrides

namespace PipelinePlan.Placement

def declared (overrides : Overrides) : List String := overrides.modules.map (·.name)

/-- The modules in the order of their numbers: the known ones, then the others in the order in which
they are first needed. -/
def tableFrom (known needed : List String) : List String :=
  known ++ (needed.filter (!known.contains ·)).eraseDups

theorem numberModules_eq (known : List String) (assignments : List Assignment) :
    numberModules known assignments = tableFrom known (assignments.map (·.module)) := by
  induction assignments generalizing known with
  | nil => simp [numberModules, tableFrom]
  | cons a rest ih =>
    rw [numberModules, ih, List.map_cons, tableFrom, tableFrom]
    by_cases hknown : a.module ∈ known
    · simp [hknown]
    · have hnew : known.contains a.module = false := by simpa using hknown
      rw [hnew, if_neg Bool.false_ne_true, List.filter_cons, hnew, Bool.not_false, if_pos rfl,
        List.eraseDups_cons, List.append_assoc, List.singleton_append, List.filter_filter]
      congr 4
      funext other
      by_cases hother : other = a.module <;> simp [hother]

theorem mem_tableFrom {known needed : List String} {module : String} :
    module ∈ tableFrom known needed ↔ module ∈ known ∨ module ∈ needed := by
  by_cases hknown : module ∈ known <;> simp [tableFrom, List.mem_eraseDups, hknown]

/-- A module that is known keeps its number. -/
theorem idxOf_tableFrom {known : List String} {module : String} (h : module ∈ known)
    (needed : List String) : (tableFrom known needed).idxOf module = known.idxOf module :=
  List.idxOf_append_of_mem h

/-- A module that is needed keeps its number if more modules are needed later. -/
theorem idxOf_tableFrom_append {known first : List String} {module : String} (h : module ∈ first)
    (later : List String) :
    (tableFrom known (first ++ later)).idxOf module = (tableFrom known first).idxOf module := by
  have hmem : module ∈ tableFrom known first := mem_tableFrom.mpr (.inr h)
  rw [tableFrom, List.filter_append, List.eraseDups_append, ← List.append_assoc, ← tableFrom]
  exact List.idxOf_append_of_mem hmem

def hostOf (overrides : Overrides) (module : String) : String :=
  ((overrides.module? module).bind (·.host)).getD defaultHost

def portOf (overrides : Overrides) (table : List String) (module : String) :
    Except Error UInt16 :=
  match overrides.modulePort? module with
  | some port => .ok port
  | none => defaultPort overrides.basePort (table.idxOf module) module

theorem locate_eq (overrides : Overrides) (table : List String) (a : Assignment) :
    locate overrides table a = (portOf overrides table a.module).map fun port =>
      { step := a.step
        clientName := a.clientName
        module := a.module
        host := hostOf overrides a.module
        port
        tlsName := overrides.tlsName } := by
  simp only [locate, portOf, Overrides.modulePort?]
  cases (overrides.module? a.module).bind (·.port) with
  | some port => rfl
  | none => cases defaultPort overrides.basePort (table.idxOf a.module) a.module <;> rfl

structure LocatedAt (overrides : Overrides) (table : List String) (a : Assignment)
    (placement : Placement) : Prop where
  step : placement.step = a.step
  module : placement.module = a.module
  host : placement.host = hostOf overrides a.module
  port : portOf overrides table a.module = .ok placement.port

theorem locate_eq_ok {overrides : Overrides} {table : List String} {a : Assignment}
    {placement : Placement} (h : locate overrides table a = .ok placement) :
    LocatedAt overrides table a placement := by
  rw [locate_eq] at h
  cases hport : portOf overrides table a.module with
  | error e =>
    rw [hport] at h
    cases h
  | ok port =>
    rw [hport] at h
    cases h
    exact ⟨rfl, rfl, rfl, hport⟩

/-- The address of an assignment depends on the table through the number of its module only. -/
theorem locate_congr {overrides : Overrides} {table table' : List String} {a : Assignment}
    (h : table.idxOf a.module = table'.idxOf a.module) :
    locate overrides table a = locate overrides table' a := by
  rw [locate_eq, locate_eq, portOf, portOf, h]

section Order

variable (expansion : Order.Expansion) (steps : List Step) (transport : Transport)
  (overrides : Overrides)

def assignments : List Assignment :=
  expansion.order.map (assign overrides steps transport expansion.synthetic)

def needed : List String := (assignments expansion steps transport overrides).map (·.module)

def table : List String :=
  tableFrom (declared overrides) (needed expansion steps transport overrides)

theorem resolve_eq : resolve expansion steps transport overrides =
    (assignments expansion steps transport overrides).mapM
      (locate overrides (table expansion steps transport overrides)) := by
  unfold resolve
  dsimp only
  rw [numberModules_eq]
  rfl

end Order

section Placed

variable {expansion : Order.Expansion} {steps : List Step} {transport : Transport}
  {overrides : Overrides} {placements : List Placement}
  (h : resolve expansion steps transport overrides = .ok placements)
include h

theorem resolve_forall₂ :
    List.Forall₂ (LocatedAt overrides (table expansion steps transport overrides))
      (assignments expansion steps transport overrides) placements := by
  rw [resolve_eq, mapM_eq_ok_iff] at h
  exact h.imp fun _ _ => locate_eq_ok

/-- Every entry of an order gets a placement, in its place. -/
theorem resolve_steps : placements.map (·.step) = expansion.order := by
  have hsteps := map_eq_of_forall₂ (resolve_forall₂ h) fun _ _ hlocated => hlocated.step.symm
  rw [← hsteps, assignments, List.map_map]
  exact List.map_id _

theorem resolve_modules :
    placements.map (·.module) = needed expansion steps transport overrides :=
  (map_eq_of_forall₂ (resolve_forall₂ h) fun _ _ hlocated => hlocated.module.symm).symm

/-- The address of a placement is that of its module. -/
theorem address_of_mem {placement : Placement} (hmem : placement ∈ placements) :
    placement.module ∈ needed expansion steps transport overrides ∧
      placement.host = hostOf overrides placement.module ∧
      portOf overrides (table expansion steps transport overrides) placement.module =
        .ok placement.port := by
  obtain ⟨a, ha, hlocated⟩ := exists_of_mem_forall₂ (resolve_forall₂ h) hmem
  rw [hlocated.module]
  exact ⟨List.mem_map_of_mem ha, hlocated.host, hlocated.port⟩

end Placed

section Stability

variable {synthetic : List Order.SyntheticStep} {steps : List Step} {transport : Transport}
  {overrides : Overrides} {xs ys : List String}

theorem assignments_append :
    assignments ⟨xs ++ ys, synthetic⟩ steps transport overrides =
      assignments ⟨xs, synthetic⟩ steps transport overrides ++
        assignments ⟨ys, synthetic⟩ steps transport overrides :=
  List.map_append

theorem needed_append :
    needed ⟨xs ++ ys, synthetic⟩ steps transport overrides =
      needed ⟨xs, synthetic⟩ steps transport overrides ++
        needed ⟨ys, synthetic⟩ steps transport overrides := by
  rw [needed, assignments_append, List.map_append]
  rfl

/-- Placing a longer order gives the same placements for the entries that it begins with. -/
theorem resolve_take {placements : List Placement}
    (h : resolve ⟨xs ++ ys, synthetic⟩ steps transport overrides = .ok placements) :
    resolve ⟨xs, synthetic⟩ steps transport overrides = .ok (placements.take xs.length) := by
  rw [resolve_eq, mapM_eq_ok_iff, assignments_append] at h
  rw [resolve_eq, mapM_eq_ok_iff]
  have hlength : (assignments ⟨xs, synthetic⟩ steps transport overrides).length = xs.length :=
    List.length_map _
  have htake := List.forall₂_take xs.length h
  rw [List.take_left' hlength] at htake
  -- What the later entries need is numbered after the modules of the first ones.
  have hnumber : ∀ a ∈ assignments ⟨xs, synthetic⟩ steps transport overrides,
      (table ⟨xs ++ ys, synthetic⟩ steps transport overrides).idxOf a.module =
        (table ⟨xs, synthetic⟩ steps transport overrides).idxOf a.module := by
    intro a ha
    rw [table, needed_append]
    exact idxOf_tableFrom_append (List.mem_map_of_mem ha) _
  apply ((List.forall₂_and_left _ _).mpr ⟨hnumber, htake⟩).imp
  rintro a placement ⟨hsame, hlocate⟩
  rw [← hlocate]
  exact (locate_congr hsame).symm

end Stability

section Address

variable {overrides : Overrides} {expansion expansion' : Order.Expansion}
  {steps steps' : List Step} {transport transport' : Transport}
  {placements placements' : List Placement}
  (h : resolve expansion steps transport overrides = .ok placements)
  (h' : resolve expansion' steps' transport' overrides = .ok placements')
  {p p' : Placement} (hp : p ∈ placements) (hp' : p' ∈ placements')
  (hmodule : p.module = p'.module)
include h h' hp hp' hmodule

/-- A module with the same number in two orders has the same address in both. -/
theorem address_eq_of_number
    (hnumber : (table expansion steps transport overrides).idxOf p.module =
      (table expansion' steps' transport' overrides).idxOf p.module) :
    p.host = p'.host ∧ p.port = p'.port := by
  obtain ⟨-, hhost, hport⟩ := address_of_mem h hp
  obtain ⟨-, hhost', hport'⟩ := address_of_mem h' hp'
  rw [← hmodule] at hhost' hport'
  rw [portOf, hnumber, ← portOf, hport'] at hport
  exact ⟨hhost.trans hhost'.symm, (Except.ok.inj hport).symm⟩

theorem address_of_declared (hdeclared : p.module ∈ declared overrides) :
    p.host = p'.host ∧ p.port = p'.port := by
  apply address_eq_of_number h h' hp hp' hmodule
  -- Both tables begin with the modules with overrides.
  rw [table, table, idxOf_tableFrom hdeclared, idxOf_tableFrom hdeclared]

end Address

/-- What is placed stays where it is: an order that begins with another one gives the placements of
that one first, and a module with overrides is at the same address in all orders that are placed
with these overrides. -/
theorem resolve_stable (overrides : Overrides) :
    (∀ synthetic steps transport xs ys placements,
      resolve ⟨xs ++ ys, synthetic⟩ steps transport overrides = .ok placements →
      resolve ⟨xs, synthetic⟩ steps transport overrides = .ok (placements.take xs.length) ∧
        (placements.take xs.length).length = xs.length) ∧
    ∀ expansion steps transport placements expansion' steps' transport' placements',
      resolve expansion steps transport overrides = .ok placements →
      resolve expansion' steps' transport' overrides = .ok placements' →
      ∀ p ∈ placements, ∀ p' ∈ placements', p.module = p'.module →
        p.module ∈ declared overrides → p.host = p'.host ∧ p.port = p'.port := by
  refine ⟨?_, ?_⟩
  · intro synthetic steps transport xs ys placements h
    have hshort := resolve_take h
    have hlength := congrArg List.length (resolve_steps hshort)
    exact ⟨hshort, by simpa using hlength⟩
  · intro expansion steps transport placements expansion' steps' transport' placements' h h'
      p hp p' hp' hmodule hdeclared
    exact address_of_declared h h' hp hp' hmodule hdeclared

def kiosk : Overrides where
  modules := [{ name := "a", port := some 8446 }, { name := "b" }]
  stepModules := .ofList [("pay", "a"), ("box", "b")]

def kioskOrder : List String :=
  ["acme.ProcessPayGrpcClientStep", "acme.ProcessBoxGrpcClientStep",
    "acme.ProcessLogGrpcClientStep"]

def payPlacement : Placement where
  step := "acme.ProcessPayGrpcClientStep"
  clientName := "pipeline-pay"
  module := "a"
  host := "localhost"
  port := 8446

def boxPlacement : Placement where
  step := "acme.ProcessBoxGrpcClientStep"
  clientName := "pipeline-box"
  module := "b"
  host := "localhost"
  port := 8445

def logPlacement : Placement where
  step := "acme.ProcessLogGrpcClientStep"
  clientName := "pipeline-log"
  module := "log-svc"
  host := "localhost"
  port := 8446

theorem kiosk_placed : resolve ⟨kioskOrder, []⟩ [] .grpc kiosk =
    .ok [payPlacement, boxPlacement, logPlacement] := by
  have hplaced : (resolve ⟨kioskOrder, []⟩ [] .grpc kiosk).toOption =
      some [payPlacement, boxPlacement, logPlacement] := by
    decide +kernel
  exact toOption_eq_some_iff.mp hplaced

theorem kiosk_stable :
    resolve ⟨["acme.ProcessPayGrpcClientStep"], []⟩ [] .grpc kiosk = .ok [payPlacement] ∧
    ∀ expansion steps transport placements,
      resolve expansion steps transport kiosk = .ok placements →
      ∀ p ∈ placements, p.module = "b" → p.host = "localhost" ∧ p.port = 8445 := by
  obtain ⟨hbegins, haddress⟩ := resolve_stable kiosk
  refine ⟨(hbegins _ _ _ ["acme.ProcessPayGrpcClientStep"] _ _ kiosk_placed).1, ?_⟩
  intro expansion steps transport placements hplaced p hp hmodule
  have hdeclared : p.module ∈ declared kiosk := by simp [hmodule, declared, kiosk]
  exact haddress _ _ _ _ _ _ _ _ hplaced kiosk_placed p hp boxPlacement (by simp) hmodule
    hdeclared

end PipelinePlan.Placement
