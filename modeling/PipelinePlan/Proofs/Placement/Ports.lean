import PipelinePlan.Proofs.Placement.Numbering

namespace PipelinePlan.Placement

def noPortLeft (basePort : UInt16) (position : Nat) (module : String) : Error :=
  .invalidModuleConfig Overrides.basePortKey
    s!"base port {basePort.toNat} leaves no default port for module '{module}' (index {position})"

/-- The default port of the module at a position of the table, as a number without a limit. -/
def defaultNumber (overrides : Overrides) (table : List String) (module : String) : Nat :=
  overrides.basePort.toNat + table.idxOf module + 1

/-- A module has no port of its own and its default port is past the last one. -/
def PastRange (overrides : Overrides) (table : List String) (module : String) : Prop :=
  overrides.modulePort? module = none ∧ 65535 < defaultNumber overrides table module

instance (overrides : Overrides) (table : List String) (module : String) :
    Decidable (PastRange overrides table module) :=
  inferInstanceAs (Decidable (_ ∧ _))

theorem defaultPort_cases (basePort : UInt16) (position : Nat) (module : String) :
    (65535 < basePort.toNat + position + 1 ∧
      defaultPort basePort position module = .error (noPortLeft basePort position module)) ∨
    basePort.toNat + position + 1 ≤ 65535 ∧
      ∃ port, defaultPort basePort position module = .ok port ∧
        port.toNat = basePort.toNat + position + 1 := by
  unfold defaultPort
  dsimp only
  split
  · next hlt =>
    refine .inr ⟨by omega, _, rfl, ?_⟩
    rw [UInt16.toNat_ofNat']
    omega
  · next hlt => exact .inl ⟨by omega, rfl⟩

section Table

variable {overrides : Overrides} {table : List String} {module : String}

theorem portOf_cases (overrides : Overrides) (table : List String) (module : String) :
    (PastRange overrides table module ∧ portOf overrides table module =
      .error (noPortLeft overrides.basePort (table.idxOf module) module)) ∨
    ¬PastRange overrides table module ∧ ∃ port, portOf overrides table module = .ok port := by
  unfold PastRange portOf defaultNumber
  cases overrides.modulePort? module with
  | some port => simp
  | none =>
    rcases defaultPort_cases overrides.basePort (table.idxOf module) module with
      ⟨hpast, herror⟩ | ⟨hrange, port, hok, -⟩
    · exact .inl ⟨⟨rfl, hpast⟩, herror⟩
    · exact .inr ⟨fun h => by omega, port, hok⟩

theorem toNat_of_portOf {port : UInt16} (hnone : overrides.modulePort? module = none)
    (h : portOf overrides table module = .ok port) :
    port.toNat = defaultNumber overrides table module := by
  rw [portOf, hnone] at h
  rcases defaultPort_cases overrides.basePort (table.idxOf module) module with
    ⟨-, herror⟩ | ⟨-, port', hok, hport⟩
  · rw [herror] at h
    cases h
  · rw [hok] at h
    cases h
    exact hport

theorem locate_eq_error_iff {a : Assignment} {e : Error} :
    locate overrides table a = .error e ↔ PastRange overrides table a.module ∧
      e = noPortLeft overrides.basePort (table.idxOf a.module) a.module := by
  rw [locate_eq]
  rcases portOf_cases overrides table a.module with ⟨hpast, herror⟩ | ⟨hrange, port, hok⟩
  · rw [herror]
    simp [Except.map, hpast, eq_comm]
  · rw [hok]
    simp [Except.map, hrange]

theorem exists_locate_eq_ok_iff {a : Assignment} :
    (∃ placement, locate overrides table a = .ok placement) ↔
      ¬PastRange overrides table a.module := by
  rw [locate_eq]
  rcases portOf_cases overrides table a.module with ⟨hpast, herror⟩ | ⟨hrange, port, hok⟩
  · simp [herror, Except.map, hpast]
  · simp [hok, Except.map, hrange]

theorem defaultNumber_inj {other : String} (hmem : module ∈ table) :
    defaultNumber overrides table module = defaultNumber overrides table other ↔
      module = other := by
  rw [defaultNumber, defaultNumber, Nat.add_right_cancel_iff, Nat.add_left_cancel_iff]
  exact List.idxOf_inj hmem

end Table

section Resolution

variable {expansion : Order.Expansion} {steps : List Step} {transport : Transport}
  {overrides : Overrides}

/-- The error is about the first entry whose module gets no port. -/
theorem resolve_eq_error_iff {e : Error} :
    resolve expansion steps transport overrides = .error e ↔
      ∃ before module after,
        needed expansion steps transport overrides = before ++ module :: after ∧
        (∀ other ∈ before,
          ¬PastRange overrides (table expansion steps transport overrides) other) ∧
        PastRange overrides (table expansion steps transport overrides) module ∧
        e = noPortLeft overrides.basePort
          ((table expansion steps transport overrides).idxOf module) module := by
  rw [resolve_eq, mapM_eq_error_iff]
  constructor
  · rintro ⟨before, a, after, heq, hbefore, herror⟩
    obtain ⟨hpast, he⟩ := locate_eq_error_iff.mp herror
    refine ⟨before.map (·.module), a.module, after.map (·.module), ?_, ?_, hpast, he⟩
    · rw [needed, heq, List.map_append, List.map_cons]
    · intro other hother
      obtain ⟨b, hb, rfl⟩ := List.mem_map.mp hother
      exact exists_locate_eq_ok_iff.mp (hbefore b hb)
  · rintro ⟨before, module, after, heq, hbefore, hpast, he⟩
    obtain ⟨first, rest, hsplit, rfl, hrest⟩ := List.map_eq_append_iff.mp heq
    obtain ⟨a, later, rfl, rfl, rfl⟩ := List.map_eq_cons_iff.mp hrest
    refine ⟨first, a, later, hsplit, ?_, locate_eq_error_iff.mpr ⟨hpast, he⟩⟩
    intro b hb
    exact exists_locate_eq_ok_iff.mpr (hbefore b.module (List.mem_map_of_mem hb))

theorem exists_resolve_eq_error_iff :
    (∃ e, resolve expansion steps transport overrides = .error e) ↔
      ∃ module ∈ needed expansion steps transport overrides,
        PastRange overrides (table expansion steps transport overrides) module := by
  constructor
  · rintro ⟨e, herror⟩
    obtain ⟨before, module, after, heq, -, hpast, -⟩ := resolve_eq_error_iff.mp herror
    exact ⟨module, by simp [heq], hpast⟩
  · rintro ⟨module, hneeded, hpast⟩
    cases hresolve : resolve expansion steps transport overrides with
    | error e => exact ⟨e, rfl⟩
    | ok placements =>
      rw [← resolve_modules hresolve] at hneeded
      obtain ⟨placement, hmem, rfl⟩ := List.mem_map.mp hneeded
      obtain ⟨-, -, hport⟩ := address_of_mem hresolve hmem
      rcases portOf_cases overrides (table expansion steps transport overrides)
        placement.module with ⟨-, herror⟩ | ⟨hrange, -⟩
      · rw [hport] at herror
        cases herror
      · exact absurd hpast hrange

variable {placements : List Placement}
  (h : resolve expansion steps transport overrides = .ok placements)
include h

theorem mem_table_of_mem {placement : Placement} (hmem : placement ∈ placements) :
    placement.module ∈ table expansion steps transport overrides :=
  mem_tableFrom.mpr (.inr (address_of_mem h hmem).1)

theorem default_port {placement : Placement} (hmem : placement ∈ placements)
    (hnone : overrides.modulePort? placement.module = none) :
    placement.port.toNat =
      defaultNumber overrides (table expansion steps transport overrides) placement.module :=
  toNat_of_portOf hnone (address_of_mem h hmem).2.2

theorem explicit_port {placement : Placement} (hmem : placement ∈ placements) {port : UInt16}
    (hsome : overrides.modulePort? placement.module = some port) : placement.port = port := by
  have hport := (address_of_mem h hmem).2.2
  rw [portOf, hsome] at hport
  exact (Except.ok.inj hport).symm

theorem default_ports_apart {p q : Placement} (hp : p ∈ placements) (hq : q ∈ placements)
    (hmodule : p.module ≠ q.module) (hnone : overrides.modulePort? p.module = none)
    (hnone' : overrides.modulePort? q.module = none) : p.port ≠ q.port := by
  intro hport
  apply hmodule
  rw [← defaultNumber_inj (mem_table_of_mem h hp), ← default_port h hp hnone,
    ← default_port h hq hnone', hport]

end Resolution

/-- Placing an order fails exactly if a module that it needs has no port of its own and a default
port past the last one, and the error names the first such module. Otherwise each module without a
port of its own is at its default port, each module is at one address, and no two modules without
ports of their own are at the same port. -/
theorem resolve_default_ports (expansion : Order.Expansion) (steps : List Step)
    (transport : Transport) (overrides : Overrides) :
    ((∃ e, resolve expansion steps transport overrides = .error e) ↔
      ∃ module ∈ needed expansion steps transport overrides,
        PastRange overrides (table expansion steps transport overrides) module) ∧
    (∀ e, resolve expansion steps transport overrides = .error e ↔
      ∃ before module after,
        needed expansion steps transport overrides = before ++ module :: after ∧
        (∀ other ∈ before,
          ¬PastRange overrides (table expansion steps transport overrides) other) ∧
        PastRange overrides (table expansion steps transport overrides) module ∧
        e = noPortLeft overrides.basePort
          ((table expansion steps transport overrides).idxOf module) module) ∧
    ∀ placements, resolve expansion steps transport overrides = .ok placements →
      placements.map (·.module) = needed expansion steps transport overrides ∧
      (∀ p ∈ placements, overrides.modulePort? p.module = none → p.port.toNat =
        defaultNumber overrides (table expansion steps transport overrides) p.module) ∧
      (∀ p ∈ placements, ∀ q ∈ placements, p.module = q.module →
        p.host = q.host ∧ p.port = q.port) ∧
      ∀ p ∈ placements, ∀ q ∈ placements, p.module ≠ q.module →
        overrides.modulePort? p.module = none → overrides.modulePort? q.module = none →
        p.port ≠ q.port := by
  refine ⟨exists_resolve_eq_error_iff, fun _ => resolve_eq_error_iff, ?_⟩
  intro placements h
  exact ⟨resolve_modules h, fun p hp => default_port h hp,
    fun p hp q hq hmodule => address_eq_of_number h h hp hq hmodule rfl,
    fun p hp q hq => default_ports_apart h hp hq⟩

def lastPort : Overrides where
  basePort := 65534

theorem lastPort_needed :
    needed ⟨kioskOrder, []⟩ [] .grpc lastPort = ["pay-svc", "box-svc", "log-svc"] ∧
    needed ⟨kioskOrder.take 1, []⟩ [] .grpc lastPort = ["pay-svc"] := by
  decide +kernel

theorem lastPort_placed :
    resolve ⟨kioskOrder, []⟩ [] .grpc lastPort = .error (noPortLeft 65534 1 "box-svc") ∧
    ∃ placements, resolve ⟨kioskOrder.take 1, []⟩ [] .grpc lastPort = .ok placements ∧
      ∀ p ∈ placements, p.port.toNat = 65535 := by
  obtain ⟨hneeded, hneeded'⟩ := lastPort_needed
  obtain ⟨-, herror, -⟩ := resolve_default_ports ⟨kioskOrder, []⟩ [] .grpc lastPort
  obtain ⟨hfails, -, hports⟩ := resolve_default_ports ⟨kioskOrder.take 1, []⟩ [] .grpc lastPort
  have htable : table ⟨kioskOrder, []⟩ [] .grpc lastPort = ["pay-svc", "box-svc", "log-svc"] := by
    rw [table, hneeded]
    decide
  have htable' : table ⟨kioskOrder.take 1, []⟩ [] .grpc lastPort = ["pay-svc"] := by
    rw [table, hneeded']
    decide
  refine ⟨(herror _).mpr ⟨["pay-svc"], "box-svc", ["log-svc"], hneeded, ?_, ?_, ?_⟩, ?_⟩
  · rw [htable]
    decide
  · rw [htable]
    decide
  · rw [htable]
    decide
  · rw [hneeded', htable'] at hfails
    cases hplaced : resolve ⟨kioskOrder.take 1, []⟩ [] .grpc lastPort with
    | error e =>
      exact absurd (hfails.mp ⟨e, hplaced⟩) (by decide)
    | ok placements =>
      obtain ⟨hmodules, hport, -⟩ := hports placements hplaced
      refine ⟨placements, rfl, ?_⟩
      intro p hp
      have hmodule := List.mem_map_of_mem (f := (·.module)) hp
      rw [hmodules, hneeded', List.mem_singleton] at hmodule
      rw [hport p hp rfl, htable', hmodule]
      decide

/-- A default port is never that of another module without a port property. It is that of a module
with a port property exactly if the property gives the number that the first module has. -/
theorem parsed_ports_meet_iff {text : String} {outcome : Outcome Overrides}
    (hparse : Overrides.parse text = .ok outcome) {expansion : Order.Expansion}
    {steps : List Step} {transport : Transport} {placements : List Placement}
    (hplaced : resolve expansion steps transport outcome.value = .ok placements)
    {p q : Placement} (hp : p ∈ placements) (hq : q ∈ placements)
    (hmodule : p.module ≠ q.module) (hdefault : Overrides.portIn? text p.module = none) :
    (Overrides.portIn? text q.module = none → p.port ≠ q.port) ∧
    ∀ port, Overrides.portIn? text q.module = some port →
      (p.port = q.port ↔ port.toNat = defaultNumber outcome.value
        (table expansion steps transport outcome.value) p.module) := by
  simp only [← Overrides.modulePort?_parse hparse] at hdefault ⊢
  refine ⟨default_ports_apart hplaced hp hq hmodule hdefault, ?_⟩
  intro port hport
  rw [explicit_port hplaced hq hport, ← default_port hplaced hp hdefault, UInt16.toNat_inj,
    eq_comm]

def kioskText : String :=
  "pipeline.module.a.port=8446\npipeline.module.a.steps=pay\npipeline.module.b.steps=box"

theorem kiosk_parsed : Overrides.parse kioskText = .ok ⟨kiosk, []⟩ ∧
    Overrides.portIn? kioskText payPlacement.module = some 8446 ∧
    Overrides.portIn? kioskText boxPlacement.module = none ∧
    Overrides.portIn? kioskText logPlacement.module = none := by
  have hparsed : (Overrides.parse kioskText).toOption = some ⟨kiosk, []⟩ := by
    decide +kernel
  have hparse := toOption_eq_some_iff.mp hparsed
  refine ⟨hparse, ?_⟩
  simp only [← Overrides.modulePort?_parse hparse]
  decide

theorem kiosk_table : table ⟨kioskOrder, []⟩ [] .grpc kiosk = ["a", "b", "log-svc"] := by
  rw [table, ← resolve_modules kiosk_placed]
  decide

theorem kiosk_ports_meet : Overrides.parse kioskText = .ok ⟨kiosk, []⟩ ∧
    resolve ⟨kioskOrder, []⟩ [] .grpc kiosk = .ok [payPlacement, boxPlacement, logPlacement] ∧
    boxPlacement.port ≠ logPlacement.port ∧ boxPlacement.port ≠ payPlacement.port ∧
    logPlacement.port = payPlacement.port := by
  obtain ⟨hparse, hpay, hbox, hlog⟩ := kiosk_parsed
  refine ⟨hparse, kiosk_placed, ?_, ?_, ?_⟩
  · exact (parsed_ports_meet_iff hparse kiosk_placed (by simp) (by simp) (by decide) hbox).1 hlog
  · rw [Ne, (parsed_ports_meet_iff hparse kiosk_placed (by simp) (by simp) (by decide) hbox).2
      8446 hpay, kiosk_table]
    decide
  · rw [(parsed_ports_meet_iff hparse kiosk_placed (by simp) (by simp) (by decide) hlog).2
      8446 hpay, kiosk_table]
    decide

/-- The default port of a module is that which is set for another one on the same host. -/
theorem kiosk_clash : Overrides.parse kioskText = .ok ⟨kiosk, []⟩ ∧
    resolve ⟨kioskOrder, []⟩ [] .grpc kiosk = .ok [payPlacement, boxPlacement, logPlacement] ∧
    logPlacement.module ≠ payPlacement.module ∧ logPlacement.host = payPlacement.host ∧
    Overrides.portIn? kioskText logPlacement.module = none ∧
    logPlacement.port = payPlacement.port := by
  obtain ⟨hparse, -, -, hlog⟩ := kiosk_parsed
  exact ⟨hparse, kiosk_placed, by decide, rfl, hlog, rfl⟩

end PipelinePlan.Placement
