import PipelinePlan.Proofs.Placement.Overrides
import PipelinePlan.Proofs.Table
import PipelinePlan.Proofs.Text.Pieces

namespace PipelinePlan

structure Module.Keeps (m m' : Module) : Prop where
  host : ∀ host, m.host = some host → m'.host = some host
  port : ∀ port, m.port = some port → m'.port = some port

def Table.Keeps {α : Type} (t t' : Table α) : Prop :=
  ∀ key value, t.find? key = some value → t'.find? key = some value

namespace Overrides

def moduleNames (o : Overrides) : List String := o.modules.map (·.name)

/-- Overrides that leave as it is what other ones have set, apart from the base port and the TLS
name. Their other modules come later. -/
structure Keeps (o o' : Overrides) : Prop where
  names : o.moduleNames <+: o'.moduleNames
  settings : ∀ name m, o.module? name = some m → ∃ m', o'.module? name = some m' ∧ m.Keeps m'
  steps : o.stepModules.Keeps o'.stepModules
  aspects : o.aspectModules.Keeps o'.aspectModules

/-- Overrides in which no module is declared twice and every module that has steps or aspects is
declared. -/
structure WellFormed (o : Overrides) : Prop where
  names_nodup : o.moduleNames.Nodup
  steps_declared : ∀ entry ∈ o.stepModules.entries, entry.2 ∈ o.moduleNames
  aspects_declared : ∀ entry ∈ o.aspectModules.entries, entry.2 ∈ o.moduleNames

theorem Keeps.refl (o : Overrides) : o.Keeps o where
  names := List.prefix_refl _
  settings _ m h := ⟨m, h, fun _ => id, fun _ => id⟩
  steps _ _ := id
  aspects _ _ := id

theorem Keeps.trans {o₁ o₂ o₃ : Overrides} (h : o₁.Keeps o₂) (h' : o₂.Keeps o₃) : o₁.Keeps o₃ where
  names := h.names.trans h'.names
  settings name m hm := by
    obtain ⟨m', hm', hkeeps⟩ := h.settings name m hm
    obtain ⟨m'', hm'', hkeeps'⟩ := h'.settings name m' hm'
    exact ⟨m'', hm'', fun host hh => hkeeps'.host host (hkeeps.host host hh),
      fun port hp => hkeeps'.port port (hkeeps.port port hp)⟩
  steps key value hv := h'.steps key value (h.steps key value hv)
  aspects key value hv := h'.aspects key value (h.aspects key value hv)

section Assign

variable (code module : String) (names : List String) (state : Table String × Diagnostics)

theorem assign_keeps (name : String) : state.1.Keeps (assign code module state name).1 := by
  intro key value hvalue
  simp only [assign]
  split
  · next hfree =>
    have hne : Text.token name ≠ key := by
      intro heq
      rw [heq, hvalue] at hfree
      cases hfree
    rw [Table.find?_insert, if_neg hne, hvalue]
  · split <;> exact hvalue

theorem foldl_assign_keeps : state.1.Keeps (names.foldl (assign code module) state).1 := by
  induction names generalizing state with
  | nil => exact fun _ _ => id
  | cons name rest ih =>
    intro key value hvalue
    exact ih _ key value (assign_keeps code module state name key value hvalue)

theorem mem_assign {name : String} {entry : String × String}
    (h : entry ∈ (assign code module state name).1.entries) :
    entry ∈ state.1.entries ∨ entry.2 = module := by
  simp only [assign] at h
  split at h
  · rcases Table.mem_insertEntry h with rfl | hmem
    · exact .inr rfl
    · exact .inl hmem
  · split at h <;> exact .inl h

theorem mem_foldl_assign {entry : String × String}
    (h : entry ∈ (names.foldl (assign code module) state).1.entries) :
    entry ∈ state.1.entries ∨ entry.2 = module := by
  induction names generalizing state with
  | nil => exact .inl h
  | cons name rest ih =>
    rcases ih _ h with hmem | heq
    · exact mem_assign code module state hmem
    · exact .inr heq

end Assign

section Modules

variable (o : Overrides) (name : String)

theorem moduleNames_declare :
    moduleNames { o with modules := declareModule name o.modules } =
      if name ∈ o.moduleNames then o.moduleNames else o.moduleNames ++ [name] := by
  have hany : o.modules.any (·.name == name) = true ↔ name ∈ o.moduleNames := by
    simp [moduleNames]
  by_cases hdeclared : name ∈ o.moduleNames
  · rw [if_pos hdeclared, declareModule, if_pos (hany.mpr hdeclared)]
  · rw [if_neg hdeclared, moduleNames, declareModule, if_neg (mt hany.mp hdeclared)]
    exact List.map_append

theorem moduleNames_update {change : Module → Module} (hname : ∀ m, (change m).name = m.name) :
    moduleNames { o with modules := updateModule name change o.modules } = o.moduleNames := by
  simp only [moduleNames, updateModule, List.map_map]
  refine List.map_congr_left fun m _ => ?_
  simp only [Function.comp]
  split
  · exact hname m
  · rfl

theorem keeps_declare : o.Keeps { o with modules := declareModule name o.modules } where
  names := by
    rw [moduleNames_declare]
    split
    · exact List.prefix_refl _
    · exact List.prefix_append _ _
  settings other m hm := by
    have hfind : o.modules.find? (·.name == other) = some m := hm
    refine ⟨m, ?_, fun _ => id, fun _ => id⟩
    rw [module?, find?_declareModule, hfind, Option.some_or]
  steps _ _ := id
  aspects _ _ := id

theorem keeps_update {change : Module → Module} (hname : ∀ m, (change m).name = m.name)
    (hchange : ∀ m, o.module? name = some m → m.Keeps (change m)) :
    o.Keeps { o with modules := updateModule name change o.modules } where
  names := by rw [moduleNames_update o name hname]
  settings other m hm := by
    have hfind : o.modules.find? (·.name == other) = some m := hm
    refine ⟨if name = other then change m else m, ?_, ?_⟩
    · rw [module?, find?_updateModule hname, hfind, Option.map_some]
    · split
      · next heq => exact hchange m (heq ▸ hm)
      · exact ⟨fun _ => id, fun _ => id⟩
  steps _ _ := id
  aspects _ _ := id

/-- A setting that a module has is not replaced. -/
theorem keeps_applySetting (setting : Setting) : o.Keeps (o.applySetting name setting).value := by
  cases setting with
  | host value =>
    simp only [applySetting]
    split
    · exact Keeps.refl o
    · next hunset =>
      refine keeps_update o name (fun _ => rfl) fun m hm => ⟨?_, fun _ => id⟩
      intro host hhost
      simp [hm, hhost] at hunset
  | port value =>
    simp only [applySetting]
    split
    · exact Keeps.refl o
    · next hunset =>
      refine keeps_update o name (fun _ => rfl) fun m hm => ⟨fun _ => id, ?_⟩
      intro port hport
      simp [hm, hport] at hunset
  | steps names =>
    exact { Keeps.refl o with
      steps := foldl_assign_keeps Diagnostic.duplicateStepOverride name names (o.stepModules, []) }
  | aspects names =>
    exact { Keeps.refl o with
      aspects :=
        foldl_assign_keeps Diagnostic.duplicateAspectOverride name names (o.aspectModules, []) }

theorem wellFormed_declare {o : Overrides} (h : o.WellFormed) :
    WellFormed { o with modules := declareModule name o.modules } where
  names_nodup := by
    rw [moduleNames_declare]
    split
    · exact h.names_nodup
    · next hnew => simpa using h.names_nodup.concat hnew
  steps_declared entry hentry := (keeps_declare o name).names.subset (h.steps_declared entry hentry)
  aspects_declared entry hentry :=
    (keeps_declare o name).names.subset (h.aspects_declared entry hentry)

theorem wellFormed_update {o : Overrides} {change : Module → Module}
    (hname : ∀ m, (change m).name = m.name) (h : o.WellFormed) :
    WellFormed { o with modules := updateModule name change o.modules } := by
  have hnames := moduleNames_update o name hname
  exact ⟨hnames ▸ h.names_nodup, hnames ▸ h.steps_declared, hnames ▸ h.aspects_declared⟩

theorem wellFormed_applySetting {o : Overrides} (h : o.WellFormed) (hname : name ∈ o.moduleNames)
    (setting : Setting) : (o.applySetting name setting).value.WellFormed := by
  cases setting with
  | host value =>
    simp only [applySetting]
    split
    · exact h
    · exact wellFormed_update name (fun _ => rfl) h
  | port value =>
    simp only [applySetting]
    split
    · exact h
    · exact wellFormed_update name (fun _ => rfl) h
  | steps names =>
    refine { h with steps_declared := fun entry hentry => ?_ }
    rcases mem_foldl_assign _ name names _ hentry with hmem | heq
    · exact h.steps_declared entry hmem
    · exact heq ▸ hname
  | aspects names =>
    refine { h with aspects_declared := fun entry hentry => ?_ }
    rcases mem_foldl_assign _ name names _ hentry with hmem | heq
    · exact h.aspects_declared entry hmem
    · exact heq ▸ hname

end Modules

theorem keeps_apply (o : Overrides) (directive : Directive) :
    o.Keeps (o.apply directive).value := by
  cases directive with
  | nothing => exact Keeps.refl o
  | basePort port => exact { Keeps.refl o with }
  | tlsName name => exact { Keeps.refl o with }
  | module name setting => exact (keeps_declare o name).trans (keeps_applySetting _ name setting)

theorem wellFormed_apply {o : Overrides} (h : o.WellFormed) (directive : Directive) :
    (o.apply directive).value.WellFormed := by
  cases directive with
  | nothing => exact h
  | basePort port => exact { h with }
  | tlsName name => exact { h with }
  | module name setting =>
    refine wellFormed_applySetting name (wellFormed_declare name h) ?_ setting
    rw [moduleNames_declare]
    split
    · assumption
    · exact List.mem_concat_self

/-- What a run of directives starts from is kept, and the remarks on the run follow those that were
there. -/
theorem foldl_advance_keeps (directives : List Directive) (state : Outcome Overrides) :
    state.value.Keeps (directives.foldl advance state).value ∧
      state.diagnostics <+: (directives.foldl advance state).diagnostics := by
  induction directives generalizing state with
  | nil => exact ⟨Keeps.refl _, List.prefix_refl _⟩
  | cons directive rest ih =>
    obtain ⟨hkeeps, hremarks⟩ := ih (advance state directive)
    exact ⟨(keeps_apply state.value directive).trans hkeeps,
      (List.prefix_append _ _).trans hremarks⟩

theorem foldl_advance_wellFormed (directives : List Directive) (state : Outcome Overrides)
    (h : state.value.WellFormed) : (directives.foldl advance state).value.WellFormed := by
  induction directives generalizing state with
  | nil => exact h
  | cons directive rest ih => exact ih (advance state directive) (wellFormed_apply h directive)

theorem readLines_append (number : Nat) (xs ys : List (List Char)) :
    readLines number (xs ++ ys) = do
      let first ← readLines number xs
      let second ← readLines (number + xs.length) ys
      return first ++ second := by
  induction xs generalizing number with
  | nil =>
    simp only [List.nil_append, readLines, List.length_nil, Nat.add_zero, bind, Except.bind]
    cases readLines number ys <;> rfl
  | cons x xs ih =>
    simp only [List.cons_append, readLines, ih, List.length_cons, bind, Except.bind,
      Nat.add_right_comm number 1, ← Nat.add_assoc]
    cases readLine number x with
    | error e => rfl
    | ok directive =>
      cases readLines (number + 1) xs with
      | error e => rfl
      | ok directives => cases readLines (number + xs.length + 1) ys <;> rfl

theorem parse_eq_ok_iff {text : String} {outcome : Outcome Overrides} :
    parse text = .ok outcome ↔ ∃ directives,
      readLines 1 (Text.lines text.toList) = .ok directives ∧
        directives.foldl advance ⟨{}, []⟩ = outcome := by
  rw [parse, bind_eq_ok_iff]
  simp [pure, Except.pure]

theorem parse_wellFormed {text : String} {outcome : Outcome Overrides}
    (h : parse text = .ok outcome) : outcome.value.WellFormed := by
  obtain ⟨directives, -, rfl⟩ := parse_eq_ok_iff.mp h
  refine foldl_advance_wellFormed directives _ ⟨List.nodup_nil, ?_, ?_⟩ <;>
    exact fun entry hentry => absurd hentry List.not_mem_nil

/-- Directives that are read from more lines continue those of the lines before. -/
theorem readLines_lines_append {a b : String} (ha : a = "" ∨ ∃ start, a = start ++ "\n")
    {directives : List Directive}
    (h : readLines 1 (Text.lines (a ++ b).toList) = .ok directives) :
    ∃ first second, readLines 1 (Text.lines a.toList) = .ok first ∧
      directives = first ++ second := by
  have hlines : Text.lines (a ++ b).toList = Text.lines a.toList ++ Text.lines b.toList := by
    rcases ha with rfl | ⟨start, rfl⟩
    · simp [Text.lines, Text.pieces]
    · simpa using Text.lines_append start.toList b.toList
  rw [hlines, readLines_append] at h
  obtain ⟨first, hfirst, h⟩ := bind_eq_ok_iff.mp h
  obtain ⟨second, -, h⟩ := bind_eq_ok_iff.mp h
  exact ⟨first, second, hfirst, (Except.ok.inj h).symm⟩

/-- No module that a text of properties sets is declared twice, and none has steps or aspects
without being declared. Lines that follow a text leave as it is what the text has set, apart from
the base port and the TLS name, and their remarks follow those on the text. -/
theorem parse_keeps_first :
    (∀ text outcome, parse text = .ok outcome → outcome.value.WellFormed) ∧
    ∀ a b outcome, (a = "" ∨ ∃ start, a = start ++ "\n") → parse (a ++ b) = .ok outcome →
      ∃ earlier, parse a = .ok earlier ∧ earlier.value.Keeps outcome.value ∧
        earlier.diagnostics <+: outcome.diagnostics := by
  refine ⟨fun _ _ => parse_wellFormed, ?_⟩
  intro a b outcome ha h
  obtain ⟨directives, hread, rfl⟩ := parse_eq_ok_iff.mp h
  obtain ⟨first, second, hfirst, rfl⟩ := readLines_lines_append ha hread
  refine ⟨first.foldl advance ⟨{}, []⟩, parse_eq_ok_iff.mpr ⟨first, hfirst, rfl⟩, ?_⟩
  rw [List.foldl_append]
  exact foldl_advance_keeps second _

def depotText : String := "pipeline.module.a.port=1\npipeline.module.a.steps=pay" ++ "\n"

def depotMore : String := "pipeline.module.b.steps=pay\npipeline.module.a.port=2"

def depot : Outcome Overrides where
  value := {
    modules := [{ name := "a", port := some 1 }, { name := "b" }]
    stepModules := .ofList [("pay", "a")] }
  diagnostics := [
    .warning Diagnostic.duplicateStepOverride "pay"
      "already assigned to module 'a', ignoring 'b'",
    setTwice "a" "port"]

theorem depot_keeps_first : parse (depotText ++ depotMore) = .ok depot ∧ depot.value.WellFormed ∧
    ∃ earlier, parse depotText = .ok earlier ∧ earlier.value.Keeps depot.value ∧
      earlier.diagnostics <+: depot.diagnostics := by
  have hparsed : (parse (depotText ++ depotMore)).toOption = some depot := by
    decide +kernel
  have hparse := toOption_eq_some_iff.mp hparsed
  obtain ⟨hwell, hkeeps⟩ := parse_keeps_first
  exact ⟨hparse, hwell _ _ hparse, hkeeps _ _ _ (.inr ⟨_, rfl⟩) hparse⟩

end Overrides

end PipelinePlan
