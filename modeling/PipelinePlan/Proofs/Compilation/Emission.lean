import PipelinePlan.Compilation.Emission
import PipelinePlan.Proofs.Compilation.Boundary
import PipelinePlan.Proofs.Placement.Numbering

namespace PipelinePlan

inductive Call where
  | step (step : CompiledStep) (placement : Option Placement)
  | orchestrator (orchestrator : Orchestrator) (order : List String)
  | finish (compiled : Compiled)

def Emitter.call {m : Type → Type} (e : Emitter m) : Call → m Unit
  | .step step placement => e.step step placement
  | .orchestrator orchestrator order => e.orchestrator orchestrator order
  | .finish compiled => e.finish compiled

def Compiled.script (c : Compiled) : List Call :=
  c.steps.map (fun s => .step s (c.placement? (s.step.client c.transport))) ++
    c.orchestrator.toList.map (.orchestrator · c.order) ++ [.finish c]

theorem Compiled.emit_eq {m : Type → Type} [Monad m] [LawfulMonad m] (c : Compiled)
    (e : Emitter m) : c.emit e = (do forM c.script e.call; return c.steps.length) := by
  have hsteps : forM c.steps (e.emitStep c) =
      forM (c.steps.map fun s => Call.step s (c.placement? (s.step.client c.transport)))
        e.call := by
    rw [List.forM_map]
    rfl
  have horchestrator : e.emitOrchestrator c =
      forM (c.orchestrator.toList.map (Call.orchestrator · c.order)) e.call := by
    unfold Emitter.emitOrchestrator
    cases c.orchestrator with
    | none => rfl
    | some orchestrator => exact (bind_pure _).symm
  rw [emit, script, List.forM_eq_forM, hsteps, horchestrator, List.forM_append,
    List.forM_append]
  simp [Emitter.call]

variable {σ ε α β : Type}

abbrev Machine (σ ε : Type) : Type → Type := ExceptT ε (StateM σ)

namespace Machine

def exec (x : Machine σ ε α) (s : σ) : Except ε α × σ := x.run.run s

theorem exec_pure (a : α) (s : σ) : (pure a : Machine σ ε α).exec s = (.ok a, s) := rfl

theorem exec_bind_of_ok {x : Machine σ ε α} {s next : σ} {a : α} (h : x.exec s = (.ok a, next))
    (f : α → Machine σ ε β) : (x >>= f).exec s = (f a).exec next := by
  simp only [exec, ExceptT.run, StateT.run] at h ⊢
  simp only [bind, ExceptT.bind, ExceptT.mk, StateT.bind, h]
  rfl

theorem exec_bind_of_error {x : Machine σ ε α} {s next : σ} {error : ε}
    (h : x.exec s = (.error error, next)) (f : α → Machine σ ε β) :
    (x >>= f).exec s = (.error error, next) := by
  simp only [exec, ExceptT.run, StateT.run] at h ⊢
  simp only [bind, ExceptT.bind, ExceptT.mk, StateT.bind, h]
  rfl

def noting (call : Call) (x : Machine σ ε Unit) : Machine (σ × List Call) ε Unit := fun s =>
  ((x.exec s.1).1, (x.exec s.1).2, s.2 ++ [call])

end Machine

/-- The emitter with a record of its calls. -/
def Emitter.recorded (e : Emitter (Machine σ ε)) : Emitter (Machine (σ × List Call) ε) where
  step s placement := Machine.noting (.step s placement) (e.step s placement)
  orchestrator o order := Machine.noting (.orchestrator o order) (e.orchestrator o order)
  finish c := Machine.noting (.finish c) (e.finish c)

namespace Emitter

theorem recorded_call (e : Emitter (Machine σ ε)) (call : Call) (s : σ) (made : List Call) :
    (e.recorded.call call).exec (s, made) =
      (((e.call call).exec s).1, ((e.call call).exec s).2, made ++ [call]) := by
  cases call <;> rfl

/-- All calls of a list succeed one after the other and lead from one state to another. -/
inductive Serves (e : Emitter (Machine σ ε)) : σ → List Call → σ → Prop
  | nil (s : σ) : Serves e s [] s
  | cons {s next last : σ} {call : Call} {calls : List Call}
      (h : (e.call call).exec s = (.ok (), next)) (hrest : Serves e next calls last) :
      Serves e s (call :: calls) last

/-- Calls are made up to the first that fails. -/
theorem exec_recorded (e : Emitter (Machine σ ε)) (calls made : List Call) (s : σ) :
    (∃ last, e.Serves s calls last ∧
      (forM calls e.recorded.call).exec (s, made) = (.ok (), last, made ++ calls)) ∨
    ∃ before call after next error last, calls = before ++ call :: after ∧
      e.Serves s before next ∧ (e.call call).exec next = (.error error, last) ∧
      (forM calls e.recorded.call).exec (s, made) =
        (.error error, last, made ++ (before ++ [call])) := by
  induction calls generalizing s made with
  | nil =>
    rw [List.append_nil]
    exact .inl ⟨s, .nil s, rfl⟩
  | cons call calls ih =>
    rw [List.forM_cons]
    have hnoted := e.recorded_call call s made
    rcases hresult : (e.call call).exec s with ⟨result, next⟩
    rw [hresult] at hnoted
    cases result with
    | error error =>
      refine .inr ⟨[], call, calls, s, error, next, rfl, .nil s, hresult, ?_⟩
      exact Machine.exec_bind_of_error hnoted _
    | ok done =>
      rw [Machine.exec_bind_of_ok hnoted]
      rcases ih (made ++ [call]) next with ⟨last, hserves, hexec⟩ |
        ⟨before, failing, after, state, error, last, rfl, hserves, hfails, hexec⟩
      · refine .inl ⟨last, .cons hresult hserves, ?_⟩
        rw [hexec, List.append_assoc, List.singleton_append]
      · refine .inr ⟨call :: before, failing, after, state, error, last, rfl,
          .cons hresult hserves, hfails, ?_⟩
        rw [hexec, List.append_assoc, List.singleton_append, List.cons_append]

/-- The record changes neither results nor states. -/
theorem exec_forM_recorded (e : Emitter (Machine σ ε)) (calls made : List Call) (s : σ) :
    (forM calls e.call).exec s =
      (((forM calls e.recorded.call).exec (s, made)).1,
        ((forM calls e.recorded.call).exec (s, made)).2.1) := by
  induction calls generalizing s made with
  | nil => rfl
  | cons call calls ih =>
    rw [List.forM_cons, List.forM_cons]
    have hnoted := e.recorded_call call s made
    rcases hresult : (e.call call).exec s with ⟨result, next⟩
    rw [hresult] at hnoted
    cases result with
    | error error =>
      rw [Machine.exec_bind_of_error hresult, Machine.exec_bind_of_error hnoted]
    | ok done =>
      rw [Machine.exec_bind_of_ok hresult, Machine.exec_bind_of_ok hnoted]
      exact ih (made ++ [call]) next

end Emitter

namespace Compiled

variable (c : Compiled) (e : Emitter (Machine σ ε)) (s : σ)

theorem exec_emit_of_ok {e : Emitter (Machine σ ε)} {s last : σ}
    (h : (forM c.script e.call).exec s = (.ok (), last)) :
    (c.emit e).exec s = (.ok c.steps.length, last) := by
  rw [emit_eq, Machine.exec_bind_of_ok h, Machine.exec_pure]

theorem exec_emit_of_error {e : Emitter (Machine σ ε)} {s last : σ} {error : ε}
    (h : (forM c.script e.call).exec s = (.error error, last)) :
    (c.emit e).exec s = (.error error, last) := by
  rw [emit_eq, Machine.exec_bind_of_error h]

theorem exec_emit_recorded :
    (c.emit e).exec s = (((c.emit e.recorded).exec (s, [])).1,
      ((c.emit e.recorded).exec (s, [])).2.1) := by
  have herased := e.exec_forM_recorded c.script [] s
  rcases hrecorded : (forM c.script e.recorded.call).exec (s, []) with ⟨result, last, made⟩
  rw [hrecorded] at herased
  cases result with
  | ok done => rw [c.exec_emit_of_ok herased, c.exec_emit_of_ok hrecorded]
  | error error => rw [c.exec_emit_of_error herased, c.exec_emit_of_error hrecorded]

/-- All calls are made, or all up to one that fails. -/
theorem exec_emit_cases :
    (∃ last, e.Serves s c.script last ∧
      (c.emit e.recorded).exec (s, []) = (.ok c.steps.length, last, c.script)) ∨
    ∃ before call after next error last, c.script = before ++ call :: after ∧
      e.Serves s before next ∧ (e.call call).exec next = (.error error, last) ∧
      (c.emit e.recorded).exec (s, []) = (.error error, last, before ++ [call]) := by
  rcases e.exec_recorded c.script [] s with ⟨last, hserves, hexec⟩ |
    ⟨before, call, after, next, error, last, hscript, hserves, hfails, hexec⟩
  · exact .inl ⟨last, hserves, c.exec_emit_of_ok hexec⟩
  · exact .inr ⟨before, call, after, next, error, last, hscript, hserves, hfails,
      c.exec_emit_of_error hexec⟩

theorem step_mem_script_iff {c : Compiled} {step : CompiledStep} {placement : Option Placement} :
    Call.step step placement ∈ c.script ↔
      step ∈ c.steps ∧ placement = c.placement? (step.step.client c.transport) := by
  simp only [script, List.mem_append, List.mem_map, List.mem_singleton, reduceCtorEq, and_false,
    exists_false, or_false, Call.step.injEq]
  constructor
  · rintro ⟨found, hfound, rfl, rfl⟩
    exact ⟨hfound, rfl⟩
  · rintro ⟨hstep, rfl⟩
    exact ⟨step, hstep, rfl, rfl⟩

theorem placement?_eq_none_iff {c : Compiled} {identifier : String} :
    c.placement? identifier = none ↔ identifier ∉ c.placements.map (·.step) := by
  simp [placement?, List.find?_eq_none]

theorem placement?_eq_some {c : Compiled} {identifier : String} {placement : Placement}
    (h : c.placement? identifier = some placement) :
    placement ∈ c.placements ∧ placement.step = identifier :=
  ⟨List.mem_of_find?_eq_some h, by simpa using List.find?_some h⟩

end Compiled

/-- A compiled pipeline has a placement for each entry of its order and no other. -/
theorem Source.compileWith_placements {source : Source} {knows : Option (String → Bool)}
    {compiled : Compiled} {summary : Summary}
    (h : source.compileWith knows = .ok (compiled, summary)) :
    compiled.placements.map (·.step) = compiled.order := by
  obtain ⟨found, placements, -, hplacements, hresult⟩ := compileWith_eq_ok h
  obtain ⟨rfl, -⟩ := Prod.mk.inj hresult
  exact Placement.resolve_steps hplacements

/-- An emitter gets a call for each step, one for the orchestrator if there is one, and a last one,
in this order up to the first that fails; the result is the error of that call, or the number of
steps if there is none. The step of a compiled pipeline is handed over with a placement of its
client exactly if the order has it. -/
theorem Compiled.emit_follows_script (e : Emitter (Machine σ ε)) (s : σ) (c : Compiled) :
    (c.emit e).exec s = (((c.emit e.recorded).exec (s, [])).1,
      ((c.emit e.recorded).exec (s, [])).2.1) ∧
    ((∃ last, e.Serves s c.script last ∧
      (c.emit e.recorded).exec (s, []) = (.ok c.steps.length, last, c.script)) ∨
    ∃ before call after next error last, c.script = before ++ call :: after ∧
      e.Serves s before next ∧ (e.call call).exec next = (.error error, last) ∧
      (c.emit e.recorded).exec (s, []) = (.error error, last, before ++ [call])) ∧
    ∀ (source : Source) knows summary, source.compileWith knows = .ok (c, summary) →
      ∀ step placement, Call.step step placement ∈ c.script →
        (placement = none ↔ step.step.client c.transport ∉ c.order) ∧
        ∀ p, placement = some p → p ∈ c.placements ∧ p.step = step.step.client c.transport := by
  refine ⟨c.exec_emit_recorded e s, c.exec_emit_cases e s, ?_⟩
  intro source knows summary h step placement hcall
  obtain ⟨-, rfl⟩ := step_mem_script_iff.mp hcall
  constructor
  · rw [placement?_eq_none_iff, Source.compileWith_placements h]
  · intro p hp
    exact placement?_eq_some hp

def takeOne : Machine Bool String Unit := fun called =>
  (if called then .error "refused" else .ok (), true)

def onceOnly : Emitter (Machine Bool String) where
  step _ _ := takeOne
  orchestrator _ _ := takeOne
  finish _ := takeOne

/-- Two steps are placed, and the second is refused. -/
theorem pricing_emitted_once :
    ∃ compiled summary, Source.pricing.compileWith none = .ok (compiled, summary) ∧
      (∃ before call after, compiled.script = before ++ call :: after ∧
        (compiled.emit onceOnly.recorded).exec (false, []) =
          (.error "refused", true, before ++ [call])) ∧
      ∃ step p, Call.step step (some p) ∈ compiled.script ∧
        p.step = step.step.client compiled.transport := by
  have hfacts : (Source.pricing.compileWith none).toOption.any (fun result =>
      ((result.1.emit onceOnly).exec false).1.toOption.isNone &&
        result.1.steps.any fun s =>
          (result.1.placement? (s.step.client result.1.transport)).isSome) = true := by
    decide +kernel
  obtain ⟨⟨compiled, summary⟩, hsome, hboth⟩ := (Option.any_eq_true _ _).mp hfacts
  have hresult := toOption_eq_some_iff.mp hsome
  obtain ⟨hrefused, hplaced⟩ := (Bool.and_eq_true _ _).mp hboth
  obtain ⟨herased, hcases, hplacement⟩ := compiled.emit_follows_script onceOnly false
  refine ⟨compiled, summary, hresult, ?_, ?_⟩
  · rcases hcases with ⟨last, -, hexec⟩ |
      ⟨before, call, after, next, error, last, hscript, -, hfails, hexec⟩
    · rw [herased, hexec] at hrefused
      cases hrefused
    · have hcall : (onceOnly.call call).exec next =
          (if next then .error "refused" else .ok (), true) := by
        cases call <;> rfl
      rw [hcall] at hfails
      obtain ⟨herror, rfl⟩ := Prod.mk.inj hfails
      refine ⟨before, call, after, hscript, ?_⟩
      cases next with
      | false => cases herror
      | true =>
        cases herror
        exact hexec
  · obtain ⟨step, hstep, hisSome⟩ := List.any_eq_true.mp hplaced
    obtain ⟨p, hp⟩ := Option.isSome_iff_exists.mp hisSome
    have hcall := Compiled.step_mem_script_iff.mpr ⟨hstep, hp.symm⟩
    exact ⟨step, p, hcall, ((hplacement _ _ _ hresult _ _ hcall).2 p rfl).2⟩

end PipelinePlan
