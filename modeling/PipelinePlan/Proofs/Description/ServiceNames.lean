import PipelinePlan.Proofs.Description.Extraction
import PipelinePlan.Proofs.Schema.BuiltPool

namespace PipelinePlan

namespace Text

theorem isDigit_eq_false_of_isAlpha {c : Char} (h : c.isAlpha = true) : c.isDigit = false := by
  simp only [Char.isAlpha, Char.isUpper, Char.isLower, Char.isDigit, Bool.or_eq_true,
    Bool.and_eq_true, decide_eq_true_eq, Bool.and_eq_false_iff, decide_eq_false_iff_not,
    UInt32.le_iff_toNat_le, ge_iff_le, Char.reduceVal, UInt32.reduceToNat] at h ⊢
  omega

theorem isDigit_toUpper (c : Char) : c.toUpper.isDigit = c.isDigit := by
  by_cases h : c.isLower
  · have hc : c.isAlpha = true := by simp [Char.isAlpha, h]
    have hupper : c.toUpper.isAlpha = true := by simp [Char.isAlpha, h]
    rw [isDigit_eq_false_of_isAlpha hc, isDigit_eq_false_of_isAlpha hupper]
  · rw [Char.toUpper_eq_of_not_isLower h]

/-- Letters and digits of which none is a small letter right after a digit. -/
structure Capped (cs : List Char) : Prop where
  alphanum : ∀ c ∈ cs, c.isAlphanum = true
  raised : cs.IsChain fun c d => c.isDigit = true → d.isLower = false

theorem Capped.of_infix {part cs : List Char} (h : Capped cs) (hpart : part <:+: cs) :
    Capped part :=
  ⟨fun c hc => h.alphanum c (hpart.mem hc), h.raised.infix hpart⟩

theorem Capped.append {first second : List Char} (h : Capped first) (h' : Capped second)
    (hbetween : ∀ c ∈ first.getLast?, ∀ d ∈ second.head?, c.isDigit = true → d.isLower = false) :
    Capped (first ++ second) := by
  refine ⟨?_, List.isChain_append.mpr ⟨h.raised, h'.raised, hbetween⟩⟩
  intro c hc
  rcases List.mem_append.mp hc with hc | hc
  · exact h.alphanum c hc
  · exact h'.alphanum c hc

theorem not_lower_head_pascalFrom (cs : List Char) :
    ∀ c ∈ (pascalFrom true cs).head?, c.isLower = false := by
  induction cs with
  | nil => simp [pascalFrom]
  | cons d cs ih =>
    unfold pascalFrom
    split
    · intro c hc
      obtain rfl : d.toUpper = c := by simpa using hc
      exact Char.isLower_toUpper_eq_false d
    · exact ih

/-- Pascal case leaves no small letter after a digit. -/
theorem capped_pascalFrom (raise : Bool) (cs : List Char) : Capped (pascalFrom raise cs) := by
  refine ⟨pascalFrom_alphanum raise cs, ?_⟩
  induction cs generalizing raise with
  | nil => exact .nil
  | cons d cs ih =>
    unfold pascalFrom
    split
    · rw [List.isChain_cons]
      refine ⟨?_, ih d.isDigit⟩
      intro c hc hdigit
      have hd : d.isDigit = true := by
        cases raise with
        | false => exact hdigit
        | true => rwa [if_pos rfl, isDigit_toUpper] at hdigit
      rw [hd] at hc
      exact not_lower_head_pascalFrom cs c hc
    · exact ih true

/-- Pascal case leaves such a text alone, unless it starts with a letter that is raised. -/
theorem Capped.pascalFrom_eq {cs : List Char} (h : Capped cs) {raise : Bool}
    (hfirst : raise = true → ∀ c ∈ cs.head?, c.isLower = false) : pascalFrom raise cs = cs := by
  induction cs generalizing raise with
  | nil => rfl
  | cons c cs ih =>
    obtain ⟨hnext, hrest⟩ := List.isChain_cons.mp h.raised
    have hc : (if raise = true then c.toUpper else c) = c := by
      split
      · next hraise =>
        have hlower : c.isLower = false := hfirst hraise c rfl
        exact Char.toUpper_eq_of_not_isLower (by simp [hlower])
      · rfl
    have hcs : Capped cs := ⟨fun d hd => h.alphanum d (List.mem_cons_of_mem c hd), hrest⟩
    rw [pascalFrom, if_pos (h.alphanum c List.mem_cons_self), hc,
      ih hcs fun hdigit d hd => hnext d hd hdigit]

theorem dropPrefix_append (part s : String) : dropPrefix part (part ++ s) = s := by
  rw [dropPrefix, afterPrefix?_eq_some_iff.mpr rfl, Option.getD_some]

theorem dropSuffix_append (s part : String) : dropSuffix part (s ++ part) = s := by
  rw [dropSuffix, beforeSuffix?_eq_some_iff.mpr rfl, Option.getD_some]

/-- A text is what is left of it behind what was dropped, if anything was. -/
theorem exists_append_dropPrefix (part s : String) :
    ∃ before, s = before ++ dropPrefix part s ∧ (before = "" ∨ before = part) := by
  unfold dropPrefix
  cases hrest : afterPrefix? part s with
  | none => exact ⟨"", String.empty_append.symm, .inl rfl⟩
  | some rest => exact ⟨part, afterPrefix?_eq_some_iff.mp hrest, .inr rfl⟩

theorem exists_dropSuffix_append (part s : String) :
    ∃ after, s = dropSuffix part s ++ after ∧ (after = "" ∨ after = part) := by
  unfold dropSuffix
  cases hrest : beforeSuffix? part s with
  | none => exact ⟨"", String.append_empty.symm, .inl rfl⟩
  | some rest => exact ⟨part, beforeSuffix?_eq_some_iff.mp hrest, .inr rfl⟩

end Text

namespace Naming

theorem capped_serviceMark : Text.Capped serviceMark.toList := by
  have hpascal : Text.pascalFrom true serviceMark.toList = serviceMark.toList := by decide
  exact hpascal ▸ Text.capped_pascalFrom true serviceMark.toList

theorem capped_serviceEnd : Text.Capped serviceEnd.toList := by
  have hpascal : Text.pascalFrom true serviceEnd.toList = serviceEnd.toList := by decide
  exact hpascal ▸ Text.capped_pascalFrom true serviceEnd.toList

section Base

variable {base : String} (h : Text.Capped base.toList)
include h

/-- The mark and the end of a service go with every such text between them. -/
theorem capped_service : Text.Capped (serviceMark ++ base ++ serviceEnd).toList := by
  rw [String.toList_append, String.toList_append]
  apply (capped_serviceMark.append h ?_).append capped_serviceEnd
  · -- The end begins with a capital.
    intro c _ d hd _
    obtain rfl : 'S' = d := Option.some.inj hd
    decide
  · -- The mark ends in a letter.
    intro c hc d _ hdigit
    obtain rfl : 's' = c := Option.some.inj hc
    exact absurd hdigit (by decide)

theorem pascal_service :
    Text.pascal (serviceMark ++ base ++ serviceEnd) = serviceMark ++ base ++ serviceEnd := by
  have hfirst : ∀ c ∈ (serviceMark ++ base ++ serviceEnd).toList.head?, c.isLower = false := by
    intro c hc
    rw [String.toList_append, String.toList_append, List.append_assoc] at hc
    obtain rfl : 'P' = c := Option.some.inj hc
    decide
  rw [Text.pascal, (capped_service h).pascalFrom_eq fun _ => hfirst, String.ofList_toList]

theorem serviceOfStep_service :
    serviceOfStep (serviceMark ++ base ++ serviceEnd) = serviceMark ++ base ++ serviceEnd := by
  have hbase : Text.dropPrefix serviceMark (serviceMark ++ base ++ serviceEnd) =
      base ++ serviceEnd := by
    rw [String.append_assoc, Text.dropPrefix_append]
  rw [serviceOfStep, pascal_service h, hbase, Text.dropSuffix_append]

end Base

def derivedBase (step : String) : String :=
  Text.dropSuffix serviceEnd (Text.dropPrefix serviceMark (Text.pascal step))

/-- The base is the name of the step in pascal case, without the mark and the end that it may have. -/
theorem pascal_eq_of_derivedBase (step : String) :
    ∃ before after, Text.pascal step = before ++ derivedBase step ++ after ∧
      (before = "" ∨ before = serviceMark) ∧ (after = "" ∨ after = serviceEnd) := by
  obtain ⟨before, hbefore, hmark⟩ := Text.exists_append_dropPrefix serviceMark (Text.pascal step)
  obtain ⟨after, hafter, hend⟩ :=
    Text.exists_dropSuffix_append serviceEnd (Text.dropPrefix serviceMark (Text.pascal step))
  refine ⟨before, after, ?_, hmark, hend⟩
  rw [String.append_assoc, derivedBase, ← hafter, ← hbefore]

theorem capped_derivedBase (step : String) : Text.Capped (derivedBase step).toList := by
  have hpascal : Text.Capped (Text.pascal step).toList := by
    rw [Text.pascal, String.toList_ofList]
    exact Text.capped_pascalFrom true step.toList
  obtain ⟨before, after, hparts, -⟩ := pascal_eq_of_derivedBase step
  apply hpascal.of_infix
  rw [hparts, String.toList_append, String.toList_append]
  exact List.infix_append _ _ _

theorem serviceOfStep_eq (step : String) :
    serviceOfStep step = serviceMark ++ derivedBase step ++ serviceEnd := rfl

end Naming

namespace Binding

/-- A service name with the mark in front of it is not what keeps a step from being bound. -/
theorem resolve_ne_invalidServiceName {step : Step}
    (hmark : Text.startsWith Naming.serviceMark step.serviceName = true) (pool : Schema.Pool)
    (name service : String) : resolve step pool ≠ .error (.invalidServiceName name service) := by
  intro herror
  rw [resolve_eq, if_neg (by simp [hmark])] at herror
  rcases error_of_found herror with
    ⟨_, he⟩ | ⟨_, he⟩ | ⟨_, _, he⟩ | ⟨_, _, _, he⟩ | ⟨found, method, he⟩
  · cases he
  · cases he
  · cases he
  · cases he
  · -- What is left to check of a method has errors of its own.
    split at he
    · cases he
    split at he
    · cases he
    split at he <;> cases he

end Binding

theorem Naming.startsWith_serviceOfStep (name : String) :
    Text.startsWith serviceMark (serviceOfStep name) = true := by
  rw [Text.startsWith_iff, serviceOfStep_eq, String.append_assoc, String.toList_append]
  exact List.prefix_append _ _

theorem Declaration.toStep_serviceName_of_blank {d : Declaration} {config : Option StepConfig}
    {step : Step} (hblank : ∀ service, d.serviceName = some service → Text.trim service = "")
    (h : d.toStep config = .ok step) : step.serviceName = Naming.serviceOfStep step.name := by
  rw [toStep_serviceName h, givenText_eq_none_iff.mpr hblank, Option.getD_none]

/-- The service that is derived from the name of a step has letters and digits only. Between the
mark and the end that all have stands the name in pascal case, less a mark and an end of its own. A
service derived from the name of such a service is that service. So a step whose declaration gives
no service name, or a blank one, is never refused for want of the mark, whatever the pool. -/
theorem derived_services_stable :
    (∀ name : String,
      (∀ c ∈ (Naming.serviceOfStep name).toList, c.isAlphanum = true) ∧
      (∃ base before after, Naming.serviceOfStep name = "Process" ++ base ++ "Service" ∧
        Text.pascal name = before ++ base ++ after ∧
        (before = "" ∨ before = "Process") ∧ (after = "" ∨ after = "Service")) ∧
      Naming.serviceOfStep (Naming.serviceOfStep name) = Naming.serviceOfStep name) ∧
    ∀ (d : Declaration) (config : Option StepConfig) (step : Step),
      (∀ service, d.serviceName = some service → Text.trim service = "") →
      d.toStep config = .ok step →
        step.serviceName = Naming.serviceOfStep step.name ∧
        ∀ pool name service,
          Binding.resolve step pool ≠ .error (.invalidServiceName name service) := by
  constructor
  · intro name
    have hbase := Naming.capped_derivedBase name
    obtain ⟨before, after, hparts⟩ := Naming.pascal_eq_of_derivedBase name
    refine ⟨?_, ⟨_, before, after, Naming.serviceOfStep_eq name, hparts⟩, ?_⟩
    · rw [Naming.serviceOfStep_eq]
      exact (Naming.capped_service hbase).alphanum
    · rw [Naming.serviceOfStep_eq name, Naming.serviceOfStep_service hbase]
  · intro d config step hblank hstep
    have hservice := Declaration.toStep_serviceName_of_blank hblank hstep
    refine ⟨hservice, ?_⟩
    apply Binding.resolve_ne_invalidServiceName
    rw [hservice, Naming.startsWith_serviceOfStep]

/-- A declaration with a blank service name and a step name that has mark and end in it. -/
def refund : Declaration where
  name := "process2pay service"
  serviceName := some " "
  space := some "acme"

theorem refund_service :
    (∀ service, refund.serviceName = some service → Text.trim service = "") ∧
    ∃ step, refund.toStep none = .ok step ∧ step.serviceName = "Process2PayService" ∧
      (∀ pool name service,
        Binding.resolve step pool ≠ .error (.invalidServiceName name service)) ∧
      ∀ pool, Binding.resolve { step with serviceName := "PayService" } pool =
        .error (.invalidServiceName step.name "PayService") := by
  have hblank : ∀ service, refund.serviceName = some service → Text.trim service = "" := by
    intro service hservice
    obtain rfl : " " = service := Option.some.inj hservice
    decide +kernel
  refine ⟨hblank, ?_⟩
  have hfacts : (refund.toStep none).toOption.map (·.serviceName) = some "Process2PayService" ∧
      Text.startsWith Naming.serviceMark "PayService" = false := by
    decide +kernel
  obtain ⟨step, hstep, hname⟩ := Option.map_eq_some_iff.mp hfacts.1
  have hok := toOption_eq_some_iff.mp hstep
  refine ⟨step, hok, hname, (derived_services_stable.2 refund none step hblank hok).2, ?_⟩
  intro pool
  rw [Binding.resolve_eq, if_pos hfacts.2]

end PipelinePlan
