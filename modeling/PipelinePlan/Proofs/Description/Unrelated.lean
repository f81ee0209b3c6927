import PipelinePlan.Proofs.Description.References
import PipelinePlan.Proofs.Name

namespace PipelinePlan

theorem Text.token_eq_empty_iff {s : String} :
    Text.token s = "" ↔ ∀ c ∈ s.toList, c.isAlphanum = false := by
  rw [Text.token, String.ofList_eq_empty_iff, Text.tokenOf, List.map_eq_nil_iff,
    List.filter_eq_nil_iff]
  simp only [Bool.not_eq_true]

theorem Text.wordsOf_eq_nil {cs : List Char} (h : ∀ c ∈ cs, c.isAlphanum = false) :
    Text.wordsOf cs = [] := by
  induction cs with
  | nil => rfl
  | cons c cs ih =>
    obtain ⟨hc, hcs⟩ := List.forall_mem_cons.mp h
    unfold Text.wordsOf
    rw [hc, ih hcs]
    rfl

/-- A name with the empty token has no words. -/
theorem Overlap.meaningfulWords_eq_nil {s : String} (h : Text.token s = "") :
    Overlap.meaningfulWords s = [] := by
  have hsimple : ∀ c ∈ (Name.simple s).toList, c.isAlphanum = false := by
    intro c hc
    rw [Name.simple_eq, String.toList_ofList] at hc
    exact Text.token_eq_empty_iff.mp h c ((List.rtakeWhile_suffix _ _).mem hc)
  rw [Overlap.meaningfulWords, Text.lowerWords, Text.wordsOf_eq_nil hsimple]
  rfl

namespace TopologyEntry

/-- The entry and the step have something in common: a name that is not empty or a word. -/
def Related (entry : TopologyEntry) (step : Step) : Prop :=
  Text.token entry.name ≠ "" ∧ entry.HasName step ∨ entry.SharesWord step

variable {entry : TopologyEntry} {steps : List Step} {taken : List Nat}

theorem not_sharesWord_of_token (h : Text.token entry.name = "") (step : Step) :
    ¬entry.SharesWord step := by
  rintro ⟨word, hword, -⟩
  rw [Overlap.meaningfulWords_eq_nil h] at hword
  cases hword

theorem not_related_of_token (h : Text.token entry.name = "") (step : Step) :
    ¬entry.Related step := by
  rintro (⟨hname, -⟩ | hword)
  · exact hname h
  · exact not_sharesWord_of_token h step hword

theorem Refers.hasName_or_sharesWord {taken : Nat → Prop} {i : Nat} {step : Step}
    (h : entry.Refers steps taken i step) :
    steps[i]? = some step ∧ (entry.HasName step ∨ entry.SharesWord step) := by
  cases h with
  | byName hfound hname => exact ⟨hfound, .inl hname⟩
  | byWords _ hmost => exact ⟨hmost.found, .inr hmost.shares⟩
  | again _ _ hmost => exact ⟨hmost.found, .inr hmost.shares⟩

theorem exists_of_stepAmong? {i : Nat} (h : entry.stepAmong? steps taken = some i) :
    ∃ step, steps[i]? = some step ∧ (entry.HasName step ∨ entry.SharesWord step) := by
  obtain ⟨step, hrefers⟩ := stepAmong?_eq_some_iff.mp h
  exact ⟨step, hrefers.hasName_or_sharesWord⟩

/-- An entry with an empty name is not matched exactly if no step and no service has one. -/
theorem stepAmong?_eq_none_iff_of_token (h : Text.token entry.name = "") :
    entry.stepAmong? steps taken = none ↔
      ∀ step ∈ steps, Text.token step.name ≠ "" ∧
        Text.token (Naming.serviceBase step.serviceName) ≠ "" := by
  rw [stepAmong?_eq_none_iff]
  refine forall₂_congr fun step _ => ?_
  rw [and_iff_left (not_sharesWord_of_token h step), HasName, h, not_or]

/-- A step that an entry is matched with has its token or shares a word with it. That the two have
anything in common is sure exactly if the name of the entry is not an empty one, or no step and no
service has an empty name. -/
theorem stepAmong?_related_iff (entry : TopologyEntry) (steps : List Step) (taken : List Nat) :
    (∀ i, entry.stepAmong? steps taken = some i →
      ∃ step, steps[i]? = some step ∧ (entry.HasName step ∨ entry.SharesWord step)) ∧
    ((∀ i, entry.stepAmong? steps taken = some i →
        ∃ step, steps[i]? = some step ∧ entry.Related step) ↔
      Text.token entry.name ≠ "" ∨
        ∀ step ∈ steps, Text.token step.name ≠ "" ∧
          Text.token (Naming.serviceBase step.serviceName) ≠ "") := by
  refine ⟨fun i hi => exists_of_stepAmong? hi, ?_⟩
  by_cases htoken : Text.token entry.name = ""
  · have hnone : entry.stepAmong? steps taken = none ↔ _ := stepAmong?_eq_none_iff_of_token htoken
    rw [or_iff_right (not_not.mpr htoken), ← hnone, Option.eq_none_iff_forall_ne_some]
    refine forall_congr' fun i => ⟨fun h hi => ?_, fun h hi => absurd hi h⟩
    obtain ⟨step, -, hrelated⟩ := h hi
    exact not_related_of_token htoken step hrelated
  · refine iff_of_true (fun i hi => ?_) (.inl htoken)
    obtain ⟨step, hstep, hcommon⟩ := exists_of_stepAmong? hi
    exact ⟨step, hstep, hcommon.imp_left (And.intro htoken)⟩

/-- A step whose name has neither letters nor digits of ASCII, and one with a name of letters. -/
def unspelledSteps : List Step :=
  (Compilation.extractAll { baseSpace := "acme" } [{ name := "発" }, { name := "pay" }]).1

def unspelledEntry : TopologyEntry := { name := "支" }

/-- The two names without letters are not alike, and still the entry is matched with the step. -/
theorem unspelledEntry_matched :
    unspelledEntry.stepAmong? unspelledSteps [0] = some 0 ∧
    ∃ step, unspelledSteps[0]? = some step ∧ ¬unspelledEntry.Related step := by
  have hmatched : unspelledEntry.stepAmong? unspelledSteps [0] = some 0 ∧
      Text.token unspelledEntry.name = "" := by
    decide +kernel
  obtain ⟨step, hstep, -⟩ := exists_of_stepAmong? hmatched.1
  exact ⟨hmatched.1, step, hstep, not_related_of_token hmatched.2 step⟩

def payEntry : TopologyEntry := { name := "Pay" }

theorem payEntry_related :
    payEntry.stepAmong? unspelledSteps [] = some 1 ∧ Text.token payEntry.name ≠ "" ∧
    ∃ step, unspelledSteps[1]? = some step ∧ payEntry.Related step := by
  have hmatched : payEntry.stepAmong? unspelledSteps [] = some 1 ∧
      Text.token payEntry.name ≠ "" := by
    decide +kernel
  obtain ⟨-, hrelated⟩ := stepAmong?_related_iff payEntry unspelledSteps []
  exact ⟨hmatched.1, hmatched.2, hrelated.mpr (.inl hmatched.2) 1 hmatched.1⟩

end TopologyEntry

end PipelinePlan
