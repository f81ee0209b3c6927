import PipelinePlan.Proofs.Placement.Properties

namespace PipelinePlan.Overrides

def Speaks (line : List Char) : Prop :=
  ∃ c rest, Text.trimChars line = c :: rest ∧ c ≠ '#' ∧ c ≠ '!'

/-- A text in two parts, before and after the first `=` or `:` in it. -/
def Divided (text key value : List Char) : Prop :=
  ∃ c, (c = '=' ∨ c = ':') ∧ (∀ a ∈ key, a ≠ '=' ∧ a ≠ ':') ∧ text = key ++ c :: value

/-- A line that is no key with a value, or that gives a key of the program a value that it does not
take. -/
def Refused (line : List Char) : Prop :=
  Speaks line ∧
    ((∀ c ∈ Text.trimChars line, c ≠ '=' ∧ c ≠ ':') ∨
      ∃ key value, Divided (Text.trimChars line) key value ∧
        "pipeline.".toList <+: Text.trimChars key ∧
        ¬Admitted (String.ofList (Text.trimChars key)) (Text.trimChars value))

inductive Complaint (number : Nat) (line : List Char) : Error → Prop
  | undivided (hspeaks : Speaks line) (hnone : ∀ c ∈ Text.trimChars line, c ≠ '=' ∧ c ≠ ':') :
      Complaint number line (.invalidModuleConfig (String.ofList (Text.trimChars line))
        s!"line {number} is not a key=value pair")
  | misuse {key value : List Char} {reason : String} (hspeaks : Speaks line)
      (hdivided : Divided (Text.trimChars line) key value)
      (hmisuse : Misuse (String.ofList (Text.trimChars key)) (Text.trimChars value) reason) :
      Complaint number line (.invalidModuleConfig (String.ofList (Text.trimChars key)) reason)

def FirstRefused (text : String) (number : Nat) (line : List Char) : Prop :=
  ∃ before after, Text.lines text.toList = before ++ line :: after ∧ number = before.length + 1 ∧
    (∀ earlier ∈ before, ¬Refused earlier) ∧ Refused line

section Lines

variable {number : Nat} {line : List Char} {e : Error}

theorem splitFirst?_eq_none_iff_undivided {text : List Char} :
    Text.splitFirst? (fun c => c == '=' || c == ':') text = none ↔
      ∀ c ∈ text, c ≠ '=' ∧ c ≠ ':' := by
  simp only [Text.splitFirst?_eq_none_iff, Bool.or_eq_false_iff, beq_eq_false_iff_ne]

theorem splitFirst?_eq_some_iff_divided {text key value : List Char} :
    Text.splitFirst? (fun c => c == '=' || c == ':') text = some (key, value) ↔
      Divided text key value := by
  constructor
  · intro h
    obtain ⟨c, hc, hkey, htext⟩ := Text.splitFirst?_eq_some h
    exact ⟨c, by simpa using hc, fun a ha => by simpa using hkey a ha, htext⟩
  · rintro ⟨c, hc, hkey, rfl⟩
    exact Text.splitFirst?_append_cons (fun a ha => by simpa using hkey a ha) (by simpa using hc) _

theorem readLine_of_not_speaks (h : ¬Speaks line) : readLine number line = .ok .nothing := by
  unfold readLine
  dsimp only
  split
  · rfl
  · rfl
  · rfl
  · next hnil hhash hbang =>
    refine absurd ?_ h
    obtain ⟨c, rest, hline⟩ := List.exists_cons_of_ne_nil hnil
    refine ⟨c, rest, hline, ?_, ?_⟩
    · rintro rfl
      exact hhash rest hline
    · rintro rfl
      exact hbang rest hline

theorem readLine_of_speaks (h : Speaks line) :
    readLine number line =
      match Text.splitFirst? (fun c => c == '=' || c == ':') (Text.trimChars line) with
      | none => .error (.invalidModuleConfig (String.ofList (Text.trimChars line))
          s!"line {number} is not a key=value pair")
      | some (key, value) =>
        readProperty (String.ofList (Text.trimChars key)) (Text.trimChars value) := by
  obtain ⟨c, rest, hline, hhash, hbang⟩ := h
  unfold readLine
  dsimp only
  split
  · next hnil => exact absurd (hline.symm.trans hnil) (List.cons_ne_nil c rest)
  · next heq => exact absurd (List.cons.inj (hline.symm.trans heq)).1 hhash
  · next heq => exact absurd (List.cons.inj (hline.symm.trans heq)).1 hbang
  · rfl

theorem readLine_eq_error_iff : readLine number line = .error e ↔ Complaint number line e := by
  by_cases hspeaks : Speaks line
  · rw [readLine_of_speaks hspeaks]
    split
    · next hnone =>
      have hundivided := splitFirst?_eq_none_iff_undivided.mp hnone
      constructor
      · intro h
        obtain rfl := Except.error.inj h
        exact .undivided hspeaks hundivided
      · intro h
        cases h with
        | undivided => rfl
        | misuse _ hdivided =>
          rw [splitFirst?_eq_some_iff_divided.mpr hdivided] at hnone
          cases hnone
    · next key value hsome =>
      rw [readProperty_eq_error_iff]
      constructor
      · rintro ⟨reason, hmisuse, rfl⟩
        exact .misuse hspeaks (splitFirst?_eq_some_iff_divided.mp hsome) hmisuse
      · intro h
        cases h with
        | undivided _ hnone =>
          rw [splitFirst?_eq_none_iff_undivided.mpr hnone] at hsome
          cases hsome
        | misuse _ hdivided hmisuse =>
          rw [splitFirst?_eq_some_iff_divided.mpr hdivided] at hsome
          obtain ⟨rfl, rfl⟩ := Prod.mk.inj (Option.some.inj hsome)
          exact ⟨_, hmisuse, rfl⟩
  · rw [readLine_of_not_speaks hspeaks]
    simp only [reduceCtorEq, false_iff]
    intro h
    cases h with
    | undivided hspeaks' => exact hspeaks hspeaks'
    | misuse hspeaks' => exact hspeaks hspeaks'

theorem exists_complaint_iff : (∃ e, Complaint number line e) ↔ Refused line := by
  constructor
  · rintro ⟨e, h⟩
    cases h with
    | undivided hspeaks hnone => exact ⟨hspeaks, .inl hnone⟩
    | misuse hspeaks hdivided hmisuse =>
      obtain ⟨hmark, hnot⟩ := exists_misuse_iff.mp ⟨_, hmisuse⟩
      rw [String.toList_ofList] at hmark
      exact ⟨hspeaks, .inr ⟨_, _, hdivided, hmark, hnot⟩⟩
  · rintro ⟨hspeaks, hnone | ⟨key, value, hdivided, hmark, hnot⟩⟩
    · exact ⟨_, .undivided hspeaks hnone⟩
    · rw [← String.toList_ofList (l := Text.trimChars key)] at hmark
      obtain ⟨reason, hmisuse⟩ := exists_misuse_iff.mpr ⟨hmark, hnot⟩
      exact ⟨_, .misuse hspeaks hdivided hmisuse⟩

theorem exists_readLine_eq_ok_iff :
    (∃ directive, readLine number line = .ok directive) ↔ ¬Refused line := by
  rw [← @exists_complaint_iff number]
  simp only [← readLine_eq_error_iff]
  cases readLine number line <;> simp

instance : DecidablePred Refused := fun line =>
  decidable_of_iff ((readLine 0 line).toOption = none) <| by
    rw [toOption_eq_none_iff, ← @exists_complaint_iff 0]
    simp only [readLine_eq_error_iff]

/-- The error of a line with a separator does not tell the number of the line. -/
theorem Complaint.unique {number' : Nat} {e' : Error} (h : Complaint number line e)
    (h' : Complaint number' line e')
    (hnumber : number = number' ∨ ∃ c ∈ Text.trimChars line, c = '=' ∨ c = ':') : e = e' := by
  rcases hnumber with rfl | ⟨c, hc, hseparator⟩
  · have hread := readLine_eq_error_iff.mpr h
    rw [readLine_eq_error_iff.mpr h'] at hread
    exact (Except.error.inj hread).symm
  · cases h with
    | undivided _ hnone =>
      obtain ⟨heq, hcolon⟩ := hnone c hc
      exact (hseparator.elim heq hcolon).elim
    | misuse hspeaks hdivided hmisuse =>
      have hcomplaint : Complaint number' line _ := .misuse hspeaks hdivided hmisuse
      have hread := readLine_eq_error_iff.mpr hcomplaint
      rw [readLine_eq_error_iff.mpr h'] at hread
      exact (Except.error.inj hread).symm

/-- Reading lines fails at the first one that is refused. -/
theorem readLines_eq_error_iff {lines : List (List Char)} :
    readLines number lines = .error e ↔ ∃ before line after, lines = before ++ line :: after ∧
      (∀ earlier ∈ before, ¬Refused earlier) ∧ Complaint (number + before.length) line e := by
  induction lines generalizing number with
  | nil => simp [readLines]
  | cons first rest ih =>
    cases hfirst : readLine number first with
    | error e' =>
      have hcomplaint := readLine_eq_error_iff.mp hfirst
      have hstep : readLines number (first :: rest) = .error e' := by
        simp only [readLines, hfirst, bind, Except.bind]
      constructor
      · intro h
        obtain rfl := Except.error.inj (hstep.symm.trans h)
        exact ⟨[], first, rest, rfl, by simp, hcomplaint⟩
      · rintro ⟨before, line, after, heq, hbefore, h⟩
        cases before with
        | nil =>
          obtain ⟨rfl, -⟩ := List.cons.inj heq
          rw [hstep, hcomplaint.unique h (.inl rfl)]
        | cons other before =>
          obtain ⟨rfl, -⟩ := List.cons.inj heq
          exact absurd (exists_complaint_iff.mp ⟨e', hcomplaint⟩) (hbefore _ List.mem_cons_self)
    | ok directive =>
      have hgood : ¬Refused first := exists_readLine_eq_ok_iff.mp ⟨directive, hfirst⟩
      have hstep : readLines number (first :: rest) = .error e ↔
          readLines (number + 1) rest = .error e := by
        simp only [readLines, hfirst, bind, Except.bind]
        cases readLines (number + 1) rest <;> simp
      have hnumber (before : List (List Char)) :
          number + (first :: before).length = number + 1 + before.length := by
        rw [List.length_cons]
        omega
      rw [hstep, ih]
      constructor
      · rintro ⟨before, line, after, rfl, hbefore, h⟩
        exact ⟨first :: before, line, after, rfl, List.forall_mem_cons.mpr ⟨hgood, hbefore⟩,
          hnumber before ▸ h⟩
      · rintro ⟨before, line, after, heq, hbefore, h⟩
        cases before with
        | nil =>
          obtain ⟨rfl, -⟩ := List.cons.inj heq
          exact absurd (exists_complaint_iff.mp ⟨e, h⟩) hgood
        | cons other before =>
          obtain ⟨rfl, rfl⟩ := List.cons.inj heq
          exact ⟨before, line, after, rfl, (List.forall_mem_cons.mp hbefore).2,
            hnumber before ▸ h⟩

end Lines

section Texts

variable {text : String} {number : Nat} {line : List Char} {e : Error}

theorem parse_eq_error_iff :
    parse text = .error e ↔
      ∃ number line, FirstRefused text number line ∧ Complaint number line e := by
  have hparse : parse text = .error e ↔ readLines 1 (Text.lines text.toList) = .error e := by
    simp only [parse, bind, Except.bind, pure, Except.pure]
    cases readLines 1 (Text.lines text.toList) <;> simp
  rw [hparse, readLines_eq_error_iff]
  constructor
  · rintro ⟨before, line, after, hlines, hbefore, h⟩
    rw [Nat.add_comm] at h
    exact ⟨_, line, ⟨before, after, hlines, rfl, hbefore, exists_complaint_iff.mp ⟨e, h⟩⟩, h⟩
  · rintro ⟨_, line, ⟨before, after, hlines, rfl, hbefore, -⟩, h⟩
    rw [Nat.add_comm] at h
    exact ⟨before, line, after, hlines, hbefore, h⟩

theorem exists_firstRefused_iff :
    (∃ number line, FirstRefused text number line) ↔
      ∃ line ∈ Text.lines text.toList, Refused line := by
  constructor
  · rintro ⟨_, line, before, after, hlines, -, -, hrefused⟩
    exact ⟨line, by simp [hlines], hrefused⟩
  · rintro ⟨line, hline, hrefused⟩
    have hfound : ((Text.lines text.toList).find? (decide <| Refused ·)).isSome = true :=
      List.find?_isSome.mpr ⟨line, hline, by simpa using hrefused⟩
    obtain ⟨first, hfirst⟩ := Option.isSome_iff_exists.mp hfound
    obtain ⟨hrefused', before, after, hlines, hbefore⟩ := List.find?_eq_some_iff_append.mp hfirst
    exact ⟨_, first, before, after, hlines, rfl, by simpa using hbefore, by simpa using hrefused'⟩

theorem exists_parse_eq_error (h : FirstRefused text number line) :
    ∃ e, Complaint number line e ∧ parse text = .error e := by
  obtain ⟨before, after, hlines, hnumber, hbefore, hrefused⟩ := h
  obtain ⟨e, hcomplaint⟩ := exists_complaint_iff.mpr hrefused
  exact ⟨e, hcomplaint, parse_eq_error_iff.mpr
    ⟨number, line, ⟨before, after, hlines, hnumber, hbefore, hrefused⟩, hcomplaint⟩⟩

end Texts

/-- A text of properties fails exactly if one of its lines is refused. The error is about the first
such line: whatever the other lines are, two texts with that line fail in the same way if it has a
separator or has the same number in both. -/
theorem parse_fails_by_first_refused :
    (∀ text, (∃ e, parse text = .error e) ↔ ∃ line ∈ Text.lines text.toList, Refused line) ∧
    (∀ text number line, FirstRefused text number line →
      ∃ e, Complaint number line e ∧ parse text = .error e) ∧
    ∀ text text' number number' line, FirstRefused text number line →
      FirstRefused text' number' line →
      number = number' ∨ (∃ c ∈ Text.trimChars line, c = '=' ∨ c = ':') →
      parse text = parse text' := by
  refine ⟨fun text => ?_, fun _ _ _ => exists_parse_eq_error, ?_⟩
  · rw [← exists_firstRefused_iff]
    constructor
    · rintro ⟨e, herror⟩
      obtain ⟨number, line, hfirst, -⟩ := parse_eq_error_iff.mp herror
      exact ⟨number, line, hfirst⟩
    · rintro ⟨number, line, hfirst⟩
      obtain ⟨e, -, herror⟩ := exists_parse_eq_error hfirst
      exact ⟨e, herror⟩
  · intro text text' number number' line hfirst hfirst' hnumber
    obtain ⟨e, hcomplaint, herror⟩ := exists_parse_eq_error hfirst
    obtain ⟨e', hcomplaint', herror'⟩ := exists_parse_eq_error hfirst'
    rw [herror, herror', hcomplaint.unique hcomplaint' hnumber]

/-- A key that the program does not know, alone and between other lines. -/
theorem strayKey_refused :
    FirstRefused "pipeline.x=1" 1 "pipeline.x=1".toList ∧
    FirstRefused "a:b\npipeline.x=1\n?" 2 "pipeline.x=1".toList ∧
    (∃ e, parse "pipeline.x=1" = .error e) ∧
    parse "a:b\npipeline.x=1\n?" = parse "pipeline.x=1" := by
  have hlines : Text.lines "pipeline.x=1".toList = ["pipeline.x=1".toList] ∧
      Text.lines "a:b\npipeline.x=1\n?".toList =
        ["a:b".toList, "pipeline.x=1".toList, "?".toList] ∧
      Refused "pipeline.x=1".toList ∧ ¬Refused "a:b".toList ∧
      '=' ∈ Text.trimChars "pipeline.x=1".toList := by
    decide +kernel
  obtain ⟨halone, hbetween, hrefused, hgood, hseparator⟩ := hlines
  have hfirst : FirstRefused "pipeline.x=1" 1 "pipeline.x=1".toList :=
    ⟨[], [], halone, rfl, by simp, hrefused⟩
  have hsecond : FirstRefused "a:b\npipeline.x=1\n?" 2 "pipeline.x=1".toList :=
    ⟨["a:b".toList], ["?".toList], hbetween, rfl, List.forall_mem_singleton.mpr hgood, hrefused⟩
  obtain ⟨-, herror, hsame⟩ := parse_fails_by_first_refused
  obtain ⟨e, -, he⟩ := herror _ _ _ hfirst
  exact ⟨hfirst, hsecond, ⟨e, he⟩, hsame _ _ _ _ _ hsecond hfirst (.inr ⟨'=', hseparator, .inl rfl⟩)⟩

/-- The number of a line that is only a word is in the error. -/
theorem loneWord_told_apart : FirstRefused "x" 1 ['x'] ∧ FirstRefused "\nx" 2 ['x'] ∧
    parse "x" ≠ parse "\nx" := by
  have hword : Refused ['x'] := by decide
  have hblank : ¬Refused [] := by decide
  refine ⟨⟨[], [], by decide, rfl, by simp, hword⟩,
    ⟨[[]], [], by decide, rfl, List.forall_mem_singleton.mpr hblank, hword⟩, ?_⟩
  have hfirst : parse "x" =
      .error (.invalidModuleConfig "x" "line 1 is not a key=value pair") := rfl
  have hsecond : parse "\nx" =
      .error (.invalidModuleConfig "x" "line 2 is not a key=value pair") := rfl
  rw [hfirst, hsecond]
  decide

end PipelinePlan.Overrides
