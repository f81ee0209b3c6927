import PipelinePlan.Naming
import PipelinePlan.Proofs.List
import PipelinePlan.Proofs.Name
import PipelinePlan.Proofs.Text.Words

namespace PipelinePlan

namespace Text

theorem startsWith_iff {part s : String} : startsWith part s = true ↔ part.toList <+: s.toList :=
  List.isPrefixOf_iff_prefix

theorem endsWith_iff {part s : String} : endsWith part s = true ↔ part.toList <:+ s.toList :=
  List.isSuffixOf_iff_suffix

theorem beforeSuffix?_eq_some_iff {part s before : String} :
    beforeSuffix? part s = some before ↔ s = before ++ part := by
  unfold beforeSuffix?
  rw [Option.map_eq_some_iff, ← String.toList_inj, String.toList_append]
  constructor
  · rintro ⟨cs, hcs, rfl⟩
    rw [String.toList_ofList, List.isSuffixOf?_eq_some_iff_append_eq.mp hcs]
  · intro h
    exact ⟨before.toList, List.isSuffixOf?_eq_some_iff_append_eq.mpr h.symm,
      String.ofList_toList⟩

theorem afterPrefix?_eq_some_iff {part s after : String} :
    afterPrefix? part s = some after ↔ s = part ++ after := by
  unfold afterPrefix?
  rw [Option.map_eq_some_iff, ← String.toList_inj, String.toList_append]
  constructor
  · rintro ⟨cs, hcs, rfl⟩
    rw [String.toList_ofList, List.isPrefixOf?_eq_some_iff_append_eq.mp hcs]
  · intro h
    exact ⟨after.toList, List.isPrefixOf?_eq_some_iff_append_eq.mpr h.symm,
      String.ofList_toList⟩

end Text

namespace Naming

theorem undotted_pascal (s : String) : Name.Undotted (Text.pascal s) := by
  intro c hc
  rw [Text.pascal, String.toList_ofList] at hc
  have ha := Text.pascalFrom_alphanum true s.toList c hc
  rw [Name.isDot, beq_eq_false_iff_ne]
  rintro rfl
  exact absurd ha (by decide)

def sideEffectStem (aspect type : String) : String :=
  Text.pascal aspect ++ Text.pascal (Name.bareType type)

def sideEffectEnd (transport : Transport) : String := sideEffectMark ++ transport.adapterSuffix

theorem sideEffect_eq (space aspect type : String) (transport : Transport) :
    sideEffect space aspect type transport =
      Name.qualify space (sideEffectStem aspect type ++ sideEffectEnd transport) := by
  simp only [sideEffect, sideEffectStem, sideEffectEnd, String.append_assoc]

theorem undotted_sideEffectEnd (transport : Transport) :
    Name.Undotted (sideEffectEnd transport) := by
  unfold Name.Undotted sideEffectEnd
  cases transport <;> simp [sideEffectMark, Transport.adapterSuffix, Name.isDot]

theorem undotted_sideEffect (aspect type : String) (transport : Transport) :
    Name.Undotted (sideEffectStem aspect type ++ sideEffectEnd transport) := by
  intro c hc
  simp only [sideEffectStem, String.toList_append, List.mem_append] at hc
  rcases hc with (hc | hc) | hc
  · exact undotted_pascal _ c hc
  · exact undotted_pascal _ c hc
  · exact undotted_sideEffectEnd transport c hc

/-- What is spelled like a side effect ends like one, for one of the transports. -/
theorem isSideEffect_iff {identifier : String} :
    isSideEffect identifier = true ↔
      ∃ transport, (sideEffectEnd transport).toList <:+ identifier.toList := by
  have hend (transport : Transport) :
      (Text.beforeSuffix? transport.adapterSuffix (Name.simple identifier)).any
          (Text.endsWith sideEffectMark) = true ↔
        (sideEffectEnd transport).toList <:+ identifier.toList := by
    rw [← Text.suffix_afterLast_iff (undotted_sideEffectEnd transport), Option.any_eq_true]
    simp only [Text.beforeSuffix?_eq_some_iff, Text.endsWith_iff, Name.simple_eq,
      ← String.toList_inj, String.toList_ofList, String.toList_append, sideEffectEnd]
    constructor
    · rintro ⟨before, hbefore, hmark⟩
      rw [hbefore, List.suffix_append_self_iff]
      exact hmark
    · rintro ⟨cs, hcs⟩
      refine ⟨String.ofList cs ++ sideEffectMark, ?_, ?_⟩
      · rw [← hcs, String.toList_append, String.toList_ofList, List.append_assoc]
      · rw [String.toList_append]
        exact List.suffix_append _ _
  unfold isSideEffect
  rw [List.any_eq_true]
  constructor
  · rintro ⟨transport, -, h⟩
    exact ⟨transport, (hend transport).mp h⟩
  · rintro ⟨transport, h⟩
    exact ⟨transport, by cases transport <;> decide, (hend transport).mpr h⟩

theorem isSideEffect_sideEffect (space aspect type : String) (transport : Transport) :
    isSideEffect (sideEffect space aspect type transport) = true := by
  rw [isSideEffect_iff]
  refine ⟨transport, ?_⟩
  rw [sideEffect_eq, Name.toList_qualify, String.toList_append, ← List.append_assoc]
  exact List.suffix_append _ _

/-- Two side effects have one identifier exactly if they lie in one namespace and their aspects and
types are spelled alike when written together. -/
theorem sideEffect_eq_sideEffect_iff {space space' aspect aspect' type type' : String}
    {transport : Transport} :
    sideEffect space aspect type transport = sideEffect space' aspect' type' transport ↔
      space = space' ∧ sideEffectStem aspect type = sideEffectStem aspect' type' := by
  rw [sideEffect_eq, sideEffect_eq]
  constructor
  · intro h
    obtain ⟨hs, hn⟩ :=
      Name.qualify_injective (undotted_sideEffect _ _ _) (undotted_sideEffect _ _ _) h
    have hl := congrArg String.toList hn
    rw [String.toList_append, String.toList_append, List.append_left_inj] at hl
    exact ⟨hs, String.toList_inj.mp hl⟩
  · rintro ⟨rfl, hn⟩
    rw [hn]

def namesSideEffect (service : String) : Bool :=
  Text.endsWith sideEffectMark service || Text.endsWith (sideEffectMark ++ serviceEnd) service

theorem namesSideEffect_iff {service : String} :
    namesSideEffect service = true ↔ sideEffectMark.toList <:+ service.toList ∨
      sideEffectMark.toList ++ serviceEnd.toList <:+ service.toList := by
  unfold namesSideEffect
  rw [Bool.or_eq_true, Text.endsWith_iff, Text.endsWith_iff, String.toList_append]

theorem not_mark_suffix_serviceEnd (cs : List Char) :
    ¬sideEffectMark.toList <:+ cs ++ serviceEnd.toList := by
  have hend : serviceEnd.toList = ['S', 'e'] ++ 'r' :: ['v', 'i', 'c', 'e'] := by decide
  rw [hend, ← List.append_assoc, suffix_append_cons_iff (by decide)]
  decide

/-- The end that a service name may have does not hide that it ends like a side effect. -/
theorem mark_suffix_dropSuffix_iff (service : String) :
    sideEffectMark.toList <:+ (Text.dropSuffix serviceEnd service).toList ↔
      namesSideEffect service = true := by
  rw [namesSideEffect_iff]
  unfold Text.dropSuffix
  cases hstem : Text.beforeSuffix? serviceEnd service with
  | none =>
    have hnot : ¬sideEffectMark.toList ++ serviceEnd.toList <:+ service.toList := by
      rintro ⟨cs, hcs⟩
      have hsome : Text.beforeSuffix? serviceEnd service =
          some (String.ofList (cs ++ sideEffectMark.toList)) := by
        rw [Text.beforeSuffix?_eq_some_iff, ← String.toList_inj, String.toList_append,
          String.toList_ofList, List.append_assoc, hcs]
      rw [hstem] at hsome
      cases hsome
    simp only [Option.getD_none, hnot, or_false]
  | some stem =>
    rw [Text.beforeSuffix?_eq_some_iff.mp hstem, Option.getD_some, String.toList_append,
      List.suffix_append_self_iff]
    simp only [not_mark_suffix_serviceEnd, false_or]

theorem mark_suffix_clientStem_iff (service : String) :
    sideEffectMark.toList <:+ (clientStem service).toList ↔ namesSideEffect service = true := by
  rw [← mark_suffix_dropSuffix_iff]
  unfold clientStem Text.dropSuffix
  cases hstem : Text.beforeSuffix? serviceEnd service with
  | none => rfl
  | some stem =>
    by_cases hempty : stem.isEmpty
    · -- The name is nothing but the end, and so no mark is in it.
      have hservice := Text.beforeSuffix?_eq_some_iff.mp hstem
      obtain rfl : stem = "" := by simpa using hempty
      subst hservice
      decide
    · simp [hempty]

/-- A client adapter is taken for a side effect exactly if its service has such a name. -/
theorem isSideEffect_client_iff (space service : String) (transport : Transport) :
    isSideEffect (client space service transport) = true ↔ namesSideEffect service = true := by
  have hstem : sideEffectMark.toList <:+
      (if space = "" then [] else space.toList ++ ['.']) ++ (clientStem service).toList ↔
        sideEffectMark.toList <:+ (clientStem service).toList := by
    split
    · rfl
    · rw [List.append_assoc, List.singleton_append, suffix_append_cons_iff (by decide)]
  have hlength (other : Transport) : other.adapterSuffix.toList.length =
      transport.adapterSuffix.toList.length := by
    cases other <;> cases transport <;> decide
  have hend (other : Transport) :
      (sideEffectEnd other).toList <:+ (client space service transport).toList ↔
        namesSideEffect service = true ∧
          other.adapterSuffix.toList = transport.adapterSuffix.toList := by
    rw [client, Name.toList_qualify, sideEffectEnd, String.toList_append, String.toList_append,
      ← List.append_assoc, List.suffix_append_inj_of_length_eq (hlength other), hstem,
      mark_suffix_clientStem_iff]
  rw [isSideEffect_iff]
  simp only [hend]
  constructor
  · rintro ⟨other, hservice, -⟩
    exact hservice
  · intro hservice
    exact ⟨transport, hservice, rfl⟩

/-- A service that goes by the name of its step ends like a side effect if the step does. -/
theorem namesSideEffect_serviceOfStep (step : String) :
    namesSideEffect (serviceOfStep step) = namesSideEffect (Text.pascal step) := by
  have hmark : serviceMark.toList = ['P', 'r', 'o', 'c', 'e', 's'] ++ ['s'] := by decide
  have hbehind {part : List Char} (h : 's' ∉ part) (cs : List Char) :
      part <:+ serviceMark.toList ++ cs ↔ part <:+ cs := by
    rw [hmark, List.append_assoc, List.singleton_append, suffix_append_cons_iff h]
  have hprefix (s : String) :
      namesSideEffect (Text.dropPrefix serviceMark s) = namesSideEffect s := by
    unfold Text.dropPrefix
    cases hrest : Text.afterPrefix? serviceMark s with
    | none => rfl
    | some rest =>
      rw [Bool.eq_iff_iff, Text.afterPrefix?_eq_some_iff.mp hrest, namesSideEffect_iff,
        namesSideEffect_iff, String.toList_append, hbehind (by decide), hbehind (by decide)]
      rfl
  rw [← hprefix (Text.pascal step), Bool.eq_iff_iff,
    ← mark_suffix_dropSuffix_iff (Text.dropPrefix _ _), namesSideEffect_iff]
  unfold serviceOfStep
  rw [String.toList_append, String.toList_append, List.suffix_append_self_iff,
    hbehind (by decide)]
  simp only [not_mark_suffix_serviceEnd, false_or]

end Naming

end PipelinePlan
