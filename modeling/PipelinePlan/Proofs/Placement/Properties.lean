import PipelinePlan.Placement.Overrides
import PipelinePlan.Proofs.Except
import PipelinePlan.Proofs.Naming

namespace PipelinePlan.Overrides

structure IsWord (digits : List Char) : Prop where
  nonempty : digits ≠ []
  digit : ∀ c ∈ digits, c.isDigit = true
  small : Nat.ofDigits 10 (digits.reverse.map (·.toNat - 48)) < 2 ^ 16

/-- A port is spelled in digits, after a plus sign perhaps. -/
def IsPort (value : List Char) : Prop :=
  IsWord value ∨ ∃ digits, value = '+' :: digits ∧ IsWord digits

def moduleKey (name property : String) : String := "pipeline.module." ++ name ++ "." ++ property

def moduleProperties : List String := ["host", "port", "steps", "aspects"]

/-- The keys of the program with the values that they take. -/
inductive Admitted : String → List Char → Prop
  | basePort {value : List Char} (hvalue : IsPort value) :
      Admitted "pipeline.client.base-port" value
  | tlsName (value : List Char) : Admitted "pipeline.client.tls-configuration-name" value
  | module {name property : String} {value : List Char} (hname : name ≠ "")
      (hproperty : property ∈ moduleProperties) (hvalue : property = "port" → IsPort value) :
      Admitted (moduleKey name property) value

inductive Misuse (key : String) (value : List Char) : String → Prop
  | port (hkey : key = "pipeline.client.base-port" ∨
        ∃ name, name ≠ "" ∧ key = moduleKey name "port") (hvalue : ¬IsPort value) :
      Misuse key value s!"'{String.ofList value}' is not a valid port"
  | property {name property : String} (hkey : key = moduleKey name property) (hname : name ≠ "")
      (hundotted : Name.Undotted property) (hproperty : property ∉ moduleProperties) :
      Misuse key value s!"unknown module property '{property}'"
  | key (hmark : "pipeline.".toList <+: key.toList) (hbase : key ≠ "pipeline.client.base-port")
      (htls : key ≠ "pipeline.client.tls-configuration-name")
      (hmodule : ∀ name property, name ≠ "" → key ≠ moduleKey name property) :
      Misuse key value "unknown property"

section Ports

theorem decimalValue_eq_ofDigits (digits : List Char) :
    Text.decimalValue digits = Nat.ofDigits 10 (digits.reverse.map (·.toNat - 48)) := by
  induction digits using List.reverseRecOn with
  | nil => rfl
  | append_singleton digits c ih =>
    have hstep : Text.decimalValue (digits ++ [c]) =
        Text.decimalValue digits * 10 + (c.toNat - 48) := by
      simp [Text.decimalValue]
    rw [hstep, ih, List.reverse_concat, List.map_cons, Nat.ofDigits_cons]
    omega

/-- Digits that pass the checks of a port. -/
theorem isWord_iff {digits : List Char} :
    IsWord digits ↔ (digits.isEmpty || !digits.all Char.isDigit) = false ∧
      Text.decimalValue digits < 65536 := by
  rw [decimalValue_eq_ofDigits, Bool.or_eq_false_iff, Bool.not_eq_false', List.all_eq_true]
  constructor
  · intro h
    exact ⟨⟨by simpa using h.nonempty, h.digit⟩, h.small⟩
  · rintro ⟨⟨hne, hdigit⟩, hsmall⟩
    exact ⟨by simpa using hne, hdigit, hsmall⟩

theorem not_isWord_plus (digits : List Char) : ¬IsWord ('+' :: digits) := by
  intro h
  exact absurd (h.digit '+' List.mem_cons_self) (by decide)

theorem isPort_plus_iff {digits : List Char} : IsPort ('+' :: digits) ↔ IsWord digits := by
  constructor
  · rintro (h | ⟨digits', heq, h⟩)
    · exact absurd h (not_isWord_plus digits)
    · exact (List.cons.inj heq).2 ▸ h
  · intro h
    exact .inr ⟨digits, rfl, h⟩

theorem isPort_iff_isWord {value : List Char} (h : ∀ digits, value ≠ '+' :: digits) :
    IsPort value ↔ IsWord value := by
  constructor
  · rintro (hword | ⟨digits, heq, -⟩)
    · exact hword
    · exact absurd heq (h digits)
  · exact .inl

theorem port?_eq_none_iff {value : List Char} : port? value = none ↔ ¬IsPort value := by
  have hchecks (digits : List Char) :
      (if digits.isEmpty || !digits.all Char.isDigit then none
        else if Text.decimalValue digits < 65536 then
          some (UInt16.ofNat (Text.decimalValue digits)) else none) = none ↔ ¬IsWord digits := by
    rw [isWord_iff]
    split
    · next hbad => simp [hbad]
    · next hgood =>
      rw [Bool.not_eq_true] at hgood
      simp only [hgood, true_and]
      split <;> simp_all
  unfold port?
  dsimp only
  split
  · rw [isPort_plus_iff]
    exact hchecks _
  · next hplain =>
    rw [isPort_iff_isWord hplain]
    exact hchecks _

theorem readPort_eq_error_iff {key : String} {value : List Char} {e : Error} :
    readPort key value = .error e ↔ ¬IsPort value ∧
      e = .invalidModuleConfig key s!"'{String.ofList value}' is not a valid port" := by
  rw [← port?_eq_none_iff, readPort]
  cases port? value <;> simp [eq_comm]

end Ports

section Keys

theorem moduleKey_eq (name property : String) :
    moduleKey name property = moduleMark ++ (name ++ "." ++ property) := by
  have hassoc (mark : String) : mark ++ name ++ "." ++ property =
      mark ++ (name ++ "." ++ property) := by
    simp only [String.append_assoc]
  exact hassoc "pipeline.module."

theorem toList_dotted (name property : String) :
    (name ++ "." ++ property).toList = name.toList ++ '.' :: property.toList := by
  simp

/-- The key of a module is divided at its last dot. -/
theorem moduleKey?_eq_some_iff {key name property : String} :
    moduleKey? key = some (name, property) ↔
      key = moduleKey name property ∧ name ≠ "" ∧ Name.Undotted property := by
  have hempty : name.toList.isEmpty = true ↔ name = "" := by simp
  constructor
  · intro h
    obtain ⟨rest, hrest, h⟩ := Option.bind_eq_some_iff.mp h
    obtain ⟨⟨front, back⟩, hsplit, h⟩ := Option.bind_eq_some_iff.mp h
    obtain ⟨c, hc, hback, hparts⟩ := Text.splitLast?_eq_some hsplit
    obtain ⟨hne, heq⟩ := Option.ite_none_left_eq_some.mp h
    obtain ⟨rfl, rfl⟩ := Prod.mk.inj (Option.some.inj heq)
    refine ⟨?_, ?_, ?_⟩
    · have hdotted : rest = String.ofList front ++ "." ++ String.ofList back := by
        rw [← String.toList_inj, toList_dotted, hparts, beq_iff_eq.mp hc, String.toList_ofList,
          String.toList_ofList]
      rw [moduleKey_eq, ← hdotted, Text.afterPrefix?_eq_some_iff.mp hrest]
    · rw [ne_eq, ← hempty, String.toList_ofList]
      exact hne
    · intro a ha
      exact hback a (by simpa using ha)
  · rintro ⟨rfl, hname, hproperty⟩
    have hrest : Text.afterPrefix? moduleMark (moduleKey name property) =
        some (name ++ "." ++ property) :=
      Text.afterPrefix?_eq_some_iff.mpr (moduleKey_eq name property)
    have hsplit : Text.splitLast? (· == '.') (name ++ "." ++ property).toList =
        some (name.toList, property.toList) := by
      rw [toList_dotted]
      exact Text.splitLast?_append_cons _ (by simp) hproperty
    simp only [moduleKey?, hrest, Option.bind_eq_bind, Option.bind_some, hsplit,
      if_neg (mt hempty.mp hname), String.ofList_toList]

/-- A name and a dot after the mark of modules make a key of some property. -/
theorem exists_moduleKey?_eq_some {name : String} (hname : name ≠ "") (property : String) :
    ∃ parts, moduleKey? (moduleKey name property) = some parts := by
  have hdot : '.' ∈ (name ++ "." ++ property).toList := by simp
  cases hsplit : Text.splitLast? (· == '.') (name ++ "." ++ property).toList with
  | none => exact absurd (Text.splitLast?_eq_none_iff.mp hsplit '.' hdot) (by simp)
  | some parts =>
    obtain ⟨front, back⟩ := parts
    obtain ⟨c, hc, hback, hparts⟩ := Text.splitLast?_eq_some hsplit
    have hkey : name ++ "." ++ property = String.ofList front ++ "." ++ String.ofList back := by
      rw [← String.toList_inj, hparts, beq_iff_eq.mp hc, toList_dotted, String.toList_ofList,
        String.toList_ofList]
    have hfront : front ≠ [] := by
      rintro rfl
      -- The dot behind the name would come after the last dot.
      rw [toList_dotted] at hparts
      obtain ⟨a, as, hname'⟩ := List.exists_cons_of_ne_nil (mt String.toList_eq_nil_iff.mp hname)
      rw [hname'] at hparts
      obtain ⟨-, rfl⟩ := List.cons.inj hparts
      exact absurd (hback '.' (by simp)) (by simp)
    refine ⟨(String.ofList front, String.ofList back), ?_⟩
    rw [moduleKey_eq, hkey, ← moduleKey_eq]
    refine moduleKey?_eq_some_iff.mpr ⟨rfl, ?_, ?_⟩
    · simpa using hfront
    · intro a ha
      exact hback a (by simpa using ha)

theorem moduleKey?_eq_none_iff {key : String} :
    moduleKey? key = none ↔ ∀ name property, name ≠ "" → key ≠ moduleKey name property := by
  constructor
  · rintro hnone name property hname rfl
    obtain ⟨parts, hparts⟩ := exists_moduleKey?_eq_some hname property
    rw [hnone] at hparts
    cases hparts
  · intro h
    cases hkey : moduleKey? key with
    | none => rfl
    | some parts =>
      obtain ⟨heq, hname, -⟩ := moduleKey?_eq_some_iff.mp hkey
      exact absurd heq (h _ _ hname)

theorem moduleKey_inj {name name' property property' : String} (hname : name ≠ "")
    (hname' : name' ≠ "") (hproperty : Name.Undotted property)
    (hproperty' : Name.Undotted property')
    (h : moduleKey name property = moduleKey name' property') :
    name = name' ∧ property = property' := by
  have hparts := moduleKey?_eq_some_iff.mpr ⟨rfl, hname, hproperty⟩
  rw [h, moduleKey?_eq_some_iff.mpr ⟨rfl, hname', hproperty'⟩] at hparts
  obtain ⟨rfl, rfl⟩ := Prod.mk.inj (Option.some.inj hparts)
  exact ⟨rfl, rfl⟩

theorem undotted_of_mem_moduleProperties :
    ∀ property ∈ moduleProperties, Name.Undotted property := by
  simp [moduleProperties, Name.Undotted, Name.isDot]

theorem mark_prefix_moduleKey (name property : String) :
    moduleMark.toList <+: (moduleKey name property).toList := by
  rw [moduleKey_eq, String.toList_append]
  exact List.prefix_append _ _

theorem keyMark_prefix_moduleMark : keyMark.toList <+: moduleMark.toList := by
  rw [← List.isPrefixOf_iff_prefix]
  decide

theorem ne_moduleKey {key : String} (h : Text.startsWith moduleMark key = false)
    (name property : String) : key ≠ moduleKey name property := by
  rintro rfl
  rw [Text.startsWith_iff.mpr (mark_prefix_moduleKey name property)] at h
  cases h

theorem basePortKey_ne_moduleKey (name property : String) :
    basePortKey ≠ moduleKey name property :=
  ne_moduleKey (by decide) name property

theorem tlsKey_ne_moduleKey (name property : String) : tlsKey ≠ moduleKey name property :=
  ne_moduleKey (by decide) name property

end Keys

section Properties

variable {key : String} {value : List Char} {reason : String} {e : Error}

theorem readSetting_eq_error_iff {property : String} :
    readSetting key property value = .error e ↔
      (property = "port" ∧ readPort key value = .error e) ∨
      (property ∉ moduleProperties ∧
        e = .invalidModuleConfig key s!"unknown module property '{property}'") := by
  unfold readSetting
  split
  · simp [moduleProperties]
  · cases readPort key value <;> simp [moduleProperties, Except.map]
  · simp [moduleProperties]
  · simp [moduleProperties]
  · next hhost hport hsteps haspects =>
    have hother : property ∉ moduleProperties := by
      simpa [moduleProperties] using ⟨hhost, hport, hsteps, haspects⟩
    constructor
    · intro h
      exact .inr ⟨hother, (Except.error.inj h).symm⟩
    · rintro (⟨hport', -⟩ | ⟨-, rfl⟩)
      · exact absurd hport' hport
      · rfl

theorem Misuse.marked (h : Misuse key value reason) : keyMark.toList <+: key.toList := by
  have hmodule (name property : String) : keyMark.toList <+: (moduleKey name property).toList :=
    keyMark_prefix_moduleMark.trans (mark_prefix_moduleKey name property)
  cases h with
  | port hkey hvalue =>
    rcases hkey with rfl | ⟨name, -, rfl⟩
    · exact List.isPrefixOf_iff_prefix.mp (by decide)
    · exact hmodule name "port"
  | property hkey => exact hkey ▸ hmodule _ _
  | key hmark => exact hmark

theorem misuse_basePortKey_iff :
    Misuse basePortKey value reason ↔
      ¬IsPort value ∧ reason = s!"'{String.ofList value}' is not a valid port" := by
  constructor
  · intro h
    cases h with
    | port hkey hvalue => exact ⟨hvalue, rfl⟩
    | property hkey => exact absurd hkey (basePortKey_ne_moduleKey _ _)
    | key hmark hbase => exact absurd rfl hbase
  · rintro ⟨hvalue, rfl⟩
    exact .port (.inl rfl) hvalue

theorem not_misuse_tlsKey : ¬Misuse tlsKey value reason := by
  intro h
  cases h with
  | port hkey hvalue =>
    rcases hkey with hkey | ⟨name, -, hkey⟩
    · exact absurd hkey (by decide)
    · exact absurd hkey (tlsKey_ne_moduleKey _ _)
  | property hkey => exact absurd hkey (tlsKey_ne_moduleKey _ _)
  | key hmark hbase htls => exact absurd rfl htls

theorem misuse_moduleKey_iff {name property : String} (hname : name ≠ "")
    (hundotted : Name.Undotted property) :
    Misuse (moduleKey name property) value reason ↔
      (property = "port" ∧ ¬IsPort value ∧
        reason = s!"'{String.ofList value}' is not a valid port") ∨
      (property ∉ moduleProperties ∧ reason = s!"unknown module property '{property}'") := by
  constructor
  · intro h
    cases h with
    | port hkey hvalue =>
      rcases hkey with hkey | ⟨name', hname', hkey⟩
      · exact absurd hkey.symm (basePortKey_ne_moduleKey _ _)
      · have hport := undotted_of_mem_moduleProperties "port" (by decide)
        obtain ⟨rfl, rfl⟩ := moduleKey_inj hname hname' hundotted hport hkey
        exact .inl ⟨rfl, hvalue, rfl⟩
    | property hkey hname' hundotted' hproperty =>
      obtain ⟨rfl, rfl⟩ := moduleKey_inj hname hname' hundotted hundotted' hkey
      exact .inr ⟨hproperty, rfl⟩
    | key hmark hbase htls hmodule => exact absurd rfl (hmodule name property hname)
  · rintro (⟨rfl, hvalue, rfl⟩ | ⟨hproperty, rfl⟩)
    · exact .port (.inr ⟨name, hname, rfl⟩) hvalue
    · exact .property rfl hname hundotted hproperty

theorem misuse_unknown_iff (hmark : keyMark.toList <+: key.toList) (hbase : key ≠ basePortKey)
    (htls : key ≠ tlsKey) (hmodule : ∀ name property, name ≠ "" → key ≠ moduleKey name property) :
    Misuse key value reason ↔ reason = "unknown property" := by
  constructor
  · intro h
    cases h with
    | port hkey hvalue =>
      rcases hkey with hkey | ⟨name, hname, hkey⟩
      · exact absurd hkey hbase
      · exact absurd hkey (hmodule _ _ hname)
    | property hkey hname => exact absurd hkey (hmodule _ _ hname)
    | key => rfl
  · rintro rfl
    exact .key hmark hbase htls hmodule

/-- The error of a property says what is wrong with it. -/
theorem readProperty_eq_error_iff :
    readProperty key value = .error e ↔
      ∃ reason, Misuse key value reason ∧ e = .invalidModuleConfig key reason := by
  unfold readProperty
  split
  · next hmark =>
    have hunmarked : ¬keyMark.toList <+: key.toList := by
      simpa [← Text.startsWith_iff] using hmark
    simp only [reduceCtorEq, false_iff]
    rintro ⟨reason, hmisuse, -⟩
    exact hunmarked hmisuse.marked
  next hmark =>
  split
  · next hbase =>
    obtain rfl := beq_iff_eq.mp hbase
    simp only [map_eq_error_iff, readPort_eq_error_iff, misuse_basePortKey_iff]
    constructor
    · rintro ⟨hvalue, rfl⟩
      exact ⟨_, ⟨hvalue, rfl⟩, rfl⟩
    · rintro ⟨_, ⟨hvalue, rfl⟩, rfl⟩
      exact ⟨hvalue, rfl⟩
  next hbase =>
  split
  · next htls =>
    obtain rfl := beq_iff_eq.mp htls
    simp only [reduceCtorEq, not_misuse_tlsKey, false_and, exists_false]
  next htls =>
  split
  · next hmodule =>
    have hmark' : keyMark.toList <+: key.toList := by
      simpa [← Text.startsWith_iff] using hmark
    simp only [misuse_unknown_iff hmark' (by simpa using hbase) (by simpa using htls)
      (moduleKey?_eq_none_iff.mp hmodule), exists_eq_left, Except.error.injEq, eq_comm]
  · next name property hmodule =>
    obtain ⟨rfl, hname, hundotted⟩ := moduleKey?_eq_some_iff.mp hmodule
    rw [map_eq_error_iff, readSetting_eq_error_iff, readPort_eq_error_iff]
    simp only [misuse_moduleKey_iff hname hundotted]
    constructor
    · rintro (⟨rfl, hvalue, rfl⟩ | ⟨hproperty, rfl⟩)
      · exact ⟨_, .inl ⟨rfl, hvalue, rfl⟩, rfl⟩
      · exact ⟨_, .inr ⟨hproperty, rfl⟩, rfl⟩
    · rintro ⟨reason, ⟨rfl, hvalue, rfl⟩ | ⟨hproperty, rfl⟩, rfl⟩
      · exact .inl ⟨rfl, hvalue, rfl⟩
      · exact .inr ⟨hproperty, rfl⟩

theorem admitted_moduleKey_iff {name property : String} (hname : name ≠ "")
    (hundotted : Name.Undotted property) :
    Admitted (moduleKey name property) value ↔
      property ∈ moduleProperties ∧ (property = "port" → IsPort value) := by
  constructor
  · intro h
    generalize hkey : moduleKey name property = key at h
    cases h with
    | basePort => exact absurd hkey.symm (basePortKey_ne_moduleKey _ _)
    | tlsName => exact absurd hkey.symm (tlsKey_ne_moduleKey _ _)
    | module hname' hproperty hvalue =>
      have hundotted' := undotted_of_mem_moduleProperties _ hproperty
      obtain ⟨rfl, rfl⟩ := moduleKey_inj hname hname' hundotted hundotted' hkey
      exact ⟨hproperty, hvalue⟩
  · rintro ⟨hproperty, hvalue⟩
    exact .module hname hproperty hvalue

/-- Something is wrong with a key of the program exactly if the grammar does not admit it with its
value. -/
theorem exists_misuse_iff :
    (∃ reason, Misuse key value reason) ↔ keyMark.toList <+: key.toList ∧ ¬Admitted key value := by
  constructor
  · rintro ⟨reason, h⟩
    refine ⟨h.marked, fun hadmitted => ?_⟩
    cases hadmitted with
    | basePort hvalue => exact (misuse_basePortKey_iff.mp h).1 hvalue
    | tlsName => exact not_misuse_tlsKey h
    | module hname hproperty hvalue =>
      have hundotted := undotted_of_mem_moduleProperties _ hproperty
      rcases (misuse_moduleKey_iff hname hundotted).mp h with ⟨hport, hnot, -⟩ | ⟨hnot, -⟩
      · exact hnot (hvalue hport)
      · exact hnot hproperty
  · rintro ⟨hmark, hnot⟩
    by_cases hbase : key = basePortKey
    · subst hbase
      exact ⟨_, misuse_basePortKey_iff.mpr ⟨fun hvalue => hnot (.basePort hvalue), rfl⟩⟩
    by_cases htls : key = tlsKey
    · subst htls
      exact absurd (.tlsName value) hnot
    cases hmodule : moduleKey? key with
    | none => exact ⟨_, .key hmark hbase htls (moduleKey?_eq_none_iff.mp hmodule)⟩
    | some parts =>
      obtain ⟨rfl, hname, hundotted⟩ := moduleKey?_eq_some_iff.mp hmodule
      simp only [misuse_moduleKey_iff hname hundotted]
      rw [admitted_moduleKey_iff hname hundotted, not_and_or, Classical.not_imp] at hnot
      rcases hnot with hproperty | ⟨hport, hvalue⟩
      · exact ⟨_, .inr ⟨hproperty, rfl⟩⟩
      · exact ⟨_, .inl ⟨hport, hvalue, rfl⟩⟩

end Properties

end PipelinePlan.Overrides
