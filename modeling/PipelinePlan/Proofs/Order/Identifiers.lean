import PipelinePlan.Proofs.Order.LineUp
import PipelinePlan.Proofs.Table

namespace PipelinePlan.Order

theorem firstEffects_nodup (effects : List SyntheticStep) :
    ((firstEffects effects).map SyntheticStep.key).Nodup := by
  induction effects using List.reverseRecOn with
  | nil => exact List.nodup_nil
  | append_singleton effects s ih =>
    rw [firstEffects_concat]
    split
    · exact ih
    · next hnew =>
      rw [List.map_append, List.map_singleton, List.nodup_append]
      refine ⟨ih, List.nodup_singleton _, ?_⟩
      intro key hkey other hother hsame
      obtain ⟨t, ht, rfl⟩ := List.mem_map.mp hkey
      rw [List.mem_singleton.mp hother] at hsame
      exact hnew (List.any_eq_true.mpr ⟨t, ht, by simp [hsame]⟩)

theorem identifiers_perm (slots : List Slot) :
    (slots.map Slot.identifier).Perm
      (slots.filterMap Slot.step? ++ (slots.filterMap Slot.effect?).map (·.identifier)) := by
  induction slots with
  | nil => exact .refl _
  | cons slot slots ih =>
    cases slot with
    | step identifier => exact ih.cons identifier
    | effect s => exact (ih.cons s.identifier).trans List.perm_middle.symm

namespace Expander

theorem order_perm (x : Expander) (base : List String) :
    (x.run base).value.order.Perm (base ++ (x.run base).value.synthetic.map (·.identifier)) := by
  by_cases h : x.Applies base
  · obtain ⟨state, hrec, hrun⟩ := records_run h
    have hperm := identifiers_perm (Slot.firsts (x.lineUp base))
    rw [steps_firsts, steps_lineUp, ← hrec.order, ← hrec.synthetic] at hperm
    rw [hrun]
    exact hperm
  · rw [run_of_not_applies h]
    simp

theorem order_length (x : Expander) (base : List String) :
    (x.run base).value.order.length =
      base.length + (x.run base).value.synthetic.length := by
  rw [(order_perm x base).length_eq, List.length_append, List.length_map]

theorem identifier_notMem_base {x : Expander} {base : List String} {s : SyntheticStep}
    (h : s ∈ (x.run base).value.synthetic) : s.identifier ∉ base := by
  have hmark := isSideEffect_of_mem_synthetic h
  by_cases happ : x.Applies base
  · intro hmem
    rw [happ.2.1 _ hmem] at hmark
    cases hmark
  · rw [run_of_not_applies happ] at h
    cases h

def spaceAt (x : Expander) (step : String) : String := (Name.space? step).getD x.baseSpace

/-- Different side effects that are spelled alike in one namespace. -/
def Clash (x : Expander) (s t : SyntheticStep) : Prop :=
  s.key ≠ t.key ∧ x.spaceAt s.parent = x.spaceAt t.parent ∧
    Naming.sideEffectStem s.aspect s.type = Naming.sideEffectStem t.aspect t.type

/-- No two of the side effects that the steps of a base order get clash. -/
def ClashFree (x : Expander) (base : List String) : Prop :=
  ∀ s ∈ firstEffects (x.allCandidates base), ∀ t ∈ firstEffects (x.allCandidates base),
    ¬x.Clash s t

theorem identifier_eq_iff {x : Expander} {base : List String} {s t : SyntheticStep}
    (hs : s ∈ (x.run base).value.synthetic) (ht : t ∈ (x.run base).value.synthetic) :
    s.identifier = t.identifier ↔ x.spaceAt s.parent = x.spaceAt t.parent ∧
      Naming.sideEffectStem s.aspect s.type = Naming.sideEffectStem t.aspect t.type := by
  obtain ⟨step, -, aspect, type, position, rfl⟩ := mem_synthetic hs
  obtain ⟨step', -, aspect', type', position', rfl⟩ := mem_synthetic ht
  simp only [sideEffect, spaceAt]
  exact Naming.sideEffect_eq_sideEffect_iff

theorem eq_of_key_eq {x : Expander} {base : List String} {s t : SyntheticStep}
    (hs : s ∈ (x.run base).value.synthetic) (ht : t ∈ (x.run base).value.synthetic)
    (h : s.key = t.key) : s = t := by
  by_cases happ : x.Applies base
  · rw [synthetic_of_applies happ] at hs ht
    exact List.inj_on_of_nodup_map (firstEffects_nodup _) hs ht h
  · rw [run_of_not_applies happ] at hs
    cases hs

/-- Each identifier belongs to one side effect. -/
def Distinct (x : Expander) (base : List String) : Prop :=
  ∀ s ∈ (x.run base).value.synthetic, ∀ t ∈ (x.run base).value.synthetic,
    s.identifier = t.identifier → s = t

theorem distinct_iff_clashFree (x : Expander) (base : List String) :
    x.Distinct base ↔ (x.Applies base → x.ClashFree base) := by
  constructor
  · intro h happ s hs t ht hclash
    rw [← synthetic_of_applies happ] at hs ht
    have hst := h s hs t ht ((identifier_eq_iff hs ht).mpr hclash.2)
    exact hclash.1 (congrArg SyntheticStep.key hst)
  · intro h s hs t ht hid
    apply eq_of_key_eq hs ht
    by_cases happ : x.Applies base
    · have halike := (identifier_eq_iff hs ht).mp hid
      rw [synthetic_of_applies happ] at hs ht
      by_contra hkey
      exact h happ s hs t ht ⟨hkey, halike⟩
    · rw [run_of_not_applies happ] at hs
      cases hs

theorem synthetic_nodup (x : Expander) (base : List String) :
    (x.run base).value.synthetic.Nodup := by
  by_cases happ : x.Applies base
  · rw [synthetic_of_applies happ]
    exact (firstEffects_nodup _).of_map
  · rw [run_of_not_applies happ]
    exact List.nodup_nil

theorem order_nodup_iff_distinct (x : Expander) (base : List String) :
    (x.run base).value.order.Nodup ↔ base.Nodup ∧ x.Distinct base := by
  rw [(order_perm x base).nodup_iff, List.nodup_append]
  constructor
  · rintro ⟨hbase, hids, -⟩
    exact ⟨hbase, fun s hs t ht hid => List.inj_on_of_nodup_map hids hs ht hid⟩
  · rintro ⟨hbase, hdistinct⟩
    refine ⟨hbase, ?_, ?_⟩
    · exact List.Nodup.map_on hdistinct (synthetic_nodup x base)
    · intro identifier hmem other hother hsame
      obtain ⟨s, hs, rfl⟩ := List.mem_map.mp hother
      exact identifier_notMem_base hs (hsame ▸ hmem)

theorem synthetic?_eq_some_iff_distinct (x : Expander) (base : List String) :
    (∀ s ∈ (x.run base).value.synthetic,
      (x.run base).value.synthetic? s.identifier = some s) ↔ x.Distinct base := by
  constructor
  · intro h s hs t ht hid
    have hfound := h s hs
    rw [hid, h t ht] at hfound
    exact (Option.some.inj hfound).symm
  · intro h s hs
    apply find?_of_unique hs (beq_self_eq_true s.identifier)
    intro t ht hid
    exact h t ht s hs (eq_of_beq hid)

theorem parents_find?_of_distinct {x : Expander} {base : List String} (h : x.Distinct base)
    {s : SyntheticStep} (hs : s ∈ (x.run base).value.synthetic) :
    (x.run base).value.parents.find? s.identifier = some s.parent := by
  -- The table keeps the last entry of a key, so the entries are searched from the end.
  have hfound : ((x.run base).value.synthetic.map fun t => (t.identifier, t.parent)).reverse.find?
      (·.1 == s.identifier) = some (s.identifier, s.parent) := by
    apply find?_of_unique
    · rw [List.mem_reverse]
      exact List.mem_map_of_mem hs
    · exact beq_self_eq_true s.identifier
    · intro entry hentry hid
      rw [List.mem_reverse] at hentry
      obtain ⟨t, ht, rfl⟩ := List.mem_map.mp hentry
      rw [h t ht s hs (eq_of_beq hid)]
  rw [Expansion.parents, Table.find?_ofList, hfound, Option.map_some]

/-- No side effect has the identifier of a step. The expanded order of a base order without repeats
repeats nothing exactly if no two side effects clash; then each identifier leads to the side effect
that it stands for and to the step beside it, and only then does each lead to its side effect. -/
theorem order_nodup_iff_clashFree (x : Expander) (base : List String) :
    (∀ s ∈ (x.run base).value.synthetic, s.identifier ∉ base) ∧
    ((x.run base).value.order.Nodup ↔ base.Nodup ∧ (x.Applies base → x.ClashFree base)) ∧
    ((∀ s ∈ (x.run base).value.synthetic,
        (x.run base).value.synthetic? s.identifier = some s) ↔
      (x.Applies base → x.ClashFree base)) ∧
    ((x.Applies base → x.ClashFree base) → ∀ s ∈ (x.run base).value.synthetic,
      (x.run base).value.parents.find? s.identifier = some s.parent) := by
  rw [← distinct_iff_clashFree]
  refine ⟨?_, order_nodup_iff_distinct x base, synthetic?_eq_some_iff_distinct x base, ?_⟩
  · intro s hs
    exact identifier_notMem_base hs
  · intro h s hs
    exact parents_find?_of_distinct h hs

def twoSpellings : Expander where
  aspects := .ofList [("persistence", {})]
  contracts := .ofList [
    ("acme.ProcessParseGrpcClientStep", { outputType := some "acme.order_line" }),
    ("acme.ProcessPriceGrpcClientStep", { outputType := some "acme.OrderLine" })]
  topology := []
  baseSpace := "acme"
  transport := .grpc

def parseThenPrice : List String :=
  ["acme.ProcessParseGrpcClientStep", "acme.ProcessPriceGrpcClientStep"]

/-- The two side effects share an identifier, which leads to the first of them and to the step
beside the second. -/
theorem twoSpellings_clash :
    parseThenPrice.Nodup ∧ ¬(twoSpellings.run parseThenPrice).value.order.Nodup ∧
    (∃ s ∈ (twoSpellings.run parseThenPrice).value.synthetic,
      (twoSpellings.run parseThenPrice).value.synthetic? s.identifier ≠ some s) ∧
    ∃ s ∈ (twoSpellings.run parseThenPrice).value.synthetic,
      (twoSpellings.run parseThenPrice).value.parents.find? s.identifier ≠ some s.parent := by
  decide +kernel

end Expander

end PipelinePlan.Order
