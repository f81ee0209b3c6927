import PipelinePlan.Proofs.Json.Atoms

namespace PipelinePlan.Json

/-- What holds of a list as soon as it holds of its items, and of a record as soon as it holds of the
values in it, holds of every value. -/
@[elab_as_elim]
theorem induction {motive : Json → Prop} (null : motive .null)
    (bool : ∀ value, motive (.bool value))
    (number : ∀ mantissa exponent, motive (.number mantissa exponent))
    (text : ∀ value, motive (.text value))
    (list : ∀ items, (∀ item ∈ items, motive item) → motive (.list items))
    (record : ∀ members, (∀ member ∈ members, motive member.2) → motive (.record members)) :
    ∀ value, motive value
  | .null => null
  | .bool value => bool value
  | .number mantissa exponent => number mantissa exponent
  | .text value => text value
  | .list items =>
    list items fun item _ => induction null bool number text list record item
  | .record members =>
    record members fun member _ => induction null bool number text list record member.2
termination_by value => sizeOf value
decreasing_by
  · have := List.sizeOf_lt_of_mem ‹item ∈ items›
    simp only [Json.list.sizeOf_spec]
    omega
  · have := List.sizeOf_lt_of_mem ‹member ∈ members›
    obtain ⟨name, value⟩ := member
    simp only [Json.record.sizeOf_spec, Prod.mk.sizeOf_spec] at *
    omega

theorem skipSpace_newline (level : Nat) (cs : List Char) :
    skipSpace (newline level ++ cs) = skipSpace cs := by
  apply List.dropWhile_append_of_pos
  intro c hc
  rcases List.mem_cons.mp hc with rfl | hc
  · rfl
  · rw [List.eq_of_mem_replicate hc]
    rfl

theorem skipSpace_cons {c : Char} (h : isSpace c = false) (cs : List Char) :
    skipSpace (c :: cs) = c :: cs := by
  simp [skipSpace, h]

theorem skipSpace_skipSpace (cs : List Char) : skipSpace (skipSpace cs) = skipSpace cs :=
  List.dropWhile_idempotent isSpace cs

theorem readValue_congr {fuel : Nat} {cs cs' : List Char} (h : skipSpace cs = skipSpace cs') :
    readValue fuel cs = readValue fuel cs' := by
  cases fuel with
  | zero => rfl
  | succ fuel => simp only [readValue, h]

theorem readItems_congr {fuel : Nat} {cs cs' : List Char} (h : skipSpace cs = skipSpace cs') :
    readItems fuel cs = readItems fuel cs' := by
  cases fuel with
  | zero => rfl
  | succ fuel => simp only [readItems, readValue_congr h]

theorem readMembers_congr {fuel : Nat} {cs cs' : List Char} (h : skipSpace cs = skipSpace cs') :
    readMembers fuel cs = readMembers fuel cs' := by
  cases fuel with
  | zero => rfl
  | succ fuel => simp only [readMembers, h]

theorem stops_comma (cs : List Char) : Stops (',' :: cs) := by
  intro c hc
  cases hc
  decide

theorem stops_newline (level : Nat) (cs : List Char) : Stops (newline level ++ cs) := by
  intro c hc
  cases hc
  decide

theorem writeInt_cons (n : Int) :
    ∃ c cs, writeInt n = c :: cs ∧ (c = '-' ∨ c.isDigit = true) := by
  rw [writeInt_eq]
  by_cases hneg : n < 0
  · exact ⟨'-', Nat.toDigits 10 n.natAbs, by simp [hneg], .inl rfl⟩
  · obtain ⟨c, cs, hcs, hdigit⟩ := exists_toDigits_eq_cons n.natAbs
    exact ⟨c, cs, by simp [hneg, hcs], .inr hdigit⟩

theorem writeNumber_cons (mantissa exponent : Int) :
    ∃ c cs, writeNumber mantissa exponent = c :: cs ∧ (c = '-' ∨ c.isDigit = true) := by
  obtain ⟨c, cs, hcs, hc⟩ := writeInt_cons mantissa
  unfold writeNumber
  split
  · exact ⟨c, cs, hcs, hc⟩
  · exact ⟨c, cs ++ 'e' :: writeInt exponent, by rw [hcs, List.cons_append], hc⟩

theorem isSpace_of_isDigit {c : Char} (h : c.isDigit = true) : isSpace c = false := by
  cases hspace : isSpace c with
  | false => rfl
  | true =>
    simp only [isSpace, Bool.or_eq_true, beq_iff_eq] at hspace
    rcases hspace with ((rfl | rfl) | rfl) | rfl <;> simp at h

/-- A written value starts with a character that is no blank and closes no list. -/
theorem write_cons (level : Nat) (value : Json) :
    ∃ c cs, write level value = c :: cs ∧ isSpace c = false ∧ c ≠ ']' := by
  cases value with
  | null => exact ⟨'n', _, rfl, rfl, by decide⟩
  | bool value =>
    cases value
    · exact ⟨'f', _, rfl, rfl, by decide⟩
    · exact ⟨'t', _, rfl, rfl, by decide⟩
  | number mantissa exponent =>
    obtain ⟨c, cs, hcs, hc⟩ := writeNumber_cons mantissa exponent
    refine ⟨c, cs, by rw [write, hcs], ?_⟩
    rcases hc with rfl | hdigit
    · decide
    · refine ⟨isSpace_of_isDigit hdigit, ?_⟩
      rintro rfl
      simp at hdigit
  | text value => exact ⟨'"', _, by rw [write, quote], rfl, by decide⟩
  | list items =>
    cases items with
    | nil => exact ⟨'[', _, by rw [write], rfl, by decide⟩
    | cons item items => exact ⟨'[', _, by rw [write], rfl, by decide⟩
  | record members =>
    cases members with
    | nil => exact ⟨'{', _, by rw [write], rfl, by decide⟩
    | cons member members => exact ⟨'{', _, by rw [write], rfl, by decide⟩

/-- A value that is read back wherever it was written. The length of the written value is fuel
enough, since each list, each record and each further item is opened by a character of its own. -/
def ReadsBack (value : Json) : Prop :=
  ∀ level fuel rest, Stops rest → (write level value).length ≤ fuel →
    readValue fuel (write level value ++ rest) = some (value, rest)

/-- If each item reads back, the items of a written list are read up to its bracket. -/
theorem readItems_write {item : Json} {items : List Json} (hitem : ReadsBack item)
    (hitems : ∀ item ∈ items, ReadsBack item) (level outer : Nat) {fuel : Nat}
    (hfuel : (write level item).length + (writeItems level items).length < fuel)
    (rest : List Char) :
    readItems fuel (write level item ++ (writeItems level items ++
      (newline outer ++ ']' :: rest))) = some (item :: items, rest) := by
  obtain ⟨fuel, rfl⟩ := Nat.exists_eq_succ_of_ne_zero (Nat.ne_zero_of_lt hfuel)
  induction items generalizing item fuel with
  | nil =>
    have hread := hitem level fuel (newline outer ++ ']' :: rest) (stops_newline _ _) (by omega)
    simp only [writeItems, List.nil_append, readItems, hread, Option.bind_eq_bind,
      Option.bind_some, skipSpace_newline]
    rfl
  | cons next items ih =>
    -- The comma in front of the next item pays for the reader that is opened for it.
    simp only [writeItems, List.length_cons, List.length_append] at hfuel
    obtain ⟨fuel, rfl⟩ : ∃ n, fuel = n + 1 := ⟨fuel - 1, by omega⟩
    have hmore := ih (hitems next (by simp)) (fun item h => hitems item (by simp [h])) fuel
      (by omega)
    have hread := hitem level (fuel + 1) (',' :: (newline level ++ (write level next ++
      (writeItems level items ++ (newline outer ++ ']' :: rest))))) (stops_comma _) (by omega)
    rw [writeItems, List.cons_append, List.append_assoc, List.append_assoc, readItems, hread]
    simp only [Option.bind_eq_bind, Option.bind_some, skipSpace_cons (c := ',') rfl,
      readItems_congr (skipSpace_newline _ _), hmore]

def readMoreMembers (fuel : Nat) (member : String × Json) (cs : List Char) :
    Option (List (String × Json) × List Char) :=
  match skipSpace cs with
  | '}' :: rest => some ([member], rest)
  | ',' :: rest => do
    let (members, rest) ← readMembers fuel rest
    some (member :: members, rest)
  | _ => none

theorem readMembers_writeMember {member : String × Json} (h : ReadsBack member.2) (level : Nat)
    {fuel : Nat} (hfuel : (writeMember level member).length ≤ fuel) {rest : List Char}
    (hrest : Stops rest) :
    readMembers (fuel + 1) (writeMember level member ++ rest) =
      readMoreMembers fuel member rest := by
  obtain ⟨name, value⟩ := member
  simp only [writeMember, List.length_append, List.length_cons] at hfuel
  have hblank : skipSpace (' ' :: (write level value ++ rest)) =
      skipSpace (write level value ++ rest) := rfl
  have hread := h level fuel rest hrest (by simp only; omega)
  simp only [writeMember, quote, List.cons_append, List.append_assoc, List.nil_append, readMembers,
    skipSpace_cons (c := '"') rfl, readText_quote, Option.bind_eq_bind, Option.bind_some,
    skipSpace_cons (c := ':') rfl, readValue_congr hblank, hread]
  rfl

/-- If each value reads back, the members of a written record are read up to its brace. -/
theorem readMembers_write {member : String × Json} {members : List (String × Json)}
    (hmember : ReadsBack member.2) (hmembers : ∀ member ∈ members, ReadsBack member.2)
    (level outer : Nat) {fuel : Nat}
    (hfuel : (writeMember level member).length + (writeMembers level members).length < fuel)
    (rest : List Char) :
    readMembers fuel (writeMember level member ++ (writeMembers level members ++
      (newline outer ++ '}' :: rest))) = some (member :: members, rest) := by
  obtain ⟨fuel, rfl⟩ := Nat.exists_eq_succ_of_ne_zero (Nat.ne_zero_of_lt hfuel)
  induction members generalizing member fuel with
  | nil =>
    rw [writeMembers, List.nil_append,
      readMembers_writeMember hmember level (by omega) (stops_newline _ _), readMoreMembers,
      skipSpace_newline]
    rfl
  | cons next members ih =>
    simp only [writeMembers, List.length_cons, List.length_append] at hfuel
    obtain ⟨fuel, rfl⟩ : ∃ n, fuel = n + 1 := ⟨fuel - 1, by omega⟩
    have hmore := ih (hmembers next (by simp)) (fun member h => hmembers member (by simp [h])) fuel
      (by omega)
    rw [writeMembers, List.cons_append, List.append_assoc, List.append_assoc,
      readMembers_writeMember hmember level (by omega) (stops_comma _), readMoreMembers]
    simp only [skipSpace_cons (c := ',') rfl, readMembers_congr (skipSpace_newline _ _), hmore,
      Option.bind_eq_bind, Option.bind_some]

theorem readValue_number {c : Char} (h : c = '-' ∨ c.isDigit = true) (fuel : Nat)
    (cs : List Char) : readValue (fuel + 1) (c :: cs) = readNumber (c :: cs) := by
  have hspace : isSpace c = false := by
    rcases h with rfl | hdigit
    · rfl
    · exact isSpace_of_isDigit hdigit
  rw [readValue, skipSpace_cons hspace]
  -- No other value starts with a sign or a digit.
  split <;> simp_all

theorem readValue_items {fuel : Nat} {cs : List Char} (h : (skipSpace cs).head? ≠ some ']') :
    readValue (fuel + 1) ('[' :: cs) =
      (readItems fuel cs).map fun (items, rest) => (.list items, rest) := by
  simp only [readValue, skipSpace_cons (c := '[') rfl]
  split
  · next heq => simp [heq] at h
  · rw [readItems_congr (skipSpace_skipSpace cs)]

theorem readValue_members {fuel : Nat} {cs : List Char} (h : (skipSpace cs).head? ≠ some '}') :
    readValue (fuel + 1) ('{' :: cs) =
      (readMembers fuel cs).map fun (members, rest) => (.record members, rest) := by
  simp only [readValue, skipSpace_cons (c := '{') rfl]
  split
  · next heq => simp [heq] at h
  · rw [readMembers_congr (skipSpace_skipSpace cs)]

theorem length_write_pos (level : Nat) (value : Json) : 0 < (write level value).length := by
  obtain ⟨c, cs, hcs, -⟩ := write_cons level value
  simp [hcs]

theorem readsBack_of_succ {value : Json}
    (h : ∀ level fuel rest, Stops rest → (write level value).length ≤ fuel + 1 →
      readValue (fuel + 1) (write level value ++ rest) = some (value, rest)) :
    ReadsBack value := by
  intro level fuel rest hrest hfuel
  have hpos := length_write_pos level value
  obtain ⟨fuel, rfl⟩ := Nat.exists_eq_succ_of_ne_zero (show fuel ≠ 0 by omega)
  exact h level fuel rest hrest hfuel

theorem readsBack_number (mantissa exponent : Int) : ReadsBack (.number mantissa exponent) := by
  refine readsBack_of_succ fun level fuel rest hrest _ => ?_
  obtain ⟨c, cs, hcs, hc⟩ := writeNumber_cons mantissa exponent
  calc readValue (fuel + 1) (write level (.number mantissa exponent) ++ rest)
    _ = readNumber (writeNumber mantissa exponent ++ rest) := by
      rw [write, hcs, List.cons_append, readValue_number hc]
    _ = some (.number mantissa exponent, rest) := readNumber_writeNumber mantissa exponent hrest

theorem readsBack_text (value : String) : ReadsBack (.text value) := by
  refine readsBack_of_succ fun level fuel rest _ _ => ?_
  rw [write, quote, List.cons_append, List.append_assoc, List.singleton_append]
  simp only [readValue, skipSpace_cons (c := '"') rfl, readText_quote, Option.map_some]

theorem readsBack_list {items : List Json} (h : ∀ item ∈ items, ReadsBack item) :
    ReadsBack (.list items) := by
  refine readsBack_of_succ fun level fuel rest _ hfuel => ?_
  cases items with
  | nil => rfl
  | cons item items =>
    obtain ⟨hitem, hitems⟩ := List.forall_mem_cons.mp h
    obtain ⟨c, cs, hcs, hspace, hc⟩ := write_cons (level + 1) item
    simp only [write, List.length_cons, List.length_append] at hfuel
    have hread := readItems_write hitem hitems (level + 1) level (show _ < fuel by omega) rest
    simp only [write, List.cons_append, List.append_assoc, List.nil_append]
    rw [readValue_items, readItems_congr (skipSpace_newline _ _), hread, Option.map_some]
    rw [skipSpace_newline, hcs, List.cons_append, skipSpace_cons hspace]
    simpa using hc

theorem readsBack_record {members : List (String × Json)}
    (h : ∀ member ∈ members, ReadsBack member.2) : ReadsBack (.record members) := by
  refine readsBack_of_succ fun level fuel rest _ hfuel => ?_
  cases members with
  | nil => rfl
  | cons member members =>
    obtain ⟨hmember, hmembers⟩ := List.forall_mem_cons.mp h
    simp only [write, List.length_cons, List.length_append] at hfuel
    have hread := readMembers_write hmember hmembers (level + 1) level (show _ < fuel by omega) rest
    simp only [write, List.cons_append, List.append_assoc, List.nil_append]
    rw [readValue_members, readMembers_congr (skipSpace_newline _ _), hread, Option.map_some]
    rw [skipSpace_newline, writeMember, quote, List.cons_append, List.cons_append,
      skipSpace_cons (c := '"') rfl]
    simp

theorem readsBack (value : Json) : ReadsBack value := by
  induction value using Json.induction with
  | null => exact readsBack_of_succ fun _ _ _ _ _ => rfl
  | bool value => cases value <;> exact readsBack_of_succ fun _ _ _ _ _ => rfl
  | number mantissa exponent => exact readsBack_number mantissa exponent
  | text value => exact readsBack_text value
  | list items ih => exact readsBack_list ih
  | record members ih => exact readsBack_record ih

/-- The written form of a value is read as that value. -/
theorem parse?_pretty (value : Json) : parse? (pretty value) = some value := by
  have hread := readsBack value 0 (2 * (write 0 value).length + 2) [] (by simp [Stops]) (by omega)
  rw [List.append_nil] at hread
  simp only [parse?, pretty, String.toList_ofList, hread, Option.bind_eq_bind, Option.bind_some]
  rfl

end PipelinePlan.Json
