import PipelinePlan.Proofs.List
import PipelinePlan.Table

namespace PipelinePlan

namespace Table

variable {α : Type}

theorem find?_insertEntry (key other : String) (value : α) (entries : List (String × α)) :
    (insertEntry key value entries).find? (·.1 == other) =
      if key = other then some (key, value) else entries.find? (·.1 == other) := by
  induction entries with
  | nil => by_cases h : key = other <;> simp [insertEntry, h]
  | cons entry rest ih =>
    simp only [insertEntry]
    split
    · by_cases h : key = other <;> simp [h]
    · next hlt =>
      split
      · next hgt =>
        by_cases he : entry.1 = other
        · have hne : key ≠ other := by
            intro h
            rw [← h] at he
            rw [he] at hgt
            exact String.lt_irrefl key hgt
          simp [he, hne]
        · rw [List.find?_cons_of_neg (by simpa using he), ih,
            List.find?_cons_of_neg (by simpa using he)]
      · next hgt =>
        have hkey : key = entry.1 :=
          String.le_antisymm (String.not_lt.mp hgt) (String.not_lt.mp hlt)
        by_cases h : key = other
        · simp [h]
        · rw [if_neg h, List.find?_cons_of_neg (by simpa using h),
            List.find?_cons_of_neg (by simpa [← hkey] using h)]

theorem find?_insert (t : Table α) (key other : String) (value : α) :
    (t.insert key value).find? other = if key = other then some value else t.find? other := by
  simp only [find?, insert, find?_insertEntry]
  split <;> rfl

theorem isSome_find? (t : Table α) (key : String) : (t.find? key).isSome = t.contains key := by
  rw [find?, Option.isSome_map, contains, List.isSome_find?]

theorem contains_insert (t : Table α) (key other : String) (value : α) :
    (t.insert key value).contains other = (key == other || t.contains other) := by
  rw [← isSome_find?, ← isSome_find?, find?_insert]
  by_cases h : key = other <;> simp [h]

theorem find?_insertNew (t : Table α) (key other : String) (value : α) :
    (t.insertNew key value).find? other =
      (t.find? other).or (if key = other then some value else none) := by
  have hsome := t.isSome_find? key
  rw [insertNew]
  split
  · next hkey =>
    rw [hkey] at hsome
    split
    · next heq =>
      rw [heq] at hsome
      rw [Option.or_of_isSome hsome]
    · rw [Option.or_none]
  · next hkey =>
    rw [eq_false_of_ne_true hkey] at hsome
    rw [find?_insert]
    split
    · next heq =>
      rw [heq, Option.isSome_eq_false_iff, Option.isNone_iff_eq_none] at hsome
      rw [hsome, Option.none_or]
    · rw [Option.or_none]

/-- Keys that are put in with one value do not change what was found before. -/
theorem find?_foldl_insertNew (t : Table α) (keys : List String) (value : α) (key : String) :
    (keys.foldl (·.insertNew · value) t).find? key =
      (t.find? key).or (if keys.contains key then some value else none) := by
  induction keys generalizing t with
  | nil => simp
  | cons first keys ih =>
    rw [List.foldl_cons, ih, find?_insertNew, Option.or_assoc, List.contains_cons]
    by_cases h : first = key
    · simp [h]
    · simp [h, Ne.symm h]

theorem find?_ofList_concat (entries : List (String × α)) (entry : String × α) (key : String) :
    (ofList (entries ++ [entry])).find? key =
      if entry.1 = key then some entry.2 else (ofList entries).find? key := by
  simp only [ofList, List.foldl_append, List.foldl_cons, List.foldl_nil, find?_insert]

/-- Of several entries with one key the last counts. -/
theorem find?_ofList (entries : List (String × α)) (key : String) :
    (ofList entries).find? key = (entries.reverse.find? (·.1 == key)).map (·.2) := by
  induction entries using List.reverseRecOn with
  | nil => rfl
  | append_singleton entries entry ih =>
    rw [find?_ofList_concat, ih, List.reverse_append, List.reverse_singleton,
      List.singleton_append]
    by_cases h : entry.1 = key
    · rw [if_pos h, List.find?_cons_of_pos (by simpa using h), Option.map_some]
    · rw [if_neg h, List.find?_cons_of_neg (by simpa using h)]

theorem mem_keys_insertEntry {key other : String} {value : α} {entries : List (String × α)} :
    other ∈ (insertEntry key value entries).map (·.1) ↔
      other = key ∨ other ∈ entries.map (·.1) := by
  have h := find?_insertEntry key other value entries
  have hmem (l : List (String × α)) :
      other ∈ l.map (·.1) ↔ (l.find? (·.1 == other)).isSome = true := by
    simp [List.find?_isSome]
  rw [hmem, hmem, h]
  split
  · next heq => simp [heq]
  · next hne => simp [Ne.symm hne]

theorem entries_ofList_concat (entries : List (String × α)) (entry : String × α) :
    (ofList (entries ++ [entry])).entries =
      insertEntry entry.1 entry.2 (ofList entries).entries := by
  simp [ofList, insert]

theorem mem_keys_ofList {entries : List (String × α)} {key : String} :
    key ∈ (ofList entries).keys ↔ key ∈ entries.map (·.1) := by
  induction entries using List.reverseRecOn with
  | nil => rfl
  | append_singleton entries entry ih =>
    rw [keys, entries_ofList_concat, mem_keys_insertEntry, ← keys, ih]
    simp [or_comm]

theorem insertEntry_eq_concat {key : String} {value : α} {entries : List (String × α)}
    (h : ∀ entry ∈ entries, entry.1 < key) :
    insertEntry key value entries = entries ++ [(key, value)] := by
  induction entries with
  | nil => rfl
  | cons entry entries ih =>
    obtain ⟨hentry, hentries⟩ := List.forall_mem_cons.mp h
    rw [insertEntry, if_neg (String.lt_asymm hentry), if_pos hentry,
      ih hentries, List.cons_append]

theorem entries_ofList {entries : List (String × α)}
    (h : entries.Pairwise fun a b => a.1 < b.1) : (ofList entries).entries = entries := by
  induction entries using List.reverseRecOn with
  | nil => rfl
  | append_singleton entries entry ih =>
    obtain ⟨hbefore, -, hlast⟩ := List.pairwise_append.mp h
    rw [entries_ofList_concat, ih hbefore]
    exact insertEntry_eq_concat fun other hother => hlast other hother entry (by simp)

/-- A table is made again from its entries. -/
theorem ofList_entries (t : Table α) : ofList t.entries = t := by
  rw [Table.mk.injEq]
  exact entries_ofList t.ordered

theorem keys_pairwise (t : Table α) : t.keys.Pairwise (· < ·) :=
  List.pairwise_map.mpr t.ordered

end Table

theorem mem_sortedTexts {texts : List String} {text : String} :
    text ∈ sortedTexts texts ↔ text ∈ texts := by
  rw [sortedTexts, Table.mem_keys_ofList]
  simp

theorem sortedTexts_pairwise (texts : List String) : (sortedTexts texts).Pairwise (· < ·) :=
  Table.keys_pairwise _

/-- Texts in order are determined by what they are. -/
theorem sortedTexts_congr {texts texts' : List String} (h : ∀ text, text ∈ texts ↔ text ∈ texts') :
    sortedTexts texts = sortedTexts texts' := by
  apply (sortedTexts_pairwise texts).eq_of_mem_iff (sortedTexts_pairwise texts')
  intro text
  rw [mem_sortedTexts, mem_sortedTexts, h]

end PipelinePlan
