import Mathlib
import PipelinePlan.Text.Words

namespace PipelinePlan.Text

theorem isAlphanum_toUpper (c : Char) : c.toUpper.isAlphanum = c.isAlphanum := by
  by_cases h : c.isLower
  · simp [Char.isAlphanum, Char.isAlpha, h]
  · rw [Char.toUpper_eq_of_not_isLower h]

theorem isAlphanum_toLower (c : Char) : c.toLower.isAlphanum = c.isAlphanum := by
  by_cases h : c.isUpper
  · simp [Char.isAlphanum, Char.isAlpha, h]
  · rw [Char.toLower_eq_of_not_isUpper h]

theorem isLower_eq_false_of_not_alphanum {c : Char} (h : c.isAlphanum = false) :
    c.isLower = false := by
  simp only [Char.isAlphanum, Char.isAlpha, Bool.or_eq_false_iff] at h
  exact h.1.2

/-- Whether the first of the characters belongs to the same word as the letter or digit before. -/
def joins (c : Char) : List Char → Bool
  | [] => false
  | d :: ds => d.isAlphanum && !startsWord c d ds.head?

theorem wordsOf_cons (c : Char) (cs : List Char) :
    wordsOf (c :: cs) =
      if c.isAlphanum then
        if joins c cs then consWord c (wordsOf cs) else [c] :: wordsOf cs
      else wordsOf cs := by
  rw [wordsOf.eq_def]
  cases hc : c.isAlphanum with
  | false => simp [hc]
  | true =>
    cases cs with
    | nil => simp [hc, joins, wordsOf]
    | cons d ds => simp [hc, joins]

theorem flatten_consWord (c : Char) (words : List (List Char)) :
    (consWord c words).flatten = c :: words.flatten := by
  cases words <;> rfl

theorem mem_consWord {c : Char} {words : List (List Char)} {w : List Char}
    (h : w ∈ consWord c words) : (∃ rest, w = c :: rest) ∨ w ∈ words := by
  cases words with
  | nil => exact .inl ⟨[], by simpa [consWord] using h⟩
  | cons first rest =>
    rcases List.mem_cons.mp h with rfl | h
    · exact .inl ⟨first, rfl⟩
    · exact .inr (List.mem_cons_of_mem first h)

theorem consWord_append {c : Char} {first second : List (List Char)} (h : first ≠ []) :
    consWord c (first ++ second) = consWord c first ++ second := by
  cases first with
  | nil => exact absurd rfl h
  | cons word rest => rfl

/-- The words of a name hold its letters and digits and nothing else. -/
theorem flatten_wordsOf (cs : List Char) : (wordsOf cs).flatten = cs.filter Char.isAlphanum := by
  induction cs with
  | nil => rfl
  | cons c cs ih =>
    rw [wordsOf_cons, List.filter_cons]
    split
    · split
      · rw [flatten_consWord, ih]
      · rw [List.flatten_cons, ih, List.singleton_append]
    · exact ih

theorem ne_nil_of_mem_wordsOf {cs w : List Char} (h : w ∈ wordsOf cs) : w ≠ [] := by
  induction cs with
  | nil => cases h
  | cons c cs ih =>
    rw [wordsOf_cons] at h
    split at h
    · split at h
      · rcases mem_consWord h with ⟨rest, rfl⟩ | h
        · exact List.cons_ne_nil c rest
        · exact ih h
      · rcases List.mem_cons.mp h with rfl | h
        · exact List.cons_ne_nil c []
        · exact ih h
    · exact ih h

theorem alphanum_of_mem_wordsOf {cs w : List Char} (h : w ∈ wordsOf cs) :
    ∀ c ∈ w, c.isAlphanum = true := by
  intro c hc
  have hflat : c ∈ (wordsOf cs).flatten := List.mem_flatten.mpr ⟨w, h, hc⟩
  rw [flatten_wordsOf] at hflat
  exact (List.mem_filter.mp hflat).2

theorem wordsOf_ne_nil {c : Char} {cs : List Char} (h : joins c cs = true) : wordsOf cs ≠ [] := by
  intro hnil
  have hflat := flatten_wordsOf cs
  rw [hnil, List.flatten_nil, eq_comm, List.filter_eq_nil_iff] at hflat
  cases cs with
  | nil => cases h
  | cons d ds =>
    rw [joins, Bool.and_eq_true] at h
    exact hflat d List.mem_cons_self h.1

/-- A dividing character ends a word like the end of the name does. -/
theorem joins_append_cons {d : Char} (hd : d.isAlphanum = false) (c : Char)
    (before after : List Char) : joins c (before ++ d :: after) = joins c before := by
  match before with
  | [] => simp [joins, hd]
  | [e] => simp [joins, startsWord, isLower_eq_false_of_not_alphanum hd]
  | e :: f :: rest => rfl

/-- At a dividing character the words of a name fall into those before it and those after it. -/
theorem wordsOf_append_cons {d : Char} (hd : d.isAlphanum = false) (before after : List Char) :
    wordsOf (before ++ d :: after) = wordsOf before ++ wordsOf after := by
  induction before with
  | nil => rw [List.nil_append, wordsOf_cons, hd]; rfl
  | cons c before ih =>
    rw [List.cons_append, wordsOf_cons, wordsOf_cons, joins_append_cons hd, ih]
    split
    · split
      · next hjoins => exact consWord_append (wordsOf_ne_nil hjoins)
      · rfl
    · rfl

/-- A word without capitals that has no dividing characters in it. -/
structure SmallWord (w : List Char) : Prop where
  ne_nil : w ≠ []
  alphanum : ∀ c ∈ w, c.isAlphanum = true
  not_upper : ∀ c ∈ w, c.isUpper = false

theorem SmallWord.wordsOf_eq {w : List Char} (h : SmallWord w) : wordsOf w = [w] := by
  obtain ⟨hne, halpha, hupper⟩ := h
  induction w with
  | nil => exact absurd rfl hne
  | cons c cs ih =>
    rw [List.forall_mem_cons] at halpha hupper
    rw [wordsOf_cons, halpha.1]
    cases cs with
    | nil => rfl
    | cons d ds =>
      have hjoins : joins c (d :: ds) = true := by
        simp [joins, startsWord, halpha.2 d List.mem_cons_self, hupper.2 d List.mem_cons_self]
      rw [hjoins, ih (List.cons_ne_nil d ds) halpha.2 hupper.2]
      rfl

theorem wordsOf_intercalate {d : Char} (hd : d.isAlphanum = false) {small : List (List Char)}
    (h : ∀ w ∈ small, SmallWord w) : wordsOf ([d].intercalate small) = small := by
  induction small with
  | nil => rfl
  | cons w rest ih =>
    rw [List.forall_mem_cons] at h
    cases rest with
    | nil => rw [List.intercalate_singleton, h.1.wordsOf_eq]
    | cons next rest =>
      rw [List.intercalate_cons_cons, List.append_assoc, List.singleton_append,
        wordsOf_append_cons hd, h.1.wordsOf_eq, ih h.2]
      rfl

theorem smallWord_of_mem_lowerWords {s : String} {w : List Char} (h : w ∈ lowerWords s) :
    SmallWord w := by
  obtain ⟨word, hword, rfl⟩ := List.mem_map.mp h
  refine ⟨by simpa using ne_nil_of_mem_wordsOf hword, ?_, ?_⟩
  · intro c hc
    obtain ⟨b, hb, rfl⟩ := List.mem_map.mp hc
    rw [isAlphanum_toLower, alphanum_of_mem_wordsOf hword b hb]
  · intro c hc
    obtain ⟨b, -, rfl⟩ := List.mem_map.mp hc
    exact Char.isUpper_toLower_eq_false b

def spelledWith (d : Char) (s : String) : String := String.ofList ([d].intercalate (lowerWords s))

theorem lowerWords_eq (s : String) :
    lowerWords s = (words s).map fun w => w.toLower.toList := by
  rw [lowerWords, words, List.map_map]
  apply List.map_congr_left
  intro w _
  rw [Function.comp_apply, String.toLower, String.toList_map, String.toList_ofList]

theorem words_spelledWith {d : Char} (hd : d.isAlphanum = false) (s : String) :
    words (spelledWith d s) = (words s).map String.toLower := by
  have hwords : wordsOf (spelledWith d s).toList = lowerWords s := by
    rw [spelledWith, String.toList_ofList]
    exact wordsOf_intercalate hd fun w hw => smallWord_of_mem_lowerWords hw
  rw [words, hwords, lowerWords_eq, List.map_map]
  apply List.map_congr_left
  intro w _
  exact String.ofList_toList

/-- Spelling a name in one of these ways loses nothing that such a spelling keeps. -/
theorem lowerWords_spelledWith {d : Char} (hd : d.isAlphanum = false) (s : String) :
    lowerWords (spelledWith d s) = lowerWords s := by
  rw [lowerWords_eq, lowerWords_eq, words_spelledWith hd, List.map_map]
  apply List.map_congr_left
  intro w _
  simp [String.toLower, String.toList_map]

theorem spelledWith_spelledWith {d : Char} (hd : d.isAlphanum = false) (e : Char) (s : String) :
    spelledWith e (spelledWith d s) = spelledWith e s := by
  rw [spelledWith, lowerWords_spelledWith hd, spelledWith]

theorem token_eq (s : String) : token s = String.ofList (lowerWords s).flatten := by
  rw [token, tokenOf, lowerWords, ← flatten_wordsOf, List.map_flatten]

theorem token_spelledWith {d : Char} (hd : d.isAlphanum = false) (s : String) :
    token (spelledWith d s) = token s := by
  rw [token_eq, lowerWords_spelledWith hd, token_eq]

theorem pascalFrom_alphanum (raise : Bool) (cs : List Char) :
    ∀ c ∈ pascalFrom raise cs, c.isAlphanum = true := by
  induction cs generalizing raise with
  | nil => simp [pascalFrom]
  | cons d cs ih =>
    intro c hc
    unfold pascalFrom at hc
    split at hc
    · next hd =>
      rcases List.mem_cons.mp hc with rfl | hc
      · split
        · rw [isAlphanum_toUpper, hd]
        · exact hd
      · exact ih _ c hc
    · exact ih true c hc

theorem tokenOf_cons (c : Char) (cs : List Char) :
    tokenOf (c :: cs) = if c.isAlphanum then c.toLower :: tokenOf cs else tokenOf cs := by
  rw [tokenOf, List.filter_cons]
  split <;> rfl

theorem tokenOf_pascalFrom (raise : Bool) (cs : List Char) :
    tokenOf (pascalFrom raise cs) = tokenOf cs := by
  induction cs generalizing raise with
  | nil => rfl
  | cons c cs ih =>
    rw [pascalFrom, tokenOf_cons c cs]
    cases hc : c.isAlphanum with
    | false => exact ih true
    | true =>
      rw [if_pos rfl, if_pos rfl, tokenOf_cons, ih]
      cases raise
      · simp [hc]
      · simp [isAlphanum_toUpper, hc]

theorem token_pascal (s : String) : token (pascal s) = token s := by
  rw [token, pascal, String.toList_ofList, tokenOf_pascalFrom, token]

/-- Words are not empty, are made of letters and digits, and give the letters and digits of the name
when they are written together. The words of a name spelled in kebab or snake case are those of the
name in small letters. So a further spelling gives what it gives for the name itself, and the token
of every spelling is that of the name. -/
theorem words_and_spellings_agree (s : String) :
    (∀ w ∈ words s, w ≠ "" ∧ ∀ c ∈ w.toList, c.isAlphanum = true) ∧
    String.join (words s) = String.ofList (s.toList.filter Char.isAlphanum) ∧
    words (kebab s) = (words s).map String.toLower ∧
    words (snake s) = (words s).map String.toLower ∧
    (kebab (kebab s) = kebab s ∧ snake (snake s) = snake s) ∧
    (snake (kebab s) = snake s ∧ kebab (snake s) = kebab s) ∧
    token (kebab s) = token s ∧ token (snake s) = token s ∧ token (pascal s) = token s := by
  have hkebab : '-'.isAlphanum = false := by decide
  have hsnake : '_'.isAlphanum = false := by decide
  refine ⟨?_, ?_, words_spelledWith hkebab s, words_spelledWith hsnake s,
    ⟨spelledWith_spelledWith hkebab '-' s, spelledWith_spelledWith hsnake '_' s⟩,
    ⟨spelledWith_spelledWith hkebab '_' s, spelledWith_spelledWith hsnake '-' s⟩,
    token_spelledWith hkebab s, token_spelledWith hsnake s, token_pascal s⟩
  · intro w hw
    obtain ⟨word, hword, rfl⟩ := List.mem_map.mp hw
    rw [String.toList_ofList, ne_eq, String.ofList_eq_empty_iff]
    exact ⟨ne_nil_of_mem_wordsOf hword, alphanum_of_mem_wordsOf hword⟩
  · rw [String.join_eq, words, List.map_map, ← flatten_wordsOf]
    simp [Function.comp_def]

end PipelinePlan.Text
