import Mathlib
import PipelinePlan.Json.Reader
import PipelinePlan.Json.Writer

namespace PipelinePlan.Json

theorem hexValue?_hexDigit {n : Nat} (h : n < 16) : Text.hexValue? (hexDigit n) = some n := by
  interval_cases n <;> rfl

theorem readHex4_hexDigit {n : Nat} (h : n < 0x20) (rest : List Char) :
    readHex4 ('0' :: '0' :: hexDigit (n / 16) :: hexDigit (n % 16) :: rest) = some (n, rest) := by
  have hzero : Text.hexValue? '0' = some 0 := rfl
  have hhigh := hexValue?_hexDigit (n := n / 16) (by omega)
  have hlow := hexValue?_hexDigit (n := n % 16) (by omega)
  simp [readHex4, Text.hexNumber?, hzero, hhigh, hlow]
  omega

theorem readUnicode_hexDigit {c : Char} (h : c.toNat < 0x20) (rest : List Char) :
    readUnicode ('0' :: '0' :: hexDigit (c.toNat / 16) :: hexDigit (c.toNat % 16) :: rest) =
      some (c, rest) := by
  rw [readUnicode, readHex4_hexDigit h]
  have hhigh : ¬0xD800 ≤ c.toNat := by omega
  have hlow : ¬0xDC00 ≤ c.toNat := by omega
  simp [hhigh, hlow]

/-- A character is written as it is, or as an escape that stands for it. -/
theorem escapeChar_cases (c : Char) :
    (escapeChar c = [c] ∧ c ≠ '"' ∧ c ≠ '\\' ∧ ¬c.toNat < 0x20) ∨
      ∃ code, escapeChar c = '\\' :: code ∧ ∀ rest, readEscape (code ++ rest) = some (c, rest) := by
  by_cases hnamed : c ∈ ['"', '\\', '\x08', '\t', '\n', '\x0c', '\r']
  · right
    simp only [List.mem_cons, List.not_mem_nil, or_false] at hnamed
    rcases hnamed with rfl | rfl | rfl | rfl | rfl | rfl | rfl <;>
      exact ⟨[_], rfl, fun _ => rfl⟩
  · simp only [List.mem_cons, List.not_mem_nil, or_false, not_or] at hnamed
    by_cases hcontrol : c.toNat < 0x20
    · right
      refine ⟨['u', '0', '0', hexDigit (c.toNat / 16), hexDigit (c.toNat % 16)], ?_,
        fun rest => readUnicode_hexDigit hcontrol rest⟩
      simp [escapeChar, hnamed, hcontrol]
    · left
      refine ⟨?_, hnamed.1, hnamed.2.1, hcontrol⟩
      simp [escapeChar, hnamed, hcontrol]

theorem readChars_escape {fuel : Nat} {c : Char} {cs rest : List Char}
    (h : readEscape cs = some (c, rest)) :
    readChars (fuel + 1) ('\\' :: cs) =
      (readChars fuel rest).map fun (content, rest) => (c :: content, rest) := by
  simp only [readChars, h, Option.bind_eq_bind, Option.bind_some]
  cases readChars fuel rest <;> rfl

theorem readChars_plain {fuel : Nat} {c : Char} (hquote : c ≠ '"') (hescape : c ≠ '\\')
    (hcontrol : ¬c.toNat < 0x20) (rest : List Char) :
    readChars (fuel + 1) (c :: rest) =
      (readChars fuel rest).map fun (content, rest) => (c :: content, rest) := by
  simp only [readChars, hcontrol, if_false]
  cases readChars fuel rest <;> rfl

/-- A character is read back from its written form, with what follows it. -/
theorem readChars_escapeChar (fuel : Nat) (c : Char) (rest : List Char) :
    readChars (fuel + 1) (escapeChar c ++ rest) =
      (readChars fuel rest).map fun (content, rest) => (c :: content, rest) := by
  rcases escapeChar_cases c with ⟨hplain, hquote, hescape, hcontrol⟩ | ⟨code, hcode, hread⟩
  · rw [hplain]
    exact readChars_plain hquote hescape hcontrol rest
  · rw [hcode]
    exact readChars_escape (hread rest)

theorem readChars_escaped {fuel : Nat} {content : List Char} (h : content.length < fuel)
    (rest : List Char) :
    readChars fuel (content.flatMap escapeChar ++ '"' :: rest) = some (content, rest) := by
  induction content generalizing fuel with
  | nil =>
    obtain ⟨fuel, rfl⟩ := Nat.exists_eq_succ_of_ne_zero (Nat.ne_of_gt h)
    rfl
  | cons c content ih =>
    obtain ⟨fuel, rfl⟩ := Nat.exists_eq_succ_of_ne_zero (Nat.ne_zero_of_lt h)
    rw [List.flatMap_cons, List.append_assoc, readChars_escapeChar,
      ih (Nat.lt_of_succ_lt_succ h), Option.map_some]

theorem length_le_flatMap_escapeChar (content : List Char) :
    content.length ≤ (content.flatMap escapeChar).length := by
  induction content with
  | nil => exact Nat.le_refl 0
  | cons c content ih =>
    have hpos : 1 ≤ (escapeChar c).length := by
      rcases escapeChar_cases c with ⟨h, -⟩ | ⟨code, h, -⟩ <;> simp [h]
    rw [List.flatMap_cons, List.length_append, List.length_cons]
    omega

/-- A text is read back from its quoted form. -/
theorem readText_quote (s : String) (rest : List Char) :
    readText (s.toList.flatMap escapeChar ++ '"' :: rest) = some (s, rest) := by
  have hfuel : s.toList.length <
      (s.toList.flatMap escapeChar ++ '"' :: rest).length + 1 := by
    have := length_le_flatMap_escapeChar s.toList
    rw [List.length_append]
    omega
  rw [readText, readChars_escaped hfuel]
  simp

/-- Nothing that continues a number. -/
def Stops (rest : List Char) : Prop :=
  ∀ c, rest.head? = some c → c.isDigit = false ∧ c ≠ '.' ∧ c ≠ 'e' ∧ c ≠ 'E'

theorem readDigits_append {digits rest : List Char} (hne : digits ≠ [])
    (hdigits : ∀ c ∈ digits, c.isDigit = true)
    (hrest : ∀ c, rest.head? = some c → c.isDigit = false) :
    readDigits (digits ++ rest) = some (digits, rest) := by
  have hstop : rest.takeWhile Char.isDigit = [] ∧ rest.dropWhile Char.isDigit = rest := by
    cases rest with
    | nil => exact ⟨rfl, rfl⟩
    | cons c rest => simp [hrest c rfl]
  rw [readDigits, List.span_eq_takeWhile_dropWhile, List.takeWhile_append_of_pos hdigits,
    List.dropWhile_append_of_pos hdigits, hstop.1, hstop.2, List.append_nil]
  cases digits with
  | nil => exact absurd rfl hne
  | cons c digits => rfl

theorem isDigit_of_mem_toDigits {n : Nat} {c : Char} (h : c ∈ Nat.toDigits 10 n) :
    c.isDigit = true :=
  Nat.isDigit_of_mem_toDigits (by decide) (by decide) h

theorem decimalValue_toDigits (n : Nat) : Text.decimalValue (Nat.toDigits 10 n) = n := by
  have h := Nat.ofDigitChars_ten_toDigits (n := n)
  rw [Nat.ofDigitChars_eq_foldl] at h
  simpa only [Text.decimalValue, Nat.mul_comm, Char.reduceToNat] using h

theorem head?_toDigits_ne_zero {n : Nat} (h : 0 < n) : (Nat.toDigits 10 n).head? ≠ some '0' := by
  induction n using Nat.strong_induction_on with
  | _ n ih =>
    rw [Nat.toDigits_eq_if (by omega)]
    split
    · rw [List.head?_cons, Ne, Option.some_inj, Nat.digitChar_eq_zero]
      omega
    · rw [List.head?_append_of_ne_nil _ Nat.toDigits_ne_nil]
      exact ih (n / 10) (by omega) (by omega)

/-- Digits of a number start with a zero only if there are no others. -/
theorem length_toDigits_of_leadingZero {n : Nat} (h : (Nat.toDigits 10 n).head? = some '0') :
    (Nat.toDigits 10 n).length = 1 := by
  rcases Nat.eq_zero_or_pos n with rfl | hpos
  · rfl
  · exact absurd h (head?_toDigits_ne_zero hpos)

theorem writeInt_eq (n : Int) :
    writeInt n = (if n < 0 then ['-'] else []) ++ Nat.toDigits 10 n.natAbs := by
  cases n with
  | ofNat n => simp [writeInt, Int.toString_eq_repr, Int.repr, Nat.toList_repr]
  | negSucc n => simp [writeInt, Int.toString_eq_repr, Int.repr, Nat.toList_repr]

theorem signed_natAbs (n : Int) : signed (decide (n < 0)) n.natAbs = n := by
  unfold signed
  split <;> grind

theorem exists_toDigits_eq_cons (n : Nat) :
    ∃ c cs, Nat.toDigits 10 n = c :: cs ∧ c.isDigit = true := by
  obtain ⟨c, cs, hcs⟩ := List.exists_cons_of_ne_nil (Nat.toDigits_ne_nil (b := 10) (n := n))
  exact ⟨c, cs, hcs, isDigit_of_mem_toDigits (hcs ▸ List.mem_cons_self)⟩

theorem readSign_of_isDigit {c : Char} (h : c.isDigit = true) (rest : List Char) :
    readSign (c :: rest) = (false, c :: rest) := by
  unfold readSign
  split
  · next heq =>
    cases heq
    cases h
  · next heq =>
    cases heq
    cases h
  · rfl

theorem readSign_writeInt (n : Int) (rest : List Char) :
    readSign (writeInt n ++ rest) = (decide (n < 0), Nat.toDigits 10 n.natAbs ++ rest) := by
  rw [writeInt_eq]
  by_cases hneg : n < 0
  · simp [hneg, readSign]
  · obtain ⟨c, cs, hcs, hdigit⟩ := exists_toDigits_eq_cons n.natAbs
    simp [hneg, hcs, readSign_of_isDigit hdigit]

def readUnsigned (negative : Bool) (cs : List Char) : Option (Json × List Char) := do
  let (whole, rest) ← readDigits cs
  if whole.head? == some '0' && whole.length != 1 then none
  let (fraction, rest) ← readFraction rest
  let (exponent, rest) ← readExponent rest
  some (.number (signed negative (Text.decimalValue (whole ++ fraction)))
    (exponent - fraction.length), rest)

theorem readNumber_of_isDigit {c : Char} (h : c.isDigit = true) (rest : List Char) :
    readNumber (c :: rest) = readUnsigned false (c :: rest) := by
  unfold readNumber
  split
  next heq =>
    split at heq
    · next hminus =>
      cases hminus
      cases h
    · cases heq
      rfl

theorem readNumber_writeInt (n : Int) (rest : List Char) :
    readNumber (writeInt n ++ rest) =
      readUnsigned (decide (n < 0)) (Nat.toDigits 10 n.natAbs ++ rest) := by
  rw [writeInt_eq]
  by_cases hneg : n < 0
  · simp only [hneg, if_true, decide_true]
    rfl
  · obtain ⟨c, cs, hcs, hdigit⟩ := exists_toDigits_eq_cons n.natAbs
    simp [hneg, hcs, readNumber_of_isDigit hdigit]

theorem readFraction_of_head {rest : List Char} (h : rest.head? ≠ some '.') :
    readFraction rest = some ([], rest) := by
  unfold readFraction
  split
  · simp at h
  · rfl

theorem readExponent_of_stops {rest : List Char} (h : Stops rest) :
    readExponent rest = some (0, rest) := by
  cases rest with
  | nil => rfl
  | cons c rest =>
    obtain ⟨-, -, he, hE⟩ := h c rfl
    simp [readExponent, he, hE]

theorem readExponent_writeInt (n : Int) {rest : List Char} (h : Stops rest) :
    readExponent ('e' :: (writeInt n ++ rest)) = some (n, rest) := by
  have hdigits := readDigits_append Nat.toDigits_ne_nil
    (fun _ => isDigit_of_mem_toDigits (n := n.natAbs)) (fun c hc => (h c hc).1)
  simp [readExponent, readSign_writeInt, hdigits, decimalValue_toDigits, signed_natAbs]

theorem readUnsigned_toDigits (negative : Bool) (n : Nat) {rest : List Char} {exponent : Int}
    {after : List Char} (hrest : ∀ c, rest.head? = some c → c.isDigit = false ∧ c ≠ '.')
    (hexponent : readExponent rest = some (exponent, after)) :
    readUnsigned negative (Nat.toDigits 10 n ++ rest) =
      some (.number (signed negative n) exponent, after) := by
  have hdigits := readDigits_append Nat.toDigits_ne_nil
    (fun _ => isDigit_of_mem_toDigits (n := n)) (fun c hc => (hrest c hc).1)
  have hfraction : readFraction rest = some ([], rest) :=
    readFraction_of_head fun hdot => (hrest '.' hdot).2 rfl
  simpa [readUnsigned, hdigits, hfraction, hexponent, decimalValue_toDigits] using
    length_toDigits_of_leadingZero (n := n)

/-- A number is read back if what follows does not continue it. -/
theorem readNumber_writeNumber (mantissa exponent : Int) {rest : List Char} (h : Stops rest) :
    readNumber (writeNumber mantissa exponent ++ rest) =
      some (.number mantissa exponent, rest) := by
  unfold writeNumber
  split
  · next hzero =>
    rw [readNumber_writeInt, readUnsigned_toDigits _ _ (fun c hc => ⟨(h c hc).1, (h c hc).2.1⟩)
      (readExponent_of_stops h), signed_natAbs, eq_of_beq hzero]
  · rw [List.append_assoc, List.cons_append, readNumber_writeInt,
      readUnsigned_toDigits _ _ (by simp) (readExponent_writeInt exponent h), signed_natAbs]

end PipelinePlan.Json
