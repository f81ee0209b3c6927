import PipelinePlan.Proofs.Wire.Grammar
import PipelinePlan.Wire.Record

namespace PipelinePlan.Wire

def Payload.isWhole : Payload → Bool
  | groupStart | groupEnd => false
  | _ => true

/-- Fields one after the other that stand in a message without being known there. What a group
holds may have any numbers. -/
inductive Foreign where
  | nil
  | single (number : Nat) (payload : Payload) (whole : payload.isWhole = true) (rest : Foreign)
  | group (number : Nat) (inner rest : Foreign)

namespace Foreign

def tokens : Foreign → List Token
  | nil => []
  | single number payload _ rest => ⟨number, payload⟩ :: rest.tokens
  | group number inner rest =>
    ⟨number, .groupStart⟩ :: (inner.tokens ++ ⟨number, .groupEnd⟩ :: rest.tokens)

def numbers : Foreign → List Nat
  | nil => []
  | single number _ _ rest => number :: rest.numbers
  | group number _ rest => number :: rest.numbers

/-- How many levels the fields take up. A field inside a group is one level deeper than it. -/
def height : Foreign → Nat
  | nil => 0
  | single _ _ _ rest => max 1 rest.height
  | group _ inner rest => max (inner.height + 1) rest.height

end Foreign

/-- A message to be written: its fields in order, and among them foreign ones with the bytes that
spell them. -/
inductive Message where
  | nil
  | number (n value : Nat) (rest : Message)
  | text (n : Nat) (value : String) (rest : Message)
  | message (n : Nat) (inner rest : Message)
  | foreign (fields : Foreign) (bytes : Bytes) (rest : Message)

def utf8 (s : String) : Bytes := s.toUTF8.data.toList

namespace Message

def bytes : Message → Bytes
  | nil => []
  | number n value rest => writeToken ⟨n, .varint value⟩ ++ rest.bytes
  | text n value rest => writeToken ⟨n, .delimited (utf8 value)⟩ ++ rest.bytes
  | message n inner rest => writeToken ⟨n, .delimited inner.bytes⟩ ++ rest.bytes
  | foreign _ bytes rest => bytes ++ rest.bytes

def tokens : Message → List Token
  | nil => []
  | number n value rest => ⟨n, .varint value⟩ :: rest.tokens
  | text n value rest => ⟨n, .delimited (utf8 value)⟩ :: rest.tokens
  | message n inner rest => ⟨n, .delimited inner.bytes⟩ :: rest.tokens
  | foreign fields _ rest => fields.tokens ++ rest.tokens

def record : Message → Record
  | nil => []
  | number n value rest => (n, .number value) :: rest.record
  | text n value rest => (n, .text value) :: rest.record
  | message n inner rest => (n, .message inner.record) :: rest.record
  | foreign _ _ rest => rest.record

/-- How many levels of messages and of foreign fields there are below a message. -/
def height : Message → Nat
  | nil => 0
  | number _ _ rest => rest.height
  | text _ _ rest => rest.height
  | message _ inner rest => max (inner.height + 1) rest.height
  | foreign fields _ rest => max fields.height rest.height

/-- The fields of a message are those of a layout, apart from the foreign ones, which are spelled
rightly and have numbers that the layout does not know. -/
def IsFor (layout : Layout) : Message → Prop
  | nil => True
  | number n value rest =>
    layout.field? n = some .number ∧ value < 2 ^ 64 ∧ rest.IsFor layout
  | text n _ rest => layout.field? n = some .text ∧ rest.IsFor layout
  | message n inner rest =>
    (∃ kind, layout.field? n = some (.message kind) ∧ inner.IsFor kind) ∧ rest.IsFor layout
  | foreign fields bytes rest =>
    AreTokens fields.tokens bytes ∧ (∀ n ∈ fields.numbers, layout.field? n = none) ∧
      rest.IsFor layout

end Message

theorem utf8?_utf8 (s : String) : utf8? (utf8 s) = some s := by
  simp only [utf8?, utf8, Array.toArray_toList]
  exact dif_pos s.isValidUTF8

namespace Layout

theorem optionsField?_bounds {own : List Nat} (hown : ∀ m ∈ own, 0 < m ∧ m < 1000) {n : Nat}
    {kind : FieldKind} (h : optionsField? own n = some kind) : 0 < n ∧ n < 1000 := by
  unfold optionsField? at h
  split at h
  · next hn => exact hown n (by simpa using hn)
  · split at h
    · next hn =>
      have hother : n = 999 := by simpa [otherOptions] using hn
      omega
    · cases h

theorem field?_bounds {layout : Layout} {n : Nat} {kind : FieldKind}
    (h : layout.field? n = some kind) : 0 < n ∧ n < 1000 := by
  cases layout
  case messageOptions | fieldOptions | enumOptions | enumValueOptions | serviceOptions |
      methodOptions | plainOptions => exact optionsField?_bounds (by decide) h
  all_goals
    simp only [field?, fileField?, messageField?, fieldField?, fileOptionsField?] at h
    split at h <;> simp_all <;> omega

end Layout

section Foreign

variable {layout : Layout} {depth : Nat} {nested : Layout → Bytes → Option Record}

/-- Two checks in a row are one. -/
theorem ite_ite_none {α : Type} {p q r : Prop} [Decidable p] [Decidable q] [Decidable r]
    (h : r ↔ p ∧ q) (x : Option α) :
    (if p then if q then x else none else none) = if r then x else none := by
  by_cases hp : p <;> by_cases hq : q <;> simp [h, hp, hq]

theorem readFields_whole {payload : Payload} (hwhole : payload.isWhole = true) {n : Nat}
    (hn : layout.field? n = none) (rest : List Token) :
    readFields layout depth nested [] (⟨n, payload⟩ :: rest) =
      if 0 < depth then readFields layout depth nested [] rest else none := by
  by_cases hdepth : depth = 0 <;> cases payload <;>
    simp_all [readFields, Payload.isWhole, Nat.pos_iff_ne_zero]

theorem readFields_groupStart {n : Nat} (hn : layout.field? n = none) (rest : List Token) :
    readFields layout depth nested [] (⟨n, .groupStart⟩ :: rest) =
      if 0 < depth then readFields layout depth nested [n] rest else none := by
  by_cases hdepth : depth = 0 <;> simp [readFields, hn, hdepth, Nat.pos_iff_ne_zero]

theorem readFields_whole_within {payload : Payload} (hwhole : payload.isWhole = true)
    (n group : Nat) (groups : List Nat) (rest : List Token) :
    readFields layout depth nested (group :: groups) (⟨n, payload⟩ :: rest) =
      if groups.length + 1 < depth then readFields layout depth nested (group :: groups) rest
      else none := by
  cases payload <;> simp_all [readFields, Payload.isWhole]

/-- Inside a group foreign fields are passed over if there are levels enough for them. -/
theorem readFields_within (fields : Foreign) (group : Nat) (groups : List Nat)
    (hdepth : groups.length + 1 ≤ depth) (rest : List Token) :
    readFields layout depth nested (group :: groups) (fields.tokens ++ rest) =
      if groups.length + 1 + fields.height ≤ depth then
        readFields layout depth nested (group :: groups) rest
      else none := by
  -- An inner group opens one level more, so the induction is over all lists of open groups.
  induction fields generalizing group groups rest with
  | nil => simp [Foreign.tokens, Foreign.height, hdepth]
  | single n payload hwhole others ih =>
    rw [Foreign.tokens, List.cons_append, readFields_whole_within hwhole, ih group groups hdepth]
    refine ite_ite_none ?_ _
    rw [Foreign.height]
    omega
  | group n inner others ihInner ih =>
    by_cases hlt : groups.length + 1 < depth
    · have hopen : readFields layout depth nested (group :: groups)
          ((Foreign.group n inner others).tokens ++ rest) =
          readFields layout depth nested (n :: group :: groups)
            (inner.tokens ++ ⟨n, .groupEnd⟩ :: (others.tokens ++ rest)) := by
        simp [Foreign.tokens, readFields, hlt]
      have hclose : readFields layout depth nested (n :: group :: groups)
          (⟨n, .groupEnd⟩ :: (others.tokens ++ rest)) =
          readFields layout depth nested (group :: groups) (others.tokens ++ rest) := by
        simp [readFields]
      rw [hopen, ihInner n (group :: groups) hlt, hclose, ih group groups hdepth]
      refine ite_ite_none ?_ _
      rw [Foreign.height, List.length_cons]
      omega
    · rw [if_neg (by rw [Foreign.height]; omega)]
      simp [Foreign.tokens, readFields, hlt]

/-- Foreign fields of a message are passed over if there are levels enough for them. -/
theorem readFields_foreign (fields : Foreign)
    (hnumbers : ∀ n ∈ fields.numbers, layout.field? n = none) (rest : List Token) :
    readFields layout depth nested [] (fields.tokens ++ rest) =
      if fields.height ≤ depth then readFields layout depth nested [] rest else none := by
  induction fields generalizing rest with
  | nil => simp [Foreign.tokens, Foreign.height]
  | single n payload hwhole others ih =>
    simp only [Foreign.numbers, List.forall_mem_cons] at hnumbers
    rw [Foreign.tokens, List.cons_append, readFields_whole hwhole hnumbers.1, ih hnumbers.2]
    refine ite_ite_none ?_ _
    rw [Foreign.height]
    omega
  | group n inner others _ ih =>
    simp only [Foreign.numbers, List.forall_mem_cons] at hnumbers
    have hclose : readFields layout depth nested [n] (⟨n, .groupEnd⟩ :: (others.tokens ++ rest)) =
        readFields layout depth nested [] (others.tokens ++ rest) := by
      simp [readFields]
    rw [Foreign.tokens, List.cons_append, readFields_groupStart hnumbers.1, List.append_assoc,
      List.cons_append]
    by_cases hpos : 0 < depth
    · rw [if_pos hpos, readFields_within inner n [] hpos, hclose, ih hnumbers.2]
      refine ite_ite_none ?_ _
      rw [Foreign.height, List.length_nil]
      omega
    · rw [if_neg hpos, if_neg (by rw [Foreign.height]; omega)]

end Foreign

def below : Nat → Layout → Bytes → Option Record
  | 0 => fun _ _ => none
  | depth + 1 => record? depth

theorem record?_eq (depth : Nat) (layout : Layout) (bytes : Bytes) :
    record? depth layout bytes =
      (tokens? bytes).bind (readFields layout depth (below depth) []) := by
  cases depth <;> rfl

theorem readFields_known {layout : Layout} {n : Nat} {kind : FieldKind}
    (hkind : layout.field? n = some kind) {nested : Layout → Bytes → Option Record}
    {payload : Payload} {value : Value} (hvalue : readValue nested kind payload = some value)
    {depth : Nat} {rest : List Token} :
    readFields layout depth nested [] (⟨n, payload⟩ :: rest) =
      (readFields layout depth nested [] rest).map ((n, value) :: ·) := by
  simp only [readFields, hkind, hvalue, Option.bind_eq_bind, Option.bind_some]
  cases readFields layout depth nested [] rest <;> rfl

theorem length_le_writeToken (n : Nat) (bytes : Bytes) :
    bytes.length ≤ (writeToken ⟨n, .delimited bytes⟩).length := by
  simp only [writeToken, writePayload, List.length_append]
  omega

namespace Message

theorem areTokens {layout : Layout} {m : Message} (hm : m.IsFor layout)
    (hsize : m.bytes.length < 2 ^ 64) : AreTokens m.tokens m.bytes := by
  induction m with
  | nil => exact .nil
  | number n value rest ih =>
    obtain ⟨hkind, hvalue, hrest⟩ := hm
    have hn := Layout.field?_bounds hkind
    rw [bytes, List.length_append] at hsize
    exact .write_cons hn.1 (hn.2.trans (by norm_num)) hvalue (ih hrest (by omega))
  | text n value rest ih =>
    obtain ⟨hkind, hrest⟩ := hm
    have hn := Layout.field?_bounds hkind
    have hlength := length_le_writeToken n (utf8 value)
    rw [bytes, List.length_append] at hsize
    exact .write_cons hn.1 (hn.2.trans (by norm_num)) (show _ < _ by omega)
      (ih hrest (by omega))
  | message n inner rest _ ih =>
    obtain ⟨⟨kind, hkind, _⟩, hrest⟩ := hm
    have hn := Layout.field?_bounds hkind
    have hlength := length_le_writeToken n inner.bytes
    rw [bytes, List.length_append] at hsize
    exact .write_cons hn.1 (hn.2.trans (by norm_num)) (show _ < _ by omega)
      (ih hrest (by omega))
  | foreign fields spelled rest ih =>
    obtain ⟨hspelled, _, hrest⟩ := hm
    rw [bytes, List.length_append] at hsize
    exact hspelled.append (ih hrest (by omega))

/-- A written message is read as its known fields if it nests no deeper than allowed, and is
refused otherwise. -/
theorem record?_bytes {m : Message} {layout : Layout} (hm : m.IsFor layout)
    (hsize : m.bytes.length < 2 ^ 64) (depth : Nat) :
    record? depth layout m.bytes = if m.height ≤ depth then some m.record else none := by
  rw [record?_eq, tokens?_of_areTokens (areTokens hm hsize), Option.bind_some]
  -- Messages inside are read by another layout and with one level less.
  induction m generalizing layout depth with
  | nil => simp [tokens, readFields, height, record]
  | number n value rest ih =>
    obtain ⟨hkind, _, hrest⟩ := hm
    rw [bytes, List.length_append] at hsize
    rw [tokens, readFields_known hkind rfl, ih hrest (by omega), apply_ite (Option.map _)]
    rfl
  | text n value rest ih =>
    obtain ⟨hkind, hrest⟩ := hm
    rw [bytes, List.length_append] at hsize
    have hvalue : readValue (below depth) .text (.delimited (utf8 value)) = some (.text value) := by
      rw [readValue, utf8?_utf8, Option.map_some]
    rw [tokens, readFields_known hkind hvalue, ih hrest (by omega), apply_ite (Option.map _)]
    rfl
  | message n inner rest ihInner ih =>
    obtain ⟨⟨kind, hkind, hinner⟩, hrest⟩ := hm
    have hlength := length_le_writeToken n inner.bytes
    rw [bytes, List.length_append] at hsize
    have hbelow : below depth kind inner.bytes =
        if inner.height + 1 ≤ depth then some inner.record else none := by
      cases depth with
      | zero => rfl
      | succ depth =>
        have hread := ihInner hinner (by omega) depth
        rw [below, record?_eq, tokens?_of_areTokens (areTokens hinner (by omega)),
          Option.bind_some, hread]
        simp
    simp only [tokens, readFields, hkind, readValue, hbelow, ih hrest (by omega), height, record,
      max_le_iff]
    by_cases h : inner.height + 1 ≤ depth <;> by_cases h' : rest.height ≤ depth <;> simp [h, h']
  | foreign fields spelled rest ih =>
    obtain ⟨_, hnumbers, hrest⟩ := hm
    rw [bytes, List.length_append] at hsize
    rw [tokens, readFields_foreign fields hnumbers, ih hrest (by omega)]
    exact ite_ite_none max_le_iff _

/-- The second message is the first with foreign fields put in, between any fields and at any
level. -/
inductive Inserted : Layout → Message → Message → Prop where
  | nil {layout : Layout} : Inserted layout .nil .nil
  | number {layout : Layout} {rest rest' : Message} (n value : Nat)
      (hrest : Inserted layout rest rest') :
      Inserted layout (.number n value rest) (.number n value rest')
  | text {layout : Layout} {rest rest' : Message} (n : Nat) (value : String)
      (hrest : Inserted layout rest rest') :
      Inserted layout (.text n value rest) (.text n value rest')
  | message {layout kind : Layout} {inner inner' rest rest' : Message} {n : Nat}
      (hkind : layout.field? n = some (.message kind)) (hinner : Inserted kind inner inner')
      (hrest : Inserted layout rest rest') :
      Inserted layout (.message n inner rest) (.message n inner' rest')
  | foreign {layout : Layout} {m m' : Message} {fields : Foreign} {bytes : Bytes}
      (hspelled : AreTokens fields.tokens bytes)
      (hnumbers : ∀ n ∈ fields.numbers, layout.field? n = none) (h : Inserted layout m m') :
      Inserted layout m (.foreign fields bytes m')

namespace Inserted

variable {layout : Layout} {m m' : Message}

theorem isFor (h : Inserted layout m m') (hm : m.IsFor layout) : m'.IsFor layout := by
  induction h with
  | nil => trivial
  | number n value _ ih => exact ⟨hm.1, hm.2.1, ih hm.2.2⟩
  | text n value _ ih => exact ⟨hm.1, ih hm.2⟩
  | message hkind _ _ ihInner ih =>
    obtain ⟨⟨kind, hkind', hinner⟩, hrest⟩ := hm
    obtain rfl : _ = kind := by simpa [hkind] using hkind'
    exact ⟨⟨_, hkind, ihInner hinner⟩, ih hrest⟩
  | foreign hspelled hnumbers _ ih => exact ⟨hspelled, hnumbers, ih hm⟩

theorem record_eq (h : Inserted layout m m') : m'.record = m.record := by
  induction h with
  | nil => rfl
  | number n value _ ih => simp only [record, ih]
  | text n value _ ih => simp only [record, ih]
  | message _ _ _ ihInner ih => simp only [record, ihInner, ih]
  | foreign _ _ _ ih => exact ih

end Inserted

end Message

end PipelinePlan.Wire
