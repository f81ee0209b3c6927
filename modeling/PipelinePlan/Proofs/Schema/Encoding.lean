import PipelinePlan.Proofs.Wire.Messages
import PipelinePlan.Schema.Descriptor

namespace PipelinePlan.Wire.Message

def texts (n : Nat) (values : List String) (rest : Message) : Message := values.foldr (text n) rest

def flags (n : Nat) (values : List Bool) (rest : Message) : Message :=
  values.foldr (fun value => number n value.toNat) rest

def messages (n : Nat) (inners : List Message) (rest : Message) : Message :=
  inners.foldr (message n) rest

section Builders

variable {layout kind : Layout} {n : Nat} {rest : Message}

theorem record_texts (values : List String) :
    (texts n values rest).record = values.map (fun s => (n, .text s)) ++ rest.record := by
  induction values with
  | nil => rfl
  | cons s values ih => exact congrArg ((n, Value.text s) :: ·) ih

theorem record_flags (values : List Bool) :
    (flags n values rest).record =
      values.map (fun b => (n, .number b.toNat)) ++ rest.record := by
  induction values with
  | nil => rfl
  | cons b values ih => exact congrArg ((n, Value.number b.toNat) :: ·) ih

theorem record_messages (inners : List Message) :
    (messages n inners rest).record =
      inners.map (fun m => (n, .message m.record)) ++ rest.record := by
  induction inners with
  | nil => rfl
  | cons m inners ih => exact congrArg ((n, Value.message m.record) :: ·) ih

/-- Each reader of a record finds the fields of its own kind and number. -/
@[simp]
theorem read_texts (k : Nat) (values : List String) :
    Record.texts k (texts n values rest).record =
        (if n = k then values else []) ++ Record.texts k rest.record ∧
      Record.numbers k (texts n values rest).record = Record.numbers k rest.record ∧
      Record.messages k (texts n values rest).record = Record.messages k rest.record := by
  simp only [record_texts, Record.texts, Record.numbers, Record.messages, List.filterMap_append,
    List.filterMap_map, Function.comp_def]
  by_cases h : n = k <;> simp [h]

@[simp]
theorem read_flags (k : Nat) (values : List Bool) :
    Record.texts k (flags n values rest).record = Record.texts k rest.record ∧
      Record.numbers k (flags n values rest).record =
        (if n = k then values.map Bool.toNat else []) ++ Record.numbers k rest.record ∧
      Record.messages k (flags n values rest).record = Record.messages k rest.record := by
  simp only [record_flags, Record.texts, Record.numbers, Record.messages, List.filterMap_append,
    List.filterMap_map, Function.comp_def]
  by_cases h : n = k <;> simp [h]

@[simp]
theorem read_messages (k : Nat) (inners : List Message) :
    Record.texts k (messages n inners rest).record = Record.texts k rest.record ∧
      Record.numbers k (messages n inners rest).record = Record.numbers k rest.record ∧
      Record.messages k (messages n inners rest).record =
        (if n = k then inners.map record else []) ++ Record.messages k rest.record := by
  simp only [record_messages, Record.texts, Record.numbers, Record.messages, List.filterMap_append,
    List.filterMap_map, Function.comp_def]
  by_cases h : n = k <;> simp [h]

@[simp]
theorem read_nil (k : Nat) :
    Record.texts k nil.record = [] ∧ Record.numbers k nil.record = [] ∧
      Record.messages k nil.record = [] :=
  ⟨rfl, rfl, rfl⟩

theorem isFor_texts (h : layout.field? n = some .text) (values : List String)
    (hrest : rest.IsFor layout) : (texts n values rest).IsFor layout := by
  induction values with
  | nil => exact hrest
  | cons s values ih => exact ⟨h, ih⟩

theorem isFor_flags (h : layout.field? n = some .number) (values : List Bool)
    (hrest : rest.IsFor layout) : (flags n values rest).IsFor layout := by
  induction values with
  | nil => exact hrest
  | cons b values ih => exact ⟨h, b.toNat_lt.trans (by norm_num), ih⟩

theorem isFor_messages (h : layout.field? n = some (.message kind)) {inners : List Message}
    (hinners : ∀ m ∈ inners, m.IsFor kind) (hrest : rest.IsFor layout) :
    (messages n inners rest).IsFor layout := by
  induction inners with
  | nil => exact hrest
  | cons m inners ih =>
    rw [List.forall_mem_cons] at hinners
    exact ⟨⟨kind, h, hinners.1⟩, ih hinners.2⟩

@[simp]
theorem height_texts (values : List String) : (texts n values rest).height = rest.height := by
  induction values with
  | nil => rfl
  | cons s values ih => exact ih

@[simp]
theorem height_flags (values : List Bool) : (flags n values rest).height = rest.height := by
  induction values with
  | nil => rfl
  | cons b values ih => exact ih

theorem height_messages_le_iff {inners : List Message} {depth : Nat} :
    (messages n inners rest).height ≤ depth ↔
      (∀ m ∈ inners, m.height + 1 ≤ depth) ∧ rest.height ≤ depth := by
  induction inners with
  | nil => simp [messages]
  | cons m inners ih =>
    have hcons : (messages n (m :: inners) rest).height =
        max (m.height + 1) (messages n inners rest).height := rfl
    rw [hcons, max_le_iff, ih, List.forall_mem_cons, and_assoc]

end Builders

end PipelinePlan.Wire.Message

namespace PipelinePlan.Schema

open Wire

mutual

/-- A message as it is written, its name first and then the messages inside it. -/
def MessageDescriptor.message : MessageDescriptor → Message
  | .mk name nested => .texts 1 name.toList (MessageDescriptor.messagesOf nested)

def MessageDescriptor.messagesOf : List MessageDescriptor → Message
  | [] => .nil
  | m :: ms => .message 3 m.message (MessageDescriptor.messagesOf ms)

end

mutual

/-- How many levels of messages there are inside a message. -/
def MessageDescriptor.nesting : MessageDescriptor → Nat
  | .mk _ nested => MessageDescriptor.nestingOf nested

def MessageDescriptor.nestingOf : List MessageDescriptor → Nat
  | [] => 0
  | m :: ms => max (m.nesting + 1) (MessageDescriptor.nestingOf ms)

end

def MethodDescriptor.message (m : MethodDescriptor) : Message :=
  .texts 1 m.name.toList <| .texts 2 m.inputType.toList <| .texts 3 m.outputType.toList <|
    .flags 5 m.clientStreaming.toList <| .flags 6 m.serverStreaming.toList .nil

def ServiceDescriptor.message (s : ServiceDescriptor) : Message :=
  .texts 1 s.name.toList <| .messages 2 (s.methods.map MethodDescriptor.message) .nil

def NamingOptions.message (o : NamingOptions) : Message :=
  .texts 1 o.package.toList <| .texts 8 o.outerContainer.toList <|
    .flags 10 o.multipleFiles.toList .nil

def enumMessage (name : Option String) : Message := .texts 1 name.toList .nil

def FileDescriptor.message (f : FileDescriptor) : Message :=
  .texts 1 f.name.toList <| .texts 2 f.package.toList <| .texts 3 f.dependencies <|
    .messages 4 (f.messages.map MessageDescriptor.message) <|
    .messages 5 (f.enums.map enumMessage) <|
    .messages 6 (f.services.map ServiceDescriptor.message) <|
    .messages 8 (f.options.toList.map NamingOptions.message) .nil

def encodeSet (set : List FileDescriptor) : Message :=
  .messages 1 (set.map FileDescriptor.message) .nil

section ReadBack

theorem getLast?_toList {α : Type} (value : Option α) : value.toList.getLast? = value := by
  cases value <;> rfl

theorem flag_getLast? (flag : Option Bool) :
    (flag.toList.map Bool.toNat).getLast?.map (· != 0) = flag := by
  rcases flag with _ | _ | _ <;> rfl

theorem MessageDescriptor.messagesOf_eq (ms : List MessageDescriptor) :
    MessageDescriptor.messagesOf ms = .messages 3 (ms.map MessageDescriptor.message) .nil := by
  induction ms with
  | nil => rfl
  | cons m ms ih =>
    rw [MessageDescriptor.messagesOf, ih]
    rfl

theorem MessageDescriptor.nestedOf_texts (texts : List String) (r : Record) :
    MessageDescriptor.nestedOf (texts.map (fun s => (1, Value.text s)) ++ r) =
      MessageDescriptor.nestedOf r := by
  induction texts with
  | nil => rfl
  | cons s texts ih => simpa [MessageDescriptor.nestedOf, MessageDescriptor.ofField?] using ih

mutual

theorem MessageDescriptor.ofRecord_record :
    (m : MessageDescriptor) → MessageDescriptor.ofRecord m.message.record = m
  | .mk name nested => by
    have hname : Record.text? 1 (MessageDescriptor.mk name nested).message.record = name := by
      simp [MessageDescriptor.message, MessageDescriptor.messagesOf_eq, Record.text?,
        getLast?_toList]
    have hnested : MessageDescriptor.nestedOf (MessageDescriptor.mk name nested).message.record =
        nested := by
      rw [MessageDescriptor.message, Message.record_texts, MessageDescriptor.nestedOf_texts,
        MessageDescriptor.nestedOf_record nested]
    rw [MessageDescriptor.ofRecord, hname, hnested]

theorem MessageDescriptor.nestedOf_record : (ms : List MessageDescriptor) →
    MessageDescriptor.nestedOf (MessageDescriptor.messagesOf ms).record = ms
  | [] => rfl
  | m :: ms => by
    have hm : MessageDescriptor.ofValue? (.message m.message.record) = some m :=
      congrArg some (MessageDescriptor.ofRecord_record m)
    simp [MessageDescriptor.messagesOf, Message.record, MessageDescriptor.nestedOf,
      MessageDescriptor.ofField?, hm, MessageDescriptor.nestedOf_record ms]

end

theorem MethodDescriptor.ofRecord_record (m : MethodDescriptor) :
    MethodDescriptor.ofRecord m.message.record = m := by
  simp [MethodDescriptor.ofRecord, MethodDescriptor.message, Record.text?, Record.flag?,
    getLast?_toList, flag_getLast?, -List.getLast?_map]

theorem ServiceDescriptor.ofRecord_record (s : ServiceDescriptor) :
    ServiceDescriptor.ofRecord s.message.record = s := by
  simp [ServiceDescriptor.ofRecord, ServiceDescriptor.message, Record.text?, getLast?_toList,
    Function.comp_def, MethodDescriptor.ofRecord_record]

theorem NamingOptions.ofRecord_record (o : NamingOptions) :
    NamingOptions.ofRecord o.message.record = o := by
  simp [NamingOptions.ofRecord, NamingOptions.message, Record.text?, Record.flag?,
    getLast?_toList, flag_getLast?, -List.getLast?_map]

theorem enumMessage_name (name : Option String) :
    Record.text? 1 (enumMessage name).record = name := by
  simp [enumMessage, Record.text?, getLast?_toList]

theorem FileDescriptor.ofRecord_record (f : FileDescriptor) :
    FileDescriptor.ofRecord f.message.record = f := by
  have hparts : Record.messages 8 f.message.record =
      f.options.toList.map (·.message.record) := by
    simp [FileDescriptor.message]
  have hoptions : (Record.merged? 8 f.message.record).map NamingOptions.ofRecord = f.options := by
    rw [Record.merged?, hparts]
    cases f.options with
    | none => rfl
    | some o => simp [NamingOptions.ofRecord_record]
  have henums : (Record.messages 5 f.message.record).map (·.text? 1) = f.enums := by
    simp [FileDescriptor.message, Function.comp_def, enumMessage_name]
  rw [FileDescriptor.ofRecord, hoptions, henums]
  simp [FileDescriptor.message, Record.text?, getLast?_toList, Function.comp_def,
    MessageDescriptor.ofRecord_record, ServiceDescriptor.ofRecord_record]

theorem ofRecord_encodeSet (set : List FileDescriptor) :
    (Record.messages 1 (encodeSet set).record).map FileDescriptor.ofRecord = set := by
  simp [encodeSet, Function.comp_def, FileDescriptor.ofRecord_record]

end ReadBack

section Layouts

mutual

theorem MessageDescriptor.isFor : (m : MessageDescriptor) → m.message.IsFor .message
  | .mk _ nested => Message.isFor_texts rfl _ (MessageDescriptor.isFor_messagesOf nested)

theorem MessageDescriptor.isFor_messagesOf :
    (ms : List MessageDescriptor) → (MessageDescriptor.messagesOf ms).IsFor .message
  | [] => trivial
  | m :: ms => ⟨⟨.message, rfl, m.isFor⟩, MessageDescriptor.isFor_messagesOf ms⟩

end

theorem MethodDescriptor.isFor (m : MethodDescriptor) : m.message.IsFor .method := by
  apply Message.isFor_texts rfl
  apply Message.isFor_texts rfl
  apply Message.isFor_texts rfl
  apply Message.isFor_flags rfl
  exact Message.isFor_flags rfl _ trivial

theorem ServiceDescriptor.isFor (s : ServiceDescriptor) : s.message.IsFor .service := by
  apply Message.isFor_texts rfl
  exact Message.isFor_messages rfl (List.forall_mem_map.mpr fun m _ => m.isFor) trivial

theorem NamingOptions.isFor (o : NamingOptions) : o.message.IsFor .fileOptions := by
  apply Message.isFor_texts rfl
  apply Message.isFor_texts rfl
  exact Message.isFor_flags rfl _ trivial

theorem enumMessage_isFor (name : Option String) : (enumMessage name).IsFor .enum :=
  Message.isFor_texts rfl _ trivial

theorem FileDescriptor.isFor (f : FileDescriptor) : f.message.IsFor .file := by
  apply Message.isFor_texts rfl
  apply Message.isFor_texts rfl
  apply Message.isFor_texts rfl
  apply Message.isFor_messages rfl (List.forall_mem_map.mpr fun m _ => m.isFor)
  apply Message.isFor_messages rfl (List.forall_mem_map.mpr fun name _ => enumMessage_isFor name)
  apply Message.isFor_messages rfl (List.forall_mem_map.mpr fun s _ => s.isFor)
  exact Message.isFor_messages rfl (List.forall_mem_map.mpr fun o _ => o.isFor) trivial

theorem isFor_encodeSet (set : List FileDescriptor) : (encodeSet set).IsFor .fileSet :=
  Message.isFor_messages rfl (List.forall_mem_map.mpr fun f _ => f.isFor) trivial

end Layouts

section Heights

mutual

theorem MessageDescriptor.height_message : (m : MessageDescriptor) → m.message.height = m.nesting
  | .mk _ nested => by
    rw [MessageDescriptor.message, Message.height_texts,
      MessageDescriptor.height_messagesOf nested, MessageDescriptor.nesting]

theorem MessageDescriptor.height_messagesOf : (ms : List MessageDescriptor) →
    (MessageDescriptor.messagesOf ms).height = MessageDescriptor.nestingOf ms
  | [] => rfl
  | m :: ms => by
    rw [MessageDescriptor.messagesOf, Message.height, MessageDescriptor.height_message m,
      MessageDescriptor.height_messagesOf ms, MessageDescriptor.nestingOf]

end

theorem MethodDescriptor.height_message (m : MethodDescriptor) : m.message.height = 0 := by
  simp [MethodDescriptor.message, Message.height]

theorem ServiceDescriptor.height_message_le (s : ServiceDescriptor) : s.message.height ≤ 1 := by
  rw [ServiceDescriptor.message, Message.height_texts, Message.height_messages_le_iff]
  simp [MethodDescriptor.height_message, Message.height]

theorem NamingOptions.height_message (o : NamingOptions) : o.message.height = 0 := by
  simp [NamingOptions.message, Message.height]

/-- Services take two levels, and all else beside the messages takes fewer. -/
theorem FileDescriptor.height_message_le_iff (f : FileDescriptor) {depth : Nat}
    (hdepth : 2 ≤ depth) :
    f.message.height ≤ depth ↔ ∀ m ∈ f.messages, m.nesting + 1 ≤ depth := by
  have hservices : ∀ s ∈ f.services, s.message.height + 1 ≤ depth := by
    intro s _
    have hs := s.height_message_le
    omega
  have hone : 1 ≤ depth := by omega
  simp only [FileDescriptor.message, Message.height_texts, Message.height_messages_le_iff,
    List.forall_mem_map, MessageDescriptor.height_message, NamingOptions.height_message,
    enumMessage, Message.height]
  exact ⟨fun h => h.1, fun h => ⟨h, fun _ _ => hone, hservices, fun _ _ => hone, depth.zero_le⟩⟩

theorem height_encodeSet_le_iff (set : List FileDescriptor) :
    (encodeSet set).height ≤ depthLimit ↔
      ∀ f ∈ set, ∀ m ∈ f.messages, m.nesting + 2 ≤ depthLimit := by
  rw [encodeSet, Message.height_messages_le_iff]
  simp only [List.forall_mem_map, Message.height, Nat.zero_le, and_true]
  refine forall₂_congr fun f _ => ?_
  have hfile : f.message.height ≤ 99 ↔ ∀ m ∈ f.messages, m.nesting + 1 ≤ 99 :=
    f.height_message_le_iff (by decide)
  rw [depthLimit]
  constructor
  · intro h m hm
    have hnesting := hfile.mp (by omega) m hm
    omega
  · intro h
    have hheight := hfile.mpr fun m hm => by have := h m hm; omega
    omega

end Heights

/-- What is read from a message depends on its known fields, and on its height against the limit. -/
theorem decodeSet?_bytes {set : List FileDescriptor} {m : Message} (hm : m.IsFor .fileSet)
    (hrecord : m.record = (encodeSet set).record) (hsize : m.bytes.length < 2 ^ 64) :
    decodeSet? m.bytes = if m.height ≤ depthLimit then some set else none := by
  rw [decodeSet?, Message.record?_bytes hm hsize, apply_ite (Option.map _), Option.map_some,
    Option.map_none, hrecord, ofRecord_encodeSet]

theorem decodeSet?_of_inserted {set : List FileDescriptor} {m : Message}
    (h : Message.Inserted .fileSet (encodeSet set) m) (hsize : m.bytes.length < 2 ^ 64) :
    decodeSet? m.bytes = if m.height ≤ depthLimit then some set else none :=
  decodeSet?_bytes (h.isFor (isFor_encodeSet set)) h.record_eq hsize

theorem decodeSet?_of_nesting {set : List FileDescriptor}
    (hnesting : ∀ f ∈ set, ∀ m ∈ f.messages, m.nesting + 2 ≤ depthLimit)
    (hsize : (encodeSet set).bytes.length < 2 ^ 64) :
    decodeSet? (encodeSet set).bytes = some set := by
  rw [decodeSet?_bytes (isFor_encodeSet set) rfl hsize,
    if_pos ((height_encodeSet_le_iff set).mpr hnesting)]

/-- Reading undoes writing for every set whose messages nest within the limit. Foreign fields put
in at any level change nothing while they stay within the limit too. Beyond it the set is refused,
and it is never read as another one. -/
theorem decodeSet?_encodeSet (set : List FileDescriptor) :
    ((∀ f ∈ set, ∀ m ∈ f.messages, m.nesting + 2 ≤ depthLimit) →
      (encodeSet set).bytes.length < 2 ^ 64 → decodeSet? (encodeSet set).bytes = some set) ∧
    ∀ m, Message.Inserted .fileSet (encodeSet set) m → m.bytes.length < 2 ^ 64 →
      decodeSet? m.bytes = if m.height ≤ depthLimit then some set else none :=
  ⟨decodeSet?_of_nesting, fun _ => decodeSet?_of_inserted⟩

/-- A group with a field in it, none of which a descriptor set knows. -/
def stray : Foreign := .group 99 (.single 1 (.varint 300) rfl .nil) .nil

def strayBytes : Bytes :=
  writeToken ⟨99, .groupStart⟩ ++
    (writeToken ⟨1, .varint 300⟩ ++ (writeToken ⟨99, .groupEnd⟩ ++ []))

theorem areTokens_stray : AreTokens stray.tokens strayBytes :=
  .write_cons (by decide) (by decide) trivial <|
    .write_cons (by decide) (by decide) (show 300 < 2 ^ 64 by decide) <|
    .write_cons (by decide) (by decide) trivial .nil

def shop : FileDescriptor where
  name := some "a"
  messages := [.mk (some "M") [.mk (some "N") []]]
  services := [{ name := some "S", methods := [{ name := some "r", clientStreaming := some true }] }]

/-- The set of one file with groups before the file, inside a nested message and inside a method. -/
def strayShop : Message :=
  .foreign stray strayBytes <|
    .message 1
      (.text 1 "a" <|
        .message 4 (.text 1 "M" <|
          .message 3 (.foreign stray strayBytes <| .text 1 "N" .nil) .nil) <|
        .message 6 (.text 1 "S" <|
          .message 2 (.text 1 "r" <| .foreign stray strayBytes <| .number 5 1 .nil) .nil) .nil)
      .nil

theorem inserted_strayShop : Message.Inserted .fileSet (encodeSet [shop]) strayShop :=
  .foreign areTokens_stray (by decide) <|
    .message rfl
      (.text _ _ <|
        .message rfl (.text _ _ <|
          .message rfl (.foreign areTokens_stray (by decide) <| .text _ _ .nil) .nil) <|
        .message rfl (.text _ _ <|
          .message rfl (.text _ _ <| .foreign areTokens_stray (by decide) <| .number _ _ .nil)
            .nil) .nil)
      .nil

theorem shop_read_back :
    (∀ f ∈ [shop], ∀ m ∈ f.messages, m.nesting + 2 ≤ depthLimit) ∧
    decodeSet? (encodeSet [shop]).bytes = some [shop] ∧
    Message.Inserted .fileSet (encodeSet [shop]) strayShop ∧
    decodeSet? strayShop.bytes = some [shop] := by
  have hnesting : ∀ f ∈ [shop], ∀ m ∈ f.messages, m.nesting + 2 ≤ depthLimit := by
    simp [shop, MessageDescriptor.nesting, MessageDescriptor.nestingOf, depthLimit]
  refine ⟨hnesting, (decodeSet?_encodeSet [shop]).1 hnesting (by decide +kernel),
    inserted_strayShop, ?_⟩
  rw [(decodeSet?_encodeSet [shop]).2 strayShop inserted_strayShop (by decide +kernel)]
  exact if_pos (by decide)

section Deepest

/-- Messages without names, each inside the one before. -/
def chain : Nat → MessageDescriptor
  | 0 => .mk none []
  | n + 1 => .mk none [chain n]

def chainAround (innermost : Message) : Nat → Message
  | 0 => innermost
  | n + 1 => .message 3 (chainAround innermost n) .nil

theorem nesting_chain (n : Nat) : (chain n).nesting = n := by
  induction n with
  | zero => rfl
  | succ n ih =>
    simp [chain, MessageDescriptor.nesting, MessageDescriptor.nestingOf, ih]

theorem message_chain (n : Nat) : (chain n).message = chainAround .nil n := by
  induction n with
  | zero => rfl
  | succ n ih => exact congrArg (Message.message 3 · .nil) ih

theorem height_chainAround (innermost : Message) (n : Nat) :
    (chainAround innermost n).height = n + innermost.height := by
  induction n with
  | zero => exact (Nat.zero_add _).symm
  | succ n ih =>
    rw [chainAround, Message.height, ih, Message.height]
    omega

theorem inserted_chainAround {innermost : Message}
    (h : Message.Inserted .message .nil innermost) (n : Nat) :
    Message.Inserted .message (chainAround .nil n) (chainAround innermost n) := by
  induction n with
  | zero => exact h
  | succ n ih => exact .message rfl ih .nil

theorem length_chainAround_le (innermost : Message) (n : Nat) :
    (chainAround innermost n).bytes.length ≤ 20 * n + innermost.bytes.length := by
  induction n with
  | zero => simp [chainAround]
  | succ n ih =>
    have htoken := length_writeToken_le 3 (chainAround innermost n).bytes
    rw [chainAround, Message.bytes, Message.bytes, List.append_nil]
    omega

def deepFile : FileDescriptor where
  name := some "a.proto"
  messages := [chain 98]

def deepSet (innermost : Message) : Message :=
  .message 1 (.text 1 "a.proto" <| .message 4 (chainAround innermost 98) .nil) .nil

theorem encodeSet_deepFile : encodeSet [deepFile] = deepSet .nil := by
  rw [deepSet, ← message_chain]
  rfl

theorem length_deepSet_lt {innermost : Message} (h : innermost.bytes.length < 2 ^ 32) :
    (deepSet innermost).bytes.length < 2 ^ 64 := by
  have hchain := length_chainAround_le innermost 98
  have hmessage := length_writeToken_le 4 (chainAround innermost 98).bytes
  have hname : (writeToken ⟨1, .delimited (utf8 "a.proto")⟩).length = 9 := by decide +kernel
  have hfile := length_writeToken_le 1 (Message.bytes
    (.text 1 "a.proto" <| .message 4 (chainAround innermost 98) .nil))
  simp only [deepSet, Message.bytes, List.append_nil, List.length_append] at hfile ⊢
  omega

def strayNumber : Message :=
  .foreign (.single 99 (.varint 1) rfl .nil) (writeToken ⟨99, .varint 1⟩ ++ []) .nil

theorem inserted_strayNumber : Message.Inserted .message .nil strayNumber :=
  .foreign (.write_cons (by decide) (by decide) (show 1 < 2 ^ 64 by decide) .nil) (by decide) .nil

/-- A foreign field takes a level of its own, so there is no room for one in the deepest message
that can be read. -/
theorem deepest_message_refuses_foreign :
    (∀ f ∈ [deepFile], ∀ m ∈ f.messages, m.nesting + 2 ≤ depthLimit) ∧
    decodeSet? (encodeSet [deepFile]).bytes = some [deepFile] ∧
    Message.Inserted .fileSet (encodeSet [deepFile]) (deepSet strayNumber) ∧
    decodeSet? (deepSet strayNumber).bytes = none := by
  have hnesting : ∀ f ∈ [deepFile], ∀ m ∈ f.messages, m.nesting + 2 ≤ depthLimit := by
    simp [deepFile, nesting_chain, depthLimit]
  have hinserted : Message.Inserted .fileSet (encodeSet [deepFile]) (deepSet strayNumber) := by
    rw [encodeSet_deepFile]
    exact .message rfl
      (.text _ _ <| .message rfl (inserted_chainAround inserted_strayNumber 98) .nil) .nil
  have hplain : (encodeSet [deepFile]).bytes.length < 2 ^ 64 := by
    rw [encodeSet_deepFile]
    exact length_deepSet_lt (by decide)
  refine ⟨hnesting, decodeSet?_of_nesting hnesting hplain, hinserted, ?_⟩
  rw [decodeSet?_of_inserted hinserted (length_deepSet_lt (by decide))]
  refine if_neg ?_
  simp only [deepSet, Message.height, height_chainAround, strayNumber, Foreign.height, depthLimit]
  decide

end Deepest

end PipelinePlan.Schema
