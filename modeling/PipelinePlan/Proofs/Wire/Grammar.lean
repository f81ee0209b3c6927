import Mathlib
import PipelinePlan.Wire.Token

namespace PipelinePlan.Wire

/-- Bytes that spell a number: seven bits each, the low ones first, and a mark on all bytes but the
last. -/
inductive Spells : Nat → Bytes → Prop where
  | last {b : UInt8} (h : b.toNat < 0x80) : Spells b.toNat [b]
  | more {b : UInt8} {n : Nat} {bytes : Bytes} (h : 0x80 ≤ b.toNat) (rest : Spells n bytes) :
      Spells (b.toNat - 0x80 + 0x80 * n) (b :: bytes)

/-- A number of 64 bits in at most ten bytes. -/
structure IsVarint (n : Nat) (bytes : Bytes) : Prop where
  spells : Spells n bytes
  fits : n < 2 ^ 64
  short : bytes.length ≤ 10

theorem Spells.ne_nil {n : Nat} {bytes : Bytes} (h : Spells n bytes) : bytes ≠ [] := by
  cases h <;> exact List.cons_ne_nil _ _

/-- The room of `room + 1` bytes holds seven bits for each of the first `room` and one bit more. -/
theorem readVarintIn_append {n : Nat} {bytes : Bytes} (h : Spells n bytes) {room : Nat}
    (hlength : bytes.length ≤ room + 1) (hn : n < 2 ^ (7 * room + 1)) (rest : Bytes) :
    readVarintIn (room + 1) (bytes ++ rest) = some (n, rest) := by
  induction h generalizing room with
  | @last b hb =>
    have hlast : ¬(room = 0 ∧ 1 < b.toNat) := by
      rintro ⟨rfl, hbig⟩
      omega
    simp [readVarintIn, hb, hlast]
  | @more b n bytes hb hspells ih =>
    have hpos := List.length_pos_iff.mpr hspells.ne_nil
    rw [List.length_cons] at hlength
    obtain ⟨room, rfl⟩ : ∃ r, room = r + 1 := ⟨room - 1, by omega⟩
    have hpow : 2 ^ (7 * (room + 1) + 1) = 0x80 * 2 ^ (7 * room + 1) := by
      rw [show 7 * (room + 1) + 1 = 7 + (7 * room + 1) by ring, pow_add]
      rfl
    have hread : readVarintIn (room + 1) (bytes ++ rest) = some (n, rest) :=
      ih (by omega) (by omega)
    rw [List.cons_append, readVarintIn, if_neg (by omega), hread]
    rfl

theorem readVarint_append {n : Nat} {bytes : Bytes} (h : IsVarint n bytes) (rest : Bytes) :
    readVarint (bytes ++ rest) = some (n, rest) :=
  readVarintIn_append h.spells h.short h.fits rest

theorem readBytes_append (bytes rest : Bytes) :
    readBytes bytes.length (bytes ++ rest) = some (bytes, rest) := by
  simp [readBytes]

def Payload.wireType : Payload → Nat
  | varint _ => 0
  | fixed64 _ => 1
  | delimited _ => 2
  | groupStart => 3
  | groupEnd => 4
  | fixed32 _ => 5

/-- Bytes that spell a payload after its key. -/
inductive IsPayload : Payload → Bytes → Prop where
  | varint {value : Nat} {bytes : Bytes} (h : IsVarint value bytes) :
      IsPayload (.varint value) bytes
  | fixed64 {bytes : Bytes} (h : bytes.length = 8) : IsPayload (.fixed64 bytes) bytes
  | delimited {length bytes : Bytes} (h : IsVarint bytes.length length) :
      IsPayload (.delimited bytes) (length ++ bytes)
  | groupStart : IsPayload .groupStart []
  | groupEnd : IsPayload .groupEnd []
  | fixed32 {bytes : Bytes} (h : bytes.length = 4) : IsPayload (.fixed32 bytes) bytes

/-- Bytes that spell a token: a key of 32 bits with a field number that is not zero, and the
payload. -/
structure IsToken (token : Token) (key payload : Bytes) : Prop where
  pos : 0 < token.number
  fits : token.number < 2 ^ 29
  key : IsVarint (8 * token.number + token.payload.wireType) key
  payload : IsPayload token.payload payload

inductive AreTokens : List Token → Bytes → Prop where
  | nil : AreTokens [] []
  | cons {token : Token} {tokens : List Token} {key payload bytes : Bytes}
      (head : IsToken token key payload) (tail : AreTokens tokens bytes) :
      AreTokens (token :: tokens) (key ++ payload ++ bytes)

theorem Payload.wireType_lt (payload : Payload) : payload.wireType < 8 := by
  cases payload <;> simp [wireType]

theorem readPayload_append {payload : Payload} {bytes : Bytes} (h : IsPayload payload bytes)
    (rest : Bytes) : readPayload payload.wireType (bytes ++ rest) = some (payload, rest) := by
  cases h with
  | varint h => simp [Payload.wireType, readPayload, readVarint_append h]
  | fixed64 h => simp [Payload.wireType, readPayload, ← h, readBytes_append]
  | delimited h =>
    simp [Payload.wireType, readPayload, readVarint_append h, readBytes_append]
  | groupStart => rfl
  | groupEnd => rfl
  | fixed32 h => simp [Payload.wireType, readPayload, ← h, readBytes_append]

theorem readToken_append {token : Token} {key payload : Bytes} (h : IsToken token key payload)
    (rest : Bytes) : readToken (key ++ payload ++ rest) = some (token, rest) := by
  have hlt := token.payload.wireType_lt
  have hpos := h.pos
  have hfits := h.fits
  have htype : (8 * token.number + token.payload.wireType) % 8 = token.payload.wireType := by omega
  have hnumber : (8 * token.number + token.payload.wireType) / 8 = token.number := by omega
  have hkey : ¬(0x100000000 ≤ 8 * token.number + token.payload.wireType ∨ token.number = 0) := by
    omega
  rw [readToken, List.append_assoc, readVarint_append h.key]
  simp only [Option.bind_eq_bind, Option.bind_some, htype, hnumber, readPayload_append h.payload]
  simp [hkey]

theorem AreTokens.length_le {tokens : List Token} {bytes : Bytes} (h : AreTokens tokens bytes) :
    tokens.length ≤ bytes.length := by
  induction h with
  | nil => exact le_rfl
  | cons head _ ih =>
    have hpos := List.length_pos_iff.mpr head.key.spells.ne_nil
    simp only [List.length_cons, List.length_append]
    omega

theorem AreTokens.append {tokens more : List Token} {bytes bytes' : Bytes}
    (h : AreTokens tokens bytes) (h' : AreTokens more bytes') :
    AreTokens (tokens ++ more) (bytes ++ bytes') := by
  induction h with
  | nil => exact h'
  | cons head _ ih =>
    rw [List.cons_append, List.append_assoc]
    exact .cons head ih

theorem readTokens_of_areTokens {tokens : List Token} {bytes : Bytes} (h : AreTokens tokens bytes)
    {fuel : Nat} (hfuel : tokens.length ≤ fuel) : readTokens fuel bytes = some tokens := by
  induction h generalizing fuel with
  | nil => cases fuel <;> rfl
  | @cons token tokens key payload bytes head _ ih =>
    obtain ⟨fuel, rfl⟩ : ∃ n, fuel = n + 1 := ⟨fuel - 1, by simp at hfuel; omega⟩
    have hne : key ++ payload ++ bytes ≠ [] := by simp [head.key.spells.ne_nil]
    rw [readTokens, readToken_append head]
    · simp [ih (Nat.le_of_succ_le_succ hfuel)]
    · exact hne

/-- Every spelling of tokens is read as these tokens. -/
theorem tokens?_of_areTokens {tokens : List Token} {bytes : Bytes} (h : AreTokens tokens bytes) :
    tokens? bytes = some tokens :=
  readTokens_of_areTokens h h.length_le

/-- The shortest spelling of a number, if it has room in `room` bytes. -/
def writeVarintIn : Nat → Nat → Bytes
  | 0, _ => []
  | room + 1, n =>
    if n < 0x80 then [n.toUInt8] else (n % 0x80 + 0x80).toUInt8 :: writeVarintIn room (n / 0x80)

def writeVarint (n : Nat) : Bytes := writeVarintIn 10 n

def writePayload : Payload → Bytes
  | .varint value => writeVarint value
  | .delimited bytes => writeVarint bytes.length ++ bytes
  | .fixed64 bytes | .fixed32 bytes => bytes
  | .groupStart | .groupEnd => []

def writeKey (token : Token) : Bytes :=
  writeVarint (8 * token.number + token.payload.wireType)

def writeToken (token : Token) : Bytes := writeKey token ++ writePayload token.payload

/-- Whether a payload has room in the wire format. -/
def Payload.Fits : Payload → Prop
  | varint value => value < 2 ^ 64
  | fixed64 bytes => bytes.length = 8
  | delimited bytes => bytes.length < 2 ^ 64
  | groupStart | groupEnd => True
  | fixed32 bytes => bytes.length = 4

theorem toNat_toUInt8 {n : Nat} (h : n < 0x100) : n.toUInt8.toNat = n := by
  simp [Nat.mod_eq_of_lt h]

theorem length_writeVarintIn_le (room n : Nat) : (writeVarintIn room n).length ≤ room := by
  induction room generalizing n with
  | zero => exact le_rfl
  | succ room ih =>
    rw [writeVarintIn]
    split
    · simp
    · rw [List.length_cons]
      exact Nat.succ_le_succ (ih _)

theorem length_writeToken_le (n : Nat) (bytes : Bytes) :
    (writeToken ⟨n, .delimited bytes⟩).length ≤ 20 + bytes.length := by
  have hkey := length_writeVarintIn_le 10 (8 * n + (Payload.delimited bytes).wireType)
  have hlength := length_writeVarintIn_le 10 bytes.length
  simp only [writeToken, writeKey, writePayload, writeVarint, List.length_append]
  omega

theorem spells_singleton {n : Nat} (h : n < 0x80) : Spells n [n.toUInt8] := by
  have hbyte : n.toUInt8.toNat = n := toNat_toUInt8 (by omega)
  have hspells := Spells.last (b := n.toUInt8) (by omega)
  rwa [hbyte] at hspells

theorem spells_writeVarintIn {room n : Nat} (h : n < 2 ^ (7 * (room + 1))) :
    Spells n (writeVarintIn (room + 1) n) := by
  induction room generalizing n with
  | zero =>
    have hsmall : n < 0x80 := h
    rw [writeVarintIn, if_pos hsmall]
    exact spells_singleton hsmall
  | succ room ih =>
    rw [writeVarintIn]
    split
    · next hsmall => exact spells_singleton hsmall
    · have hbyte : (n % 0x80 + 0x80).toUInt8.toNat = n % 0x80 + 0x80 := toNat_toUInt8 (by omega)
      have hpow : 2 ^ (7 * (room + 1 + 1)) = 0x80 * 2 ^ (7 * (room + 1)) := by
        rw [show 7 * (room + 1 + 1) = 7 + 7 * (room + 1) by ring, pow_add]
        rfl
      have hspells := Spells.more (b := (n % 0x80 + 0x80).toUInt8) (by omega)
        (ih (n := n / 0x80) (by omega))
      rwa [hbyte, show n % 0x80 + 0x80 - 0x80 + 0x80 * (n / 0x80) = n by omega] at hspells

theorem isVarint_writeVarint {n : Nat} (h : n < 2 ^ 64) : IsVarint n (writeVarint n) where
  spells := spells_writeVarintIn (h.trans (by norm_num))
  fits := h
  short := length_writeVarintIn_le 10 n

theorem isPayload_writePayload {payload : Payload} (h : payload.Fits) :
    IsPayload payload (writePayload payload) := by
  cases payload with
  | varint value => exact .varint (isVarint_writeVarint h)
  | fixed64 bytes => exact .fixed64 h
  | delimited bytes => exact .delimited (isVarint_writeVarint h)
  | groupStart => exact .groupStart
  | groupEnd => exact .groupEnd
  | fixed32 bytes => exact .fixed32 h

theorem isToken_write {token : Token} (hpos : 0 < token.number) (hfits : token.number < 2 ^ 29)
    (hpayload : token.payload.Fits) :
    IsToken token (writeKey token) (writePayload token.payload) where
  pos := hpos
  fits := hfits
  key := isVarint_writeVarint (by
    have hlt := token.payload.wireType_lt
    omega)
  payload := isPayload_writePayload hpayload

theorem AreTokens.write_cons {token : Token} {tokens : List Token} {bytes : Bytes}
    (hpos : 0 < token.number) (hfits : token.number < 2 ^ 29) (hpayload : token.payload.Fits)
    (h : AreTokens tokens bytes) : AreTokens (token :: tokens) (writeToken token ++ bytes) :=
  .cons (isToken_write hpos hfits hpayload) h

end PipelinePlan.Wire
