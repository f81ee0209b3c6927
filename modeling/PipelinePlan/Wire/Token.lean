namespace PipelinePlan.Wire

abbrev Bytes := List UInt8

/-- A varint of at most `room` bytes, low seven bits first. The tenth byte of a varint has room for
one bit only. -/
def readVarintIn : Nat → Bytes → Option (Nat × Bytes)
  | 0, _ => none
  | _, [] => none
  | room + 1, b :: rest =>
    if b.toNat < 0x80 then
      if room == 0 && 1 < b.toNat then none else some (b.toNat, rest)
    else do
      let (high, rest) ← readVarintIn room rest
      some (b.toNat - 0x80 + 0x80 * high, rest)

def readVarint (bytes : Bytes) : Option (Nat × Bytes) := readVarintIn 10 bytes

def readBytes (n : Nat) (bytes : Bytes) : Option (Bytes × Bytes) :=
  if n ≤ bytes.length then some (bytes.take n, bytes.drop n) else none

inductive Payload where
  | varint (value : Nat)
  | fixed64 (bytes : Bytes)
  | delimited (bytes : Bytes)
  | groupStart
  | groupEnd
  | fixed32 (bytes : Bytes)
  deriving DecidableEq, Repr

structure Token where
  number : Nat
  payload : Payload
  deriving DecidableEq, Repr

/-- What a wire type announces. The types 6 and 7 do not exist. -/
def readPayload : Nat → Bytes → Option (Payload × Bytes)
  | 0, bytes => (readVarint bytes).map fun (value, rest) => (.varint value, rest)
  | 1, bytes => (readBytes 8 bytes).map fun (value, rest) => (.fixed64 value, rest)
  | 2, bytes => do
    let (length, rest) ← readVarint bytes
    let (value, rest) ← readBytes length rest
    some (.delimited value, rest)
  | 3, bytes => some (.groupStart, bytes)
  | 4, bytes => some (.groupEnd, bytes)
  | 5, bytes => (readBytes 4 bytes).map fun (value, rest) => (.fixed32 value, rest)
  | _, _ => none

/-- A key has 32 bits and its field number is not zero. -/
def readToken (bytes : Bytes) : Option (Token × Bytes) := do
  let (key, rest) ← readVarint bytes
  if 0x100000000 ≤ key || key / 8 == 0 then none
  else do
    let (payload, rest) ← readPayload (key % 8) rest
    some (⟨key / 8, payload⟩, rest)

/-- At most `fuel` tokens that use up the bytes. -/
def readTokens : Nat → Bytes → Option (List Token)
  | _, [] => some []
  | 0, _ => none
  | fuel + 1, bytes => do
    let (token, rest) ← readToken bytes
    let tokens ← readTokens fuel rest
    some (token :: tokens)

/-- The tokens of a message. Every token takes at least one byte. -/
def tokens? (bytes : Bytes) : Option (List Token) := readTokens bytes.length bytes

end PipelinePlan.Wire
