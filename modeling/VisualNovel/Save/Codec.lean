import VisualNovel.Table
import VisualNovel.Number.Fp
import VisualNovel.Text.Utf8

/-!
# Byte codecs

A codec writes a value as bytes and reads it back from the front of a byte list,
answering the bytes it did not use. Codecs of larger values are put together from
those of their parts: one after the other, with a count in front, or behind a tag.

Naturals take one byte below 251; larger ones take a marker that tells the width, and
that many bytes, the least significant first. Reading accepts any width up to that of
the type. Signed integers alternate around zero.
-/

namespace VisualNovel

/-- A way to write values as bytes and to read them back. -/
structure Codec (α : Type) where
  encode : α → List UInt8
  decode : List UInt8 → Option (α × List UInt8)

namespace Codec

variable {α β : Type}

/-- One byte. -/
def byte : Codec UInt8 where
  encode b := [b]
  decode
    | b :: rest => some (b, rest)
    | [] => none

/-- Reads two values one after the other. -/
def decodePair (a : Codec α) (b : Codec β) (bytes : List UInt8) :
    Option ((α × β) × List UInt8) := do
  let (x, rest) ← a.decode bytes
  let (y, rest) ← b.decode rest
  pure ((x, y), rest)

/-- Two values one after the other. -/
def pair (a : Codec α) (b : Codec β) : Codec (α × β) where
  encode p := a.encode p.1 ++ b.encode p.2
  decode := decodePair a b

/-- Values given by others. -/
def via (c : Codec α) (toValue : α → β) (ofValue : β → α) : Codec β where
  encode v := c.encode (ofValue v)
  decode bytes := (c.decode bytes).map fun (x, rest) => (toValue x, rest)

/-- Values given by some of the others. -/
def viaSome (c : Codec α) (toValue : α → Option β) (ofValue : β → α) : Codec β where
  encode v := c.encode (ofValue v)
  decode bytes := (c.decode bytes).bind fun (x, rest) => (toValue x).map fun v => (v, rest)

/-- The lowest `count` bytes of a natural, the least significant first. -/
def littleEndian : Nat → Nat → List UInt8
  | 0, _ => []
  | count + 1, n => UInt8.ofNat n :: littleEndian count (n / 256)

/-- Reads a natural of `count` bytes, the least significant first. -/
def readLittleEndian : Nat → List UInt8 → Option (Nat × List UInt8)
  | 0, rest => some (0, rest)
  | _ + 1, [] => none
  | count + 1, b :: bytes =>
    (readLittleEndian count bytes).map fun (n, rest) => (b.toNat + 256 * n, rest)

/-- A natural of a fixed number of bytes. -/
def fixed (count : Nat) : Codec Nat where
  encode := littleEndian count
  decode := readLittleEndian count

/-- Writes a natural in the fewest bytes. -/
def encodeNat (n : Nat) : List UInt8 :=
  if n < 251 then [UInt8.ofNat n]
  else if n < 65536 then 251 :: littleEndian 2 n
  else if n < 4294967296 then 252 :: littleEndian 4 n
  else 253 :: littleEndian 8 n

/-- Reads a natural of at most `width` bytes. -/
def decodeNat (width : Nat) : List UInt8 → Option (Nat × List UInt8)
  | [] => none
  | b :: rest =>
    if b < 251 then some (b.toNat, rest)
    else if b = 251 then readLittleEndian 2 rest
    else if b = 252 then readLittleEndian 4 rest
    else if b = 253 ∧ width = 8 then readLittleEndian 8 rest
    else none

/-- A natural of at most four bytes. -/
def nat32 : Codec Nat := ⟨encodeNat, decodeNat 4⟩

/-- A natural of at most eight bytes. -/
def nat64 : Codec Nat := ⟨encodeNat, decodeNat 8⟩

/-- The natural that stands for an integer: zero, minus one, one, minus two and so on. -/
def zigzag (i : Int) : Nat := if 0 ≤ i then 2 * i.toNat else 2 * (-i).toNat - 1

/-- The integer a natural stands for. -/
def unzigzag (n : Nat) : Int := if n % 2 = 0 then (n / 2 : Nat) else -((n / 2 : Nat) : Int) - 1

/-- A 32-bit integer. -/
def int32 : Codec Int32 :=
  nat32.via (fun n => Int32.ofInt (unzigzag n)) fun i => zigzag i.toInt

/-- A truth value, the byte zero or one. -/
def bool : Codec Bool :=
  byte.viaSome (fun b => if b = 0 then some false else if b = 1 then some true else none)
    fun b => if b then 1 else 0

/-- A floating-point number by its bit pattern. -/
def single : Codec Single := (fixed 4).via Fp.ofBits Fp.toBits

/-- Reads so many values. -/
def readMany (c : Codec α) : Nat → List UInt8 → Option (List α × List UInt8)
  | 0, bytes => some ([], bytes)
  | count + 1, bytes => do
    let (x, rest) ← c.decode bytes
    let (xs, rest) ← readMany c count rest
    pure (x :: xs, rest)

/-- A list: its length and its elements. -/
def list (c : Codec α) : Codec (List α) where
  encode xs := nat64.encode xs.length ++ xs.flatMap c.encode
  decode bytes := (nat64.decode bytes).bind fun (count, rest) => readMany c count rest

/-- A value that may be missing: the byte zero, or one and the value. -/
def option (c : Codec α) : Codec (Option α) where
  encode
    | none => [0]
    | some x => 1 :: c.encode x
  decode
    | b :: rest =>
      if b = 0 then some (none, rest)
      else if b = 1 then (c.decode rest).map fun (x, rest) => (some x, rest)
      else none
    | [] => none

/-- Reads so many bytes; none if there are fewer. -/
def readBytes (count : Nat) (bytes : List UInt8) : Option (List UInt8 × List UInt8) :=
  let taken := bytes.take count
  if taken.length = count then some (taken, bytes.drop count) else none

/-- A text: the number of its bytes and its bytes in UTF-8. -/
def string : Codec String where
  encode s := nat64.encode (Text.toBytes s).length ++ Text.toBytes s
  decode bytes := do
    let (count, rest) ← nat64.decode bytes
    let (taken, rest) ← readBytes count rest
    (Text.ofBytes? taken).map fun s => (s, rest)

/-- A table: the number of its entries, and each key with its value. Of entries with
one key the last counts. -/
def table (c : Codec α) : Codec (Table α) :=
  (list (string.pair c)).via Table.ofList Table.entries

end Codec

end VisualNovel
