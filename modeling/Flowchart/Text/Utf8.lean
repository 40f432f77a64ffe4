import Flowchart.Text.Hex

set_option autoImplicit false

/-!
# UTF-8

Bytes of text and text of bytes. Decoding comes in two forms: the strict one stops at the first
fault and says where it lies, and the lossy one puts U+FFFD in place of each fault.

## Main definitions

* `Flowchart.Text.Utf8.encode`: the bytes of a text.
* `Flowchart.Text.Utf8.Piece`, `Flowchart.Text.Utf8.piece`: the character or fault at the head of
  a byte sequence.
* `Flowchart.Text.Utf8.decode`: strict decoding, with the position of the first fault.
* `Flowchart.Text.Utf8.decodeLossy`: decoding with replacement characters.
* `Flowchart.Text.Utf8.unifyNewlines`: text in which a line feed ends every line.

## Design

A first byte determines how many bytes follow it and the range in which each must lie; the ranges
of the second byte exclude overlong forms, surrogates and values above U+10FFFF. A fault covers the
longest head of a well-formed sequence, or one byte if there is none, so lossy decoding writes one
replacement character for each maximal ill-formed part.
-/

namespace Flowchart.Text.Utf8

/-- The UTF-8 bytes of a text. -/
def encode (s : String) : List UInt8 :=
  s.toList.flatMap String.utf8EncodeChar

/-! ### Heads of byte sequences -/

/-- Why a byte sequence does not start with a character. -/
inductive Reason where
  /-- The first byte starts no character. -/
  | badStart
  /-- A later byte does not continue the character. -/
  | badContinuation
  /-- The bytes end within the character. -/
  | truncated
  deriving DecidableEq, Repr

/-- What stands at the head of a byte sequence, with the number of bytes it takes. -/
inductive Piece where
  | char (c : Char) (size : Nat)
  | fault (reason : Reason) (size : Nat)
  deriving DecidableEq, Repr

/-- The number of bytes that a piece takes. -/
def Piece.size : Piece → Nat
  | .char _ n => n
  | .fault _ n => n

/-- The least and the greatest value that a byte may have. -/
abbrev ByteRange := UInt8 × UInt8

/-- The range of a byte that continues a character. -/
def continuation : ByteRange := (0x80, 0xbf)

/-- The ranges of the bytes that follow a first byte; `none` if it starts no character. -/
def trailing (b : UInt8) : Option (List ByteRange) :=
  if b < 0x80 then some []
  else if b < 0xc2 then none
  else if b < 0xe0 then some [continuation]
  else if b < 0xf0 then
    let second := if b = 0xe0 then (0xa0, 0xbf) else if b = 0xed then (0x80, 0x9f) else continuation
    some [second, continuation]
  else if b < 0xf5 then
    let second := if b = 0xf0 then (0x90, 0xbf) else if b = 0xf4 then (0x80, 0x8f) else continuation
    some [second, continuation, continuation]
  else none

/-- The bits of the code point that a first byte holds, by the number of bytes that follow. -/
def leadBits (b : UInt8) : Nat → Nat
  | 0 => b.toNat
  | n + 1 => b.toNat % Nat.pow 2 (5 - n)

/-- Reads the bytes that continue a character: `value` holds the bits and `taken` the number of
the bytes already read. -/
def continued : List ByteRange → (value taken : Nat) → List UInt8 → Piece
  | [], value, taken, _ => .char (Char.ofNat value) taken
  | _ :: _, _, taken, [] => .fault .truncated taken
  | (low, high) :: ranges, value, taken, b :: bytes =>
    if low ≤ b ∧ b ≤ high then continued ranges (value * 64 + b.toNat % 64) (taken + 1) bytes
    else .fault .badContinuation taken

/-- The piece at the head of the sequence of a byte and the bytes after it. -/
def piece (b : UInt8) (bytes : List UInt8) : Piece :=
  match trailing b with
  | none => .fault .badStart 1
  | some ranges => continued ranges (leadBits b ranges.length) 1 bytes

/-! ### Decoding -/

/-- A place where bytes are not UTF-8. -/
structure Fault where
  reason : Reason
  /-- The position of the first byte of the fault. -/
  position : Nat
  /-- The bytes of the fault. -/
  bytes : List UInt8
  deriving DecidableEq, Repr

/-- Decoding after `skip` bytes that belong to a character already read, of which the first has
the given position. -/
def decodeFrom : (skip position : Nat) → List UInt8 → Except Fault (List Char)
  | _, _, [] => .ok []
  | skip + 1, position, _ :: bytes => decodeFrom skip (position + 1) bytes
  | 0, position, b :: bytes =>
    match piece b bytes with
    | .char c size => (c :: ·) <$> decodeFrom (size - 1) (position + 1) bytes
    | .fault reason size => .error ⟨reason, position, (b :: bytes).take size⟩

/-- The text of the bytes, or their first fault. -/
def decode (bytes : List UInt8) : Except Fault String :=
  String.ofList <$> decodeFrom 0 0 bytes

/-- Lossy decoding after `skip` bytes that belong to a piece already read. -/
def decodeLossyFrom : (skip : Nat) → List UInt8 → List Char
  | _, [] => []
  | skip + 1, _ :: bytes => decodeLossyFrom skip bytes
  | 0, b :: bytes =>
    match piece b bytes with
    | .char c size => c :: decodeLossyFrom (size - 1) bytes
    | .fault _ size => '\ufffd' :: decodeLossyFrom (size - 1) bytes

/-- The text of the bytes, with U+FFFD in place of each fault. -/
def decodeLossy (bytes : List UInt8) : String :=
  String.ofList (decodeLossyFrom 0 bytes)

/-! ### Reports and line ends -/

/-- The name of a reason in a report. -/
def Reason.message : Reason → String
  | .badStart => "invalid start byte"
  | .badContinuation => "invalid continuation byte"
  | .truncated => "unexpected end of data"

/-- The report of a fault names the byte, if there is only one, and the positions. -/
def Fault.message (f : Fault) : String :=
  let place := match f.bytes with
    | [b] =>
      "byte 0x" ++ String.ofList (hexDigits 2 b.toNat) ++ " in position " ++ toString f.position
    | bytes => "bytes in position " ++ toString f.position ++ "-"
        ++ toString (f.position + bytes.length - 1)
  "'utf-8' codec can't decode " ++ place ++ ": " ++ f.reason.message

/-- Characters in which a line feed stands for each carriage return, alone or with the line feed
that follows it. -/
def feedLines : List Char → List Char
  | [] => []
  | c :: cs =>
    if c = '\r' then
      if cs.head? = some '\n' then feedLines cs else '\n' :: feedLines cs
    else c :: feedLines cs

/-- A text in which every line ends in a line feed alone. -/
def unifyNewlines (s : String) : String :=
  String.ofList (feedLines s.toList)

end Flowchart.Text.Utf8
