import TestGrid.Text.Basic

/-!
# Texts as bytes

A stored text is a sequence of bytes in UTF-8. Every text has its bytes
(`Text.encode`); bytes that are no text are refused with the place and the
reason of the first flaw (`Text.decode`), so that a message can name them.
-/

namespace TestGrid.Text

/-- Why a sequence of bytes stops being a text. -/
inductive Flaw where
  /-- No character begins with this byte. -/
  | start
  /-- A character breaks off, for a byte follows that cannot continue it. -/
  | continuation
  /-- The bytes end within a character. -/
  | truncated
  deriving DecidableEq, Repr

/-- The first flaw of a sequence of bytes: the positions of the first and the
    last byte at fault, the first byte and the reason. -/
structure DecodeFault where
  first : Nat
  last : Nat
  byte : UInt8
  flaw : Flaw
  deriving DecidableEq, Repr

/-- The wording of a flaw. -/
def Flaw.message : Flaw → String
  | .start => "invalid start byte"
  | .continuation => "invalid continuation byte"
  | .truncated => "unexpected end of data"

/-- The wording of a decoding fault, which shows the byte if only one is at
    fault. -/
def DecodeFault.message (f : DecodeFault) : String :=
  let place :=
    if f.first = f.last then
      let digits := Nat.toDigits 16 f.byte.toNat
      let hex := List.replicate (2 - digits.length) '0' ++ digits
      s!"byte 0x{String.ofList hex} in position {f.first}"
    else s!"bytes in position {f.first}-{f.last}"
  s!"'utf-8' codec can't decode {place}: {f.flaw.message}"

/-- The bytes that may follow a first byte, one range for each: the second byte
    is held to a narrower range where a shorter form exists, where a surrogate
    would arise and beyond the last code point. Nothing begins with the other
    bytes. -/
def continuations (b : UInt8) : Option (List (UInt8 × UInt8)) :=
  if b < 0x80 then some []
  else if 0xC2 ≤ b && b ≤ 0xDF then some [(0x80, 0xBF)]
  else if 0xE0 ≤ b && b ≤ 0xEF then
    let low := if b = 0xE0 then 0xA0 else 0x80
    let high := if b = 0xED then 0x9F else 0xBF
    some [(low, high), (0x80, 0xBF)]
  else if 0xF0 ≤ b && b ≤ 0xF4 then
    let low := if b = 0xF0 then 0x90 else 0x80
    let high := if b = 0xF4 then 0x8F else 0xBF
    some [(low, high), (0x80, 0xBF), (0x80, 0xBF)]
  else none

/-- How many of the bytes that follow fit their ranges, and whether all that
    are required do or the bytes end before or another byte stands there. -/
def continue? : List (UInt8 × UInt8) → List UInt8 → Nat × Option Flaw
  | [], _ => (0, none)
  | _ :: _, [] => (0, some .truncated)
  | (low, high) :: ranges, b :: bs =>
    if low ≤ b && b ≤ high then
      let (n, flaw) := continue? ranges bs
      (n + 1, flaw)
    else (0, some .continuation)

/-- The first flaw of the bytes that stand from a position on; `skip` of them
    belong to a character that has been read. -/
def firstFlaw (position skip : Nat) : List UInt8 → Option DecodeFault
  | [] => none
  | b :: bs =>
    match skip with
    | k + 1 => firstFlaw (position + 1) k bs
    | 0 =>
      match continuations b with
      | none => some ⟨position, position, b, .start⟩
      | some ranges =>
        match continue? ranges bs with
        | (n, some flaw) => some ⟨position, position + n, b, flaw⟩
        | (n, none) => firstFlaw (position + 1) n bs

/-- The bytes of a text. -/
def encode (t : Text) : ByteArray := (String.ofList t).toUTF8

/-- The text that the bytes stand for. Bytes that stand for none have a flaw;
    the position after the last byte is named if no other is at fault. -/
def decode (bytes : ByteArray) : Except DecodeFault Text :=
  match String.fromUTF8? bytes with
  | some s => .ok s.toList
  | none => .error ((firstFlaw 0 0 bytes.toList).getD ⟨bytes.size, bytes.size, 0, .truncated⟩)

/-- Encoding loses nothing. -/
@[simp] theorem decode_encode (t : Text) : decode (encode t) = .ok t := by
  have h : (encode t).IsValidUTF8 := (String.ofList t).isValidUTF8
  have : String.fromUTF8? (encode t) = some (String.ofList t) := dif_pos h
  simp [decode, this]

end TestGrid.Text
