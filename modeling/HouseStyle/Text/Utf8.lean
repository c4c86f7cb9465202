/-
HouseStyle.Text.Utf8 — from bytes to text.

The first byte of a character fixes how many bytes follow and between which bounds each of them
lies. Bytes that break this are reported with their place: a byte that starts no character, the
bytes in front of one that does not fit, or the bytes of a character that is cut off by the end.
Line ends of all three kinds become line feeds.
-/
import HouseStyle.Text.Quoted

namespace HouseStyle.Utf8

/-- Why bytes are no character. -/
inductive Reason where
  | start
  | continuation
  | cutOff
  deriving DecidableEq, Repr

def Reason.message : Reason → String
  | .start => "invalid start byte"
  | .continuation => "invalid continuation byte"
  | .cutOff => "unexpected end of data"

/-- Bytes that are no character: where they start, the first of them and how many there are. -/
structure Error where
  position : Nat
  first : Nat
  count : Nat
  reason : Reason
  deriving DecidableEq, Repr

def Error.message (e : Error) : String :=
  let place :=
    if e.count = 1 then
      s!"byte 0x{Text.shown (hexDigits 2 e.first)} in position {e.position}"
    else s!"bytes in position {e.position}-{e.position + e.count - 1}"
  s!"'utf-8' codec can't decode {place}: {e.reason.message}"

/-- The part of a first byte that counts, and the bounds of the bytes that follow it. -/
def lead? (b : Nat) : Option (Nat × List (Nat × Nat)) :=
  let tail := (0x80, 0xBF)
  if b < 0x80 then some (b, [])
  else if b < 0xC2 then none
  else if b < 0xE0 then some (b - 0xC0, [tail])
  else if b = 0xE0 then some (0, [(0xA0, 0xBF), tail])
  else if b = 0xED then some (0xD, [(0x80, 0x9F), tail])
  else if b < 0xF0 then some (b - 0xE0, [tail, tail])
  else if b = 0xF0 then some (0, [(0x90, 0xBF), tail, tail])
  else if b < 0xF4 then some (b - 0xF0, [tail, tail, tail])
  else if b = 0xF4 then some (4, [(0x80, 0x8F), tail, tail])
  else none

/-- The code point of the bytes that follow a first byte, with how many of them were read, or the
reason and how many bytes fit. -/
def readTail (code : Nat) (read : Nat) : List (Nat × Nat) → List UInt8 → Except (Reason × Nat) Nat
  | [], _ => .ok code
  | _ :: _, [] => .error (.cutOff, read)
  | (low, high) :: bounds, b :: rest =>
    if low ≤ b.toNat && b.toNat ≤ high then
      readTail (code * 64 + (b.toNat - 0x80)) (read + 1) bounds rest
    else .error (.continuation, read)

/-- The characters of the bytes that stand at a position. -/
def decodeFrom (position : Nat) : List UInt8 → Except Error Text
  | [] => .ok []
  | b :: rest =>
    match lead? b.toNat with
    | none => .error ⟨position, b.toNat, 1, .start⟩
    | some (code, bounds) =>
      match readTail code 1 bounds rest with
      | .error (reason, count) => .error ⟨position, b.toNat, count, reason⟩
      | .ok code => do
        let more ← decodeFrom (position + 1 + bounds.length) (rest.drop bounds.length)
        pure (Char.ofNat code :: more)
termination_by bytes => bytes.length

def decode (bytes : List UInt8) : Except Error Text := decodeFrom 0 bytes

/-- Every line end as a line feed: a carriage return, alone or in front of a line feed, becomes
one. -/
def unifyLineEnds : Text → Text
  | [] => []
  | '\r' :: '\n' :: rest => '\n' :: unifyLineEnds rest
  | '\r' :: rest => '\n' :: unifyLineEnds rest
  | c :: rest => c :: unifyLineEnds rest

def readText (bytes : List UInt8) : Except Error Text := (decode bytes).map unifyLineEnds

end HouseStyle.Utf8
