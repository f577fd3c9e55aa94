/-!
# Text from bytes

Decoding of UTF-8 with an exact account of the first fault. The decoder reads byte by byte.
A lead byte fixes the ranges in which its continuation bytes may lie, so overlong forms,
surrogates and points beyond the last one are refused at the byte that first shows them.
-/

namespace WordAsm
namespace Text
namespace Utf8

/-- What is wrong with a byte sequence. -/
inductive Reason
  | start
  | continuation
  | ending
  deriving DecidableEq

/-- A sequence of `size` bytes from a position on that is no character. -/
structure Fault where
  position : Nat
  size : Nat
  lead : UInt8
  reason : Reason
  deriving DecidableEq

/-- The customary wording of a reason. -/
def Reason.text : Reason → String
  | .start => "invalid start byte"
  | .continuation => "invalid continuation byte"
  | .ending => "unexpected end of data"

/-- The report of a fault; a single byte is shown, several are given by their positions. -/
def Fault.text (fault : Fault) : String :=
  let reason := fault.reason.text
  let position := fault.position
  if fault.size == 1 then
    let byte := String.ofList ((Nat.toDigits 16 fault.lead.toNat).leftpad 2 '0')
    s!"'utf-8' codec can't decode byte 0x{byte} in position {position}: {reason}"
  else
    let last := fault.position + fault.size - 1
    s!"'utf-8' codec can't decode bytes in position {position}-{last}: {reason}"

/-- A character of which some bytes are still to come. -/
structure Pending where
  lead : UInt8
  read : Nat
  point : Nat
  wanted : (Nat × Nat)
  later : List (Nat × Nat)

/-- Where a decoder stands: bytes read, characters in reverse, and an unfinished character. -/
structure Decoder where
  position : Nat := 0
  text : List Char := []
  pending : Option Pending := none

/-- Ordinary continuation bytes. -/
def continuation : Nat × Nat :=
  (0x80, 0xbf)

/-- What a lead byte announces: its share of the code point, and the bytes that must follow. -/
def announced (lead : Nat) : Option (Nat × (Nat × Nat) × List (Nat × Nat)) :=
  if 0xc2 ≤ lead ∧ lead ≤ 0xdf then some (lead - 0xc0, continuation, [])
  else if lead = 0xe0 then some (0, (0xa0, 0xbf), [continuation])
  else if lead = 0xed then some (0xd, (0x80, 0x9f), [continuation])
  else if 0xe1 ≤ lead ∧ lead ≤ 0xef then some (lead - 0xe0, continuation, [continuation])
  else if lead = 0xf0 then some (0, (0x90, 0xbf), [continuation, continuation])
  else if lead = 0xf4 then some (4, (0x80, 0x8f), [continuation, continuation])
  else if 0xf1 ≤ lead ∧ lead ≤ 0xf3 then
    some (lead - 0xf0, continuation, [continuation, continuation])
  else none

/-- Read one byte. -/
def Decoder.step
    (decoder : Decoder)
    (byte : UInt8) : Except Fault Decoder :=
  match decoder.pending with
  | none =>
      if byte.toNat < 0x80 then
        .ok { position := decoder.position + 1, text := Char.ofNat byte.toNat :: decoder.text }
      else
        match announced byte.toNat with
        | none => .error ⟨decoder.position, 1, byte, .start⟩
        | some (point, wanted, later) =>
            .ok { decoder with
              position := decoder.position + 1
              pending := some ⟨byte, 1, point, wanted, later⟩ }
  | some pending =>
      if pending.wanted.1 ≤ byte.toNat ∧ byte.toNat ≤ pending.wanted.2 then
        let point := pending.point * 64 + (byte.toNat - 0x80)
        match pending.later with
        | [] =>
            .ok { position := decoder.position + 1, text := Char.ofNat point :: decoder.text }
        | wanted :: later =>
            .ok { decoder with
              position := decoder.position + 1
              pending := some ⟨pending.lead, pending.read + 1, point, wanted, later⟩ }
      else
        .error ⟨decoder.position - pending.read, pending.read, pending.lead, .continuation⟩

/-- Close a decoder at the end of its input. -/
def Decoder.finish (decoder : Decoder) : Except Fault (List Char) :=
  match decoder.pending with
  | none => .ok decoder.text.reverse
  | some pending =>
      .error ⟨decoder.position - pending.read, pending.read, pending.lead, .ending⟩

/-- The text that a list of bytes encodes, or the first fault in it. -/
def decode (bytes : List UInt8) : Except Fault (List Char) := do
  let decoder ← bytes.foldlM Decoder.step {}
  decoder.finish

/-- The bytes that encode a text. -/
def encode (text : String) : List UInt8 :=
  text.toList.flatMap String.utf8EncodeChar

end Utf8
end Text
end WordAsm
