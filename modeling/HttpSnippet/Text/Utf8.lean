import HttpSnippet.Text.Basic

/-!
# UTF-8

Encoding of texts, and a decoder that reads one byte at a time. The decoder refuses overlong forms,
surrogates and code points beyond the last one as soon as the byte that shows them arrives, so an
error names the longest sequence that could still have become a character.
-/
namespace HttpSnippet.Text.Utf8

def encode (t : Text) : List UInt8 := t.flatMap String.utf8EncodeChar

/-- What is said about a text that cannot be encoded, for the surrogates that come first in it. -/
def encodeMessage (t : Text) : Text :=
  let position := (t.takeWhile (!isStandIn ·)).length
  let place : Text := match (t.drop position).takeWhile isStandIn with
    | [c] => "character '\\u" ++ hex 4 (surrogateOf c) ++ "' in position " ++ ofNat position
    | cs => "characters in position " ++ ofNat position ++ "-" ++ ofNat (position + cs.length - 1)
  "'utf-8' codec can't encode " ++ place ++ ": surrogates not allowed"

/-- Why a byte sequence is refused. -/
inductive Fault where
  | invalidStart
  | invalidContinuation
  | unexpectedEnd
deriving DecidableEq, Repr

/-- A refused sequence: where it begins, its bytes and the cause. -/
structure DecodeError where
  position : Nat
  lead : UInt8
  size : Nat
  fault : Fault
deriving DecidableEq, Repr

def Fault.message : Fault → Text
  | .invalidStart => "invalid start byte"
  | .invalidContinuation => "invalid continuation byte"
  | .unexpectedEnd => "unexpected end of data"

def DecodeError.message (e : DecodeError) : Text :=
  let place : Text :=
    if e.size = 1 then "byte 0x" ++ hex 2 e.lead.toNat ++ " in position " ++ ofNat e.position
    else "bytes in position " ++ ofNat e.position ++ "-" ++ ofNat (e.position + e.size - 1)
  "'utf-8' codec can't decode " ++ place ++ ": " ++ e.fault.message

/-- A sequence under way: `missing` more bytes are needed, the next of them between `low` and
`high`; `bits` holds what the bytes so far contribute. -/
structure Pending where
  position : Nat
  lead : UInt8
  size : Nat
  missing : Nat
  low : Nat
  high : Nat
  bits : Nat

/-- The sequence that a lead byte beyond ASCII opens. -/
def Pending.ofLead? (position : Nat) (b : UInt8) : Option Pending :=
  let start (missing low high bits : Nat) : Option Pending :=
    some { position, lead := b, size := 1, missing, low, high, bits }
  let n := b.toNat
  if n < 0xC2 then none
  else if n < 0xE0 then start 1 0x80 0xBF (n - 0xC0)
  else if n = 0xE0 then start 2 0xA0 0xBF 0
  else if n = 0xED then start 2 0x80 0x9F 0xD
  else if n < 0xF0 then start 2 0x80 0xBF (n - 0xE0)
  else if n = 0xF0 then start 3 0x90 0xBF 0
  else if n < 0xF4 then start 3 0x80 0xBF (n - 0xF0)
  else if n = 0xF4 then start 3 0x80 0x8F 4
  else none

def Pending.refused (p : Pending) (fault : Fault) : DecodeError :=
  { position := p.position, lead := p.lead, size := p.size, fault }

/-- Decodes from `position` on, with the sequence under way. -/
def decodeFrom (position : Nat) (pending : Option Pending) : List UInt8 → Except DecodeError Text
  | [] =>
    match pending with
    | none => .ok []
    | some p => .error (p.refused .unexpectedEnd)
  | b :: rest =>
    match pending with
    | none =>
      if b.toNat < 0x80 then
        (decodeFrom (position + 1) none rest).map (Char.ofNat b.toNat :: ·)
      else
        match Pending.ofLead? position b with
        | some p => decodeFrom (position + 1) (some p) rest
        | none => .error { position, lead := b, size := 1, fault := .invalidStart }
    | some p =>
      if p.low ≤ b.toNat && b.toNat ≤ p.high then
        let bits := p.bits * 64 + b.toNat % 64
        if p.missing = 1 then
          (decodeFrom (position + 1) none rest).map (Char.ofNat bits :: ·)
        else
          let missing := p.missing - 1
          let p := { p with size := p.size + 1, missing, low := 0x80, high := 0xBF, bits }
          decodeFrom (position + 1) (some p) rest
      else .error (p.refused .invalidContinuation)

def decode (bytes : List UInt8) : Except DecodeError Text := decodeFrom 0 none bytes

end HttpSnippet.Text.Utf8
