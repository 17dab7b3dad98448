import LineBasic.Text.Hex

/-!
# Strict UTF-8

Bytes are read one at a time. Inside a sequence the state says how many bytes are missing and which
values the next one may have; so a sequence that is too long, a surrogate, or a value beyond the last
code point is refused at the first byte that rules it out. A fault names the bytes of the sequence
that were good so far.
-/

namespace LineBasic.Text.Utf8

set_option autoImplicit false

/-- Why some bytes are not UTF-8: bytes `start` up to, not including, `stop`. The places of a reported
fault are any integers; those that `decode` finds lie within the bytes. -/
structure Fault where
  bytes : List UInt8
  start : Int
  stop : Int
  reason : String
  deriving DecidableEq

/-- The byte at fault, if it is one byte. -/
def Fault.byte? (fault : Fault) : Option UInt8 :=
  if 0 ≤ fault.start ∧ fault.stop = fault.start + 1 then fault.bytes[fault.start.toNat]? else none

/-- What a fault says. One byte is shown; of several only the places are told. -/
def Fault.message (fault : Fault) : String :=
  let place :=
    match fault.byte? with
    | some byte =>
        "byte 0x" ++ String.ofList (hexFixed 2 byte.toNat) ++ s!" in position {fault.start}"
    | none => s!"bytes in position {fault.start}-{fault.stop - 1}"
  "'utf-8' codec can't decode " ++ place ++ ": " ++ fault.reason

/-- A sequence that has begun: the value so far, the bytes read, the bytes missing, and the least and
greatest value of the next one. -/
structure Pending where
  value : Nat
  read : Nat
  missing : Nat
  low : Nat
  high : Nat

/-- The sequence that a byte begins. -/
def lead? (byte : Nat) : Option Pending :=
  if byte < 0xc2 then none
  else if byte < 0xe0 then some ⟨byte - 0xc0, 1, 1, 0x80, 0xbf⟩
  else if byte = 0xe0 then some ⟨0, 1, 2, 0xa0, 0xbf⟩
  else if byte = 0xed then some ⟨0xd, 1, 2, 0x80, 0x9f⟩
  else if byte < 0xf0 then some ⟨byte - 0xe0, 1, 2, 0x80, 0xbf⟩
  else if byte = 0xf0 then some ⟨0, 1, 3, 0x90, 0xbf⟩
  else if byte < 0xf4 then some ⟨byte - 0xf0, 1, 3, 0x80, 0xbf⟩
  else if byte = 0xf4 then some ⟨4, 1, 3, 0x80, 0x8f⟩
  else none

/-- A place and a reason: bytes `start` up to `stop`. -/
structure Stop where
  start : Nat
  stop : Nat
  reason : String

/-- Reads the bytes from position `pos` on. `done` holds the characters before, last one first. -/
def decodeFrom (done : List Char) (pos : Nat) (pending : Option Pending) :
    List UInt8 → Except Stop (List Char)
  | [] =>
      match pending with
      | none => .ok done.reverse
      | some p => .error ⟨pos - p.read, pos, "unexpected end of data"⟩
  | byte :: rest =>
      match pending with
      | none =>
          if byte.toNat < 0x80 then decodeFrom (Char.ofNat byte.toNat :: done) (pos + 1) none rest
          else
            match lead? byte.toNat with
            | none => .error ⟨pos, pos + 1, "invalid start byte"⟩
            | some p => decodeFrom done (pos + 1) (some p) rest
      | some p =>
          if p.low ≤ byte.toNat ∧ byte.toNat ≤ p.high then
            let value := p.value * 64 + byte.toNat % 64
            if p.missing = 1 then decodeFrom (Char.ofNat value :: done) (pos + 1) none rest
            else
              decodeFrom done (pos + 1) (some ⟨value, p.read + 1, p.missing - 1, 0x80, 0xbf⟩) rest
          else .error ⟨pos - p.read, pos, "invalid continuation byte"⟩

/-- The text that bytes stand for. -/
def decode (bytes : List UInt8) : Except Fault (List Char) :=
  match decodeFrom [] 0 none bytes with
  | .ok text => .ok text
  | .error stop => .error ⟨bytes, stop.start, stop.stop, stop.reason⟩

/-- The bytes of a text. -/
def encode (text : String) : List UInt8 := text.toUTF8.data.toList

end LineBasic.Text.Utf8
