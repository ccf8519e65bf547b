import ActionCalls.Text.Basic

/-!
# UTF-8

Reading bytes as text, once strictly and once with a replacement character in the place of every
part that is not well formed. The first byte of a character decides how many bytes follow and in
which range the second one lies; that range is what excludes long forms, surrogates and numbers
beyond the last plane. A part that is not well formed reaches as far as it could still have become
a character.
-/

namespace ActionCalls

/-- The content of a file. -/
abbrev Bytes := List UInt8

namespace Utf8

/-- A character begun but not complete: how many bytes it still needs, the range of the next one,
and the value of the bits read so far. -/
structure Pending where
  missing : Nat
  low : Nat
  high : Nat
  value : Nat

/-- What a byte begins. -/
inductive Start where
  | complete (c : Char)
  | begun (p : Pending)
  | illFormed

/-- What a byte begins when it is the first one of a character. -/
def start (byte : UInt8) : Start :=
  let b := byte.toNat
  if b < 0x80 then .complete (Char.ofNat b)
  else if b < 0xC2 then .illFormed
  else if b < 0xE0 then .begun ⟨1, 0x80, 0xBF, b - 0xC0⟩
  else if b = 0xE0 then .begun ⟨2, 0xA0, 0xBF, 0⟩
  else if b = 0xED then .begun ⟨2, 0x80, 0x9F, 0xD⟩
  else if b < 0xF0 then .begun ⟨2, 0x80, 0xBF, b - 0xE0⟩
  else if b = 0xF0 then .begun ⟨3, 0x90, 0xBF, 0⟩
  else if b < 0xF4 then .begun ⟨3, 0x80, 0xBF, b - 0xF0⟩
  else if b = 0xF4 then .begun ⟨3, 0x80, 0x8F, 4⟩
  else .illFormed

/-- The characters that bytes write, `none` standing for each part that is not well formed. The
first argument is the character begun before them. -/
def pieces : Option Pending → Bytes → List (Option Char)
  | none, [] => []
  | some _, [] => [none]
  | begun?, byte :: bytes =>
      let fresh :=
        match start byte with
        | .complete c => some c :: pieces none bytes
        | .begun p => pieces (some p) bytes
        | .illFormed => none :: pieces none bytes
      match begun? with
      | none => fresh
      | some p =>
          if p.low ≤ byte.toNat ∧ byte.toNat ≤ p.high then
            let value := p.value * 0x40 + (byte.toNat - 0x80)
            if p.missing = 1 then some (Char.ofNat value) :: pieces none bytes
            else pieces (some ⟨p.missing - 1, 0x80, 0xBF, value⟩) bytes
          else none :: fresh

/-- The text that bytes write, if they are well formed. -/
def decode? (bytes : Bytes) : Option Text :=
  (pieces none bytes).mapM id

/-- The text that bytes write, with the replacement character for each part that is not well
formed. -/
def decodeLossy (bytes : Bytes) : Text :=
  (pieces none bytes).map fun piece => piece.getD '\uFFFD'

/-- The bytes of a text. -/
def encode (s : Text) : Bytes :=
  s.flatMap String.utf8EncodeChar

end Utf8

end ActionCalls
