import ActionCalls.Source.Declaration
import ActionCalls.Text.Utf8

/-!
# Declarations cut out of bytes

The declarations of a file once more, with every access to the file by byte offsets: the window before a
declaration, its body, and the search for the brace that closes the body. Such an access can **fail**:
an offset lies beyond the text or inside of a character, a part ends before it starts, or what is
counted down falls below zero.
-/

namespace ActionCalls

/-- Why an access by byte offsets fails. -/
inductive AccessFault where
  /-- The offset is beyond the text, or inside of a character. -/
  | noBoundary (offset : Nat)
  /-- The part ends before it starts. -/
  | endsBeforeStart (start stop : Nat)
  /-- An offset or a counter falls below zero. -/
  | belowZero
  deriving Repr, DecidableEq

namespace Text

/-- The text from an offset on. -/
def sliceFrom (s : Text) (start : Nat) : Except AccessFault Text :=
  match s.atByte? start with
  | some rest => .ok rest
  | none => .error (.noBoundary start)

/-- The text from one offset to another. -/
def slice (s : Text) (start stop : Nat) : Except AccessFault Text := do
  if stop < start then .error (.endsBeforeStart start stop)
  else
    let behind ← s.sliceFrom start
    let rest ← s.sliceFrom stop
    return behind.take (behind.length - rest.length)

/-- An offset between two characters at or below another one. The offset goes down byte by byte. -/
def floorBoundary (s : Text) : (offset : Nat) → Except AccessFault Nat
  | 0 => if (s.atByte? 0).isSome then .ok 0 else .error .belowZero
  | offset + 1 =>
      if (s.atByte? (offset + 1)).isSome then .ok (offset + 1) else floorBoundary s offset

end Text

/-- The offset at which a match starts. -/
def Match.start {α : Type} (found : Match α) : Nat :=
  found.before.byteLength

/-- The offset at which a match in the text ends. -/
def Match.stop {α : Type} (s : Text) (found : Match α) : Nat :=
  s.byteLength - found.after.byteLength

namespace Source

/-- How many bytes stand in front of the brace that closes all open blocks, `depth` of them being open
at the start. -/
def closingByte : (depth : Nat) → Bytes → Except AccessFault (Option Nat)
  | _, [] => .ok none
  | depth, byte :: bytes =>
      if byte = '{'.toUInt8 then (closingByte (depth + 1) bytes).map (Option.map (· + 1))
      else if byte = '}'.toUInt8 then
        match depth with
        | 0 => .error .belowZero
        | 1 => .ok (some 0)
        | depth + 2 => (closingByte (depth + 1) bytes).map (Option.map (· + 1))
      else (closingByte depth bytes).map (Option.map (· + 1))

/-- The inside of the first brace block at or behind an offset; empty when no block opens or the first
one is never closed. -/
def sliceBody (s : Text) (offset : Nat) : Except AccessFault Text := do
  let behind ← s.sliceFrom offset
  if '{' ∉ behind then return []
  else
    let opening := offset + Text.byteLength (behind.takeWhile (· ≠ '{'))
    let bytes := Utf8.encode s
    if bytes.length < opening then .error (.noBoundary opening)
    else
      match ← closingByte 0 (bytes.drop opening) with
      | none => return []
      | some n => s.slice (opening + 1) (opening + n)

/-- The method declaration that a matched signature stands for, cut out of the text. -/
def Signature.slice (lookback : Nat) (s : Text) (found : Match Signature) :
    Except AccessFault MethodDeclaration := do
  let windowStart ← s.floorBoundary (found.start - lookback)
  let window ← s.slice windowStart found.start
  let body ← sliceBody s (found.stop s)
  return {
    name := found.value.name
    accessLevel := Source.accessLevel found.value.modifiers
    isStatic := found.value.modifiers.contains .static
    annotations := Source.annotations window
    body := body
    offset := found.start }

/-- The method declarations of a file, cut out of its text. -/
def sliceDeclarations (lookback : Nat) (s : Text) : Except AccessFault (List MethodDeclaration) :=
  ((signature.allMatches s).filter fun found => found.value.declares).mapM
    (Signature.slice lookback s)

end Source

end ActionCalls
