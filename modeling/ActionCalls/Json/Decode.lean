import ActionCalls.Json.Value
import ActionCalls.Text.Quoted

/-!
# Decoding structured values

A decoder turns a value into a member of a type or says what is wrong with it. Records are written
as objects, or as arrays of their fields in the order of declaration. The members of an object are
looked at in the order of their keys and the first bad one is reported; only then the first field
that is missing, in the order of declaration. Members that name no field do not count.
-/

namespace ActionCalls.Json

/-! ## What can be wrong -/

/-- Why a value cannot be decoded. -/
inductive DecodeError where
  /-- The value is of another kind than wanted. -/
  | wrongKind (found : Json) (wanted : String)
  /-- The value is of the kind wanted, but not one of its permitted values. -/
  | wrongValue (found : Json) (wanted : String)
  | unknownVariant (name : String) (variants : List String)
  | missingField (name : String)
  /-- A record written as an array has too few items. -/
  | tooShort (length : Nat) (record : String) (fields : Nat)
  /-- A record written as an array has too many items. -/
  | tooLong (length : Nat)

/-- A name between backticks. -/
def ticked (name : String) : String := "`" ++ name ++ "`"

/-- What a message calls a value. -/
def kindText : Json → String
  | .null => "null"
  | .bool b => "boolean " ++ ticked (if b then "true" else "false")
  | .number (.natural n) => "integer " ++ ticked (toString n)
  | .number (.negative n) => "integer " ++ ticked ("-" ++ toString n)
  | .number (.decimal d) => "floating point " ++ ticked (String.ofList d.render)
  | .string s => "string " ++ String.ofList (Text.quote s.toList)
  | .array _ => "sequence"
  | .object _ => "map"

/-- The wording of a decoding error. -/
def DecodeError.message : DecodeError → String
  | .wrongKind found wanted => "invalid type: " ++ kindText found ++ ", expected " ++ wanted
  | .wrongValue found wanted => "invalid value: " ++ kindText found ++ ", expected " ++ wanted
  | .unknownVariant name variants =>
      "unknown variant " ++ ticked name ++ ", expected one of " ++
        ", ".intercalate (variants.map ticked)
  | .missingField name => "missing field " ++ ticked name
  | .tooShort length record fields =>
      "invalid length " ++ toString length ++ ", expected " ++ record ++ " with " ++
        toString fields ++ " elements"
  | .tooLong length =>
      "invalid length " ++ toString length ++ ", expected fewer elements in array"

/-- A decoder for a type. -/
abbrev Decoder (α : Type) := Json → Except DecodeError α

namespace Decoder

/-! ## Simple types -/

def string : Decoder String
  | .string s => .ok s
  | found => .error (.wrongKind found "a string")

/-- A string that is used as a path. -/
def path : Decoder String
  | .string s => .ok s
  | found => .error (.wrongKind found "path string")

def bool : Decoder Bool
  | .bool b => .ok b
  | found => .error (.wrongKind found "a boolean")

/-- A natural number of 64 bits. -/
def count : Decoder Nat
  | .number (.natural n) => .ok n
  | .number (.negative n) => .error (.wrongValue (.number (.negative n)) "usize")
  | found => .error (.wrongKind found "usize")

/-- A list of values. -/
def list (decode : Decoder α) : Decoder (List α)
  | .array items => items.mapM decode
  | found => .error (.wrongKind found "a sequence")

/-- A value that may be null. -/
def optional (decode : Decoder α) : Decoder (Option α)
  | .null => .ok none
  | value => some <$> decode value

end Decoder

/-! ## Records -/

/-- How a record that is written as an array may differ from the list of its fields. -/
structure ArrayForm where
  /-- May fields be missing at the end? -/
  mayBeShort : Bool
  /-- May items without a field follow? -/
  mayBeLong : Bool

/-- An item for each field, and no other. -/
def ArrayForm.exact : ArrayForm := ⟨false, false⟩

/-- How a record is decoded: its fields in the order of declaration, each with the check of its
value, and the record that the values of the fields make. -/
structure RecordDecoder (α : Type) where
  fields : List (String × (Json → Except DecodeError Unit))
  build : (String → Option Json) → Except DecodeError α

namespace RecordDecoder

/-- A record without fields. -/
def pure (a : α) : RecordDecoder α := ⟨[], fun _ => .ok a⟩

/-- One more field: its name, its decoder, and its value where it is absent. -/
def field (r : RecordDecoder (α → β)) (name : String) (decode : Decoder α)
    (absent : Except DecodeError α) : RecordDecoder β where
  fields := r.fields ++ [(name, fun value => (decode value).map fun _ => ())]
  build values := do
    let f ← r.build values
    let a ← match values name with
      | some value => decode value
      | none => absent
    return f a

/-- One more field, which has to be there. -/
def required (r : RecordDecoder (α → β)) (name : String) (decode : Decoder α) : RecordDecoder β :=
  r.field name decode (.error (.missingField name))

/-- One more field, with a default. -/
def withDefault (r : RecordDecoder (α → β)) (name : String) (decode : Decoder α) (a : α) :
    RecordDecoder β :=
  r.field name decode (.ok a)

/-- Checks members one after the other; those that name no field do not count. -/
def check (r : RecordDecoder α) : List (String × Json) → Except DecodeError Unit
  | [] => .ok ()
  | (key, value) :: members => do
      match r.fields.lookup key with
      | some checkField => checkField value
      | none => .ok ()
      r.check members

/-- Decodes a record that messages call `record`. -/
def decode (r : RecordDecoder α) (record : String) (form : ArrayForm) : Decoder α
  | .object members => do
      r.check (members.mergeSort fun a b => a.1 ≤ b.1)
      r.build fun name => members.lookup name
  | .array items => do
      let members := (r.fields.map Prod.fst).zip items
      r.check members
      if !form.mayBeShort && items.length < r.fields.length then
        .error (.tooShort items.length record r.fields.length)
      if !form.mayBeLong && r.fields.length < items.length then
        .error (.tooLong items.length)
      r.build fun name => members.lookup name
  | found => .error (.wrongKind found record)

end RecordDecoder

end ActionCalls.Json
