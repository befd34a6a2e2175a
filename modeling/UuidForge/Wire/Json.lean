import UuidForge.Text
import UuidForge.Uuid.Text

/-!
# UUIDs in JSON

In a JSON text a UUID is a string with the canonical text. A string is read into UTF-16 code units,
since its escapes stand for single units.
-/

namespace UuidForge

namespace Wire.Json

/-- White space around a value. -/
def isSpace (c : Char) : Bool := c = ' ' || c = '\t' || c = '\n' || c = '\r'

/-- The code unit of an escape of one character. -/
def escapedUnit? (c : Char) : Option Nat :=
  match c with
  | '"' | '\\' | '/' => some c.toNat
  | 'b' => some 8
  | 'f' => some 12
  | 'n' => some 10
  | 'r' => some 13
  | 't' => some 9
  | _ => none

/-- Where a reader stands in a string. -/
inductive Place
  /-- Between two characters. -/
  | plain
  /-- Behind a backslash. -/
  | escape
  /-- In the digits of a code unit: how many follow the next one, and the value so far. -/
  | digits (more value : Nat)
  deriving DecidableEq, Repr

/-- Reads the rest of a string, up to the closing quote: its code units, and what follows. Control
characters must be escaped. -/
def body : Place → List Char → Option (List Nat × List Char)
  | _, [] => none
  | .plain, c :: r =>
    if c = '"' then some ([], r)
    else if c = '\\' then body .escape r
    else if c.toNat < 0x20 then none
    else (body .plain r).map fun (us, rest) => (Text.unitsOf c ++ us, rest)
  | .escape, c :: r =>
    if c = 'u' then body (.digits 3 0) r
    else match escapedUnit? c with
      | some u => (body .plain r).map fun (us, rest) => (u :: us, rest)
      | none => none
  | .digits more value, c :: r =>
    match Text.hexValue? c, more with
    | none, _ => none
    | some d, 0 => (body .plain r).map fun (us, rest) => ((value * 16 + d) :: us, rest)
    | some d, more + 1 => body (.digits more (value * 16 + d)) r

/-- The text of a JSON string, with white space around it. -/
def string? (s : String) : Option String :=
  match s.toList.dropWhile isSpace with
  | '"' :: r =>
    match body .plain r with
    | some (us, rest) => if rest.all isSpace then (Text.ofUnits? us).map String.ofList else none
    | none => none
  | _ => none

end Wire.Json

namespace Uuid

/-- The JSON text of a UUID. -/
def toJson (u : Uuid) : String := "\"" ++ u.text ++ "\""

/-- The UUID in a JSON text. -/
def ofJson? (s : String) : Option Uuid := (Wire.Json.string? s).bind parse?

end Uuid

end UuidForge
