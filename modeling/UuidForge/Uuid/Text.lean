import UuidForge.Text
import UuidForge.Uuid.Basic

/-!
# Canonical text

The canonical text of a UUID has 36 characters: 32 hexadecimal digits in groups of 8, 4, 4, 4 and
12, joined by hyphens. The reader and the writer walk the same list of places, the template.
Writing uses lower-case digits; reading takes either case.
-/

namespace UuidForge

namespace Text

/-- What stands at one place of a canonical text. -/
inductive Place
  | digit
  | hyphen
  deriving DecidableEq, Repr

/-- The 36 places of a canonical text. -/
def template : List Place :=
  List.intercalate [Place.hyphen] ([8, 4, 4, 4, 12].map (List.replicate · Place.digit))

/-- Writes digit values into the digit places of a template. -/
def fill : List Place → List Nat → List Char
  | .hyphen :: ps, ds => '-' :: fill ps ds
  | .digit :: ps, d :: ds => hexDigit d :: fill ps ds
  | _, _ => []

/-- The digit values that a text holds, if it follows a template. -/
def scan : List Place → List Char → Option (List Nat)
  | [], [] => some []
  | .hyphen :: ps, c :: cs => if c = '-' then scan ps cs else none
  | .digit :: ps, c :: cs =>
    match hexValue? c with
    | some d => (scan ps cs).map (d :: ·)
    | none => none
  | _, _ => none

end Text

namespace Uuid

/-- The canonical text, in lower case. -/
def text (u : Uuid) : String :=
  String.ofList (Text.fill Text.template (Radix.digits 16 32 u.toNat))

instance : ToString Uuid := ⟨text⟩

/-- The uniform resource name. -/
def urn (u : Uuid) : String := "urn:uuid:" ++ u.text

/-- The UUID of a canonical text in either case; nothing else is accepted. -/
def parse? (s : String) : Option Uuid :=
  (Text.scan Text.template s.toList).map fun ds => ofNat (Radix.value 16 ds)

end Uuid

end UuidForge
