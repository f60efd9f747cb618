import Marginalia.Decimal.Layout
import Marginalia.Text.Quoted

/-!
# Why settings cannot be read

A settings text is refused for one cause, at one place. The wording of
every cause stands here.
-/

namespace Marginalia.Settings

/-- A value that stands where another kind was wanted. -/
inductive Found where
  | null
  | boolean (b : Bool)
  | integer (n : Int)
  | float (x : Float)
  | text (s : String)
  | sequence
  | map

/-- What was wanted. -/
inductive Wanted where
  | settings
  | text
  | count
  | flag

/-- Why a settings text is refused. -/
inductive Cause where
  /-- A value of another kind stands in the place. -/
  | wrongType (found : Found) (wanted : Wanted)
  /-- The value is of the kind but not in the range. -/
  | wrongValue (found : Found) (wanted : Wanted)
  /-- A setting is given twice. -/
  | duplicateField (key : String)
  | expectedValue
  | expectedWord
  | expectedListEnd
  | expectedObjectEnd
  | expectedColon
  | keyNotText
  | trailingComma
  | trailingCharacters
  | endInValue
  | endInList
  | endInObject
  | endInText
  | invalidNumber
  | numberOutOfRange
  | invalidEscape
  | controlCharacter
  | loneSurrogate
  | missingSurrogate

/-- A settings text that is refused: the cause, and the line and column
of the place. -/
structure Failure where
  cause : Cause
  /-- Counted from one. -/
  line : Nat
  /-- The bytes of the line up to the place. -/
  column : Nat

/-- Numbers are shown positionally from a hundred thousandth up to the
sixteenth place, an integral one with a zero after the point, and else
with a signed exponent. -/
def numberLayout : Decimal.Layout where
  least := -5
  greatest := 15
  integral := ".0"
  mark := "e"
  plus := "+"

/-- What a value is called. -/
def Found.describe : Found → String
  | null => "null"
  | boolean b => "boolean `" ++ toString b ++ "`"
  | integer n => "integer `" ++ toString n ++ "`"
  | float x => "floating point `" ++ numberLayout.write x ++ "`"
  | text s => "string " ++ Text.quoted s
  | sequence => "sequence"
  | map => "map"

/-- What a wanted kind of value is called. -/
def Wanted.describe : Wanted → String
  | settings => "struct Config"
  | text => "a string"
  | count => "usize"
  | flag => "a boolean"

/-- The wording of a cause. -/
def Cause.message : Cause → String
  | wrongType found wanted => "invalid type: " ++ found.describe ++ ", expected " ++ wanted.describe
  | wrongValue found wanted =>
    "invalid value: " ++ found.describe ++ ", expected " ++ wanted.describe
  | duplicateField key => "duplicate field `" ++ key ++ "`"
  | expectedValue => "expected value"
  | expectedWord => "expected ident"
  | expectedListEnd => "expected `,` or `]`"
  | expectedObjectEnd => "expected `,` or `\x7d`"
  | expectedColon => "expected `:`"
  | keyNotText => "key must be a string"
  | trailingComma => "trailing comma"
  | trailingCharacters => "trailing characters"
  | endInValue => "EOF while parsing a value"
  | endInList => "EOF while parsing a list"
  | endInObject => "EOF while parsing an object"
  | endInText => "EOF while parsing a string"
  | invalidNumber => "invalid number"
  | numberOutOfRange => "number out of range"
  | invalidEscape => "invalid escape"
  | controlCharacter => "control character (\\u0000-\\u001F) found while parsing a string"
  | loneSurrogate => "lone leading surrogate in hex escape"
  | missingSurrogate => "unexpected end of hex escape"

/-- The wording of a failure. -/
def Failure.message (f : Failure) : String :=
  f.cause.message ++ " at line " ++ toString f.line ++ " column " ++ toString f.column

end Marginalia.Settings
