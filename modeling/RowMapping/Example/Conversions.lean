/-
Conversions of the example application.
-/
import RowMapping.Conversion.Defaults
import RowMapping.Dialect.Basic
import RowMapping.Example.Data
import RowMapping.Text.Lowercase
import RowMapping.Text.Split

set_option autoImplicit false

namespace RowMapping.Example

/-! ## From the database -/

/-- A conversion to one of the application's own types. -/
def ofSample (t : CustomType) (f : Value → Except Error Sample) : TypeConversion Sample :=
  .ofFunction (.custom t) (.custom t) (fun _ => rfl) f

/-- A value that is no instance of a type. -/
def noInstance {β : Type} (v : Value) (what : String) : Except Error β :=
  .error (Error.conversionText (v.display ++ what))

/-- Text with an at sign to e-mail addresses. -/
def readEmail : TypeConversion Sample := ofSample emailType fun
  | .text s =>
    if s.toList.contains '@' then .ok (.email s)
    else noInstance (.text s) " is not an email address"
  | v => noInstance v " is not an email address"

/-- Anything to e-mail addresses. -/
def anyEmail : TypeConversion Sample := ofSample emailType fun v => .ok (.email v.display)

/-- A real within the bounds of 64-bit integers: what lies beyond them is the bound,
and what is no number is zero. -/
def clamped (x : Floating) : Int :=
  match x, x.roundHalfAway with
  | .infinity negative, _ => if negative then -0x8000000000000000 else 0x7fffffffffffffff
  | _, some i => max (-0x8000000000000000) (min 0x7fffffffffffffff i)
  | _, none => 0

/-- Numbers to amounts, two places to the left of the point. -/
def readCents : TypeConversion Sample := ofSample centsType fun v =>
  match v.asDouble? with
  | some x => .ok (.cents (clamped (x.scale .double 100)))
  | none => noInstance v " is not an amount"

/-- Anything to a text with a tag. -/
def readTagged (tag : String) : TypeConversion Sample :=
  ofSample taggedType fun v => .ok (.tagged tag v.display)

/-- Anything to a string that begins with a tag. -/
def readTaggedString (tag : String) : TypeConversion Sample :=
  .ofFunction .string .string (fun _ => rfl) fun v => .ok (tag ++ ":" ++ v.display)

/-- Refuses every string. -/
def refuseString (tag : String) : TypeConversion Sample :=
  .ofFunction .string .string (fun _ => rfl) fun v =>
    .error (.invalidArgument (.custom (tag ++ " refused " ++ v.display)))

/-- Anything to the length of its text. -/
def readLength : TypeConversion Sample :=
  .ofFunction (.integer .i64) (.integer .i64) (fun _ => rfl) fun v => .ok v.display.length

/-- Anything to the length of its text, which is never missing. -/
def readSomeLength : TypeConversion Sample :=
  .ofFunction (.option (.integer .i64)) (fun i => .present (.integer .i64 i)) (fun _ => rfl)
    fun v => .ok (v.display.length : Int)

/-- The integers among the parts of a text that commas divide. -/
def numbersIn (s : String) : List Int :=
  (Text.split ',' s.toList).filterMap fun part =>
    (Floating.signedDigits? part).filter fun i => fitsInt64 i

/-- Text to the integers in it. -/
def readNumbers : TypeConversion Sample :=
  .ofFunction (.list (.integer .i64))
    (fun is : List Int => .list (.integer .i64) (is.map (Object.integer .i64)))
    (fun _ => rfl) fun v => .ok (numbersIn (v.asText?.getD ""))

/-- Text to colours in any case. -/
def readColor : TypeConversion Sample :=
  .ofFunction (.enumeration color) (.variant color) (fun _ => rfl) fun v =>
    let name := String.ofList ((v.asText?.getD "").toList.map Char.toUpper)
    match color.variants.find? (· == name) with
    | some name => .ok name
    | none => .error (Error.conversionText ("no color " ++ v.display))

/-- Anything to records. -/
def readRecord : TypeConversion Sample :=
  ofSample recordType fun v => .ok (.record .byConversion [.string v.display] [])

/-! ## To the database -/

/-- E-mail addresses to text in lower case. -/
def writeEmail : Writer Sample := Conversion.writer (.custom emailType) fun
  | .custom _ (.email address) => some (.text (String.ofList (Text.lower address.toList)))
  | _ => none

/-- E-mail addresses to text that says so. -/
def writeEmailBoth : Writer Sample := Conversion.writer (.custom emailType) fun
  | .custom _ (.email address) => some (.text ("both:" ++ address))
  | _ => none

/-- Texts with a tag to text, after another tag. -/
def writeTagged (tag : String) : Writer Sample := Conversion.writer (.custom taggedType) fun
  | .custom _ (.tagged own content) => some (.text (tag ++ ":" ++ own ++ ":" ++ content))
  | _ => none

/-- UUIDs to bytes. -/
def writeUuidBytes : Writer Sample := Conversion.writer .uuid fun
  | .uuid u => some (.blob u.bytes)
  | _ => none

/-- URLs to an array of their scheme and nothing. -/
def writeUrlArray : Writer Sample := Conversion.writer .url fun
  | .url u => some (.array [.text u.schemeText, .null])
  | _ => none

/-- Refuses every URL. -/
def refuseUrl (tag : String) : Writer Sample := fun
  | .url u => .error (Error.conversionText (tag ++ " refused " ++ u.text))
  | _ => .error (.conversion (.wrongType .url))

/-! ## Arguments and dialects -/

/-- How the application's objects are shown and written. -/
def style : Argument.Style Sample where
  describe := Sample.describe
  ordinal e name := if e = level then levelOrdinal name else Argument.ordinalOf e name

/-- A dialect that leaves everything as it is, and reads texts as tagged ones. All failures
are the same to it. -/
def plainDialect : Dialect Sample where
  name := "plain"
  extend r := r.register .text (readTagged "dialect")
  begin i := [.foreignText ("START " ++ i.sqlName?.getD "-")]
  convertError source query := .query source query

end RowMapping.Example
