/-
The conversions every registry starts with.

Numbers are read from anything numeric: integers only when the number is one of
the type, floating-point numbers rounded, a boolean as not being zero. Strings,
dates, times, UUIDs and URLs are read from text; a date with a time also from
its parts, and a timestamp also from seconds since the epoch. Every value has a
JSON document, and text that is itself a document is read as that.
-/
import RowMapping.Conversion.Registry
import RowMapping.Url.Parser

set_option autoImplicit false

namespace RowMapping

namespace Conversion

variable {α : Type}

/-! ## Numbers -/

/-- A value as a number of an integer type. -/
def readInteger (t : IntegerType) (v : Value) : Except Error Int :=
  match v.asInt64? with
  | none => .error (unreadable v t.name)
  | some i =>
    if t.contains i.toInt then .ok i.toInt else .error (.conversion (.outOfRange i t))

/-- Numeric values to an integer type. -/
def integer (t : IntegerType) : TypeConversion α :=
  .ofFunction (.integer t) (.integer t) (fun _ => rfl) (readInteger t)

/-- A value as a double. -/
def readDouble (target : String) (v : Value) : Except Error Floating :=
  match v.asDouble? with
  | some x => .ok x
  | none => .error (unreadable v target)

/-- Numeric values to doubles. -/
def double : TypeConversion α :=
  .ofFunction .double .double (fun _ => rfl) (readDouble "f64")

/-- Numeric values to single-precision numbers. -/
def single : TypeConversion α :=
  .ofFunction .single .single (fun _ => rfl) fun v => (readDouble "f32" v).map (·.fit .single)

/-- Numeric values to booleans: everything but zero is true. -/
def boolean : TypeConversion α :=
  .ofFunction .boolean .boolean (fun _ => rfl) fun v => (readDouble "bool" v).map (! ·.isZero)

/-! ## Text -/

/-- A value as text. -/
def readText (target : String) (v : Value) : Except Error String :=
  match v.asText? with
  | some s => .ok s
  | none => .error (unreadable v target)

/-- Textual values to strings. -/
def string : TypeConversion α :=
  .ofFunction .string .string (fun _ => rfl) (readText "String")

/-! ## Dates and times -/

/-- A textual value read by a parser. -/
def readParsed {β : Type} (target : String) (parse : List Char → Option β) (v : Value) :
    Except Error β :=
  match v.asText?.bind fun s => parse s.toList with
  | some b => .ok b
  | none => .error (unreadable v target)

/-- The name of the type of dates with times in these messages. -/
def dateTimeName : String := "PrimitiveDateTime"

/-- The name of the type of timestamps. -/
def timestampName : String := "OffsetDateTime"

/-- Textual values to dates. -/
def dateFromText : TypeConversion α :=
  .ofFunction .date .date (fun _ => rfl) (readParsed "Date" Date.parse)

/-- Textual values to times of day. -/
def timeFromText : TypeConversion α :=
  .ofFunction .time .time (fun _ => rfl) (readParsed "Time" Time.parse)

/-- Textual values to dates with times. -/
def dateTimeFromText : TypeConversion α :=
  .ofFunction .dateTime .dateTime (fun _ => rfl) (readParsed dateTimeName DateTime.parse)

/-- A timestamp, or a date with a time taken for universal time. -/
def parseTimestamp (cs : List Char) : Option Timestamp :=
  (Timestamp.parse cs).or ((DateTime.parse cs).map DateTime.utc)

/-- Textual values to timestamps. -/
def timestampFromText : TypeConversion α :=
  .ofFunction .timestamp .timestamp (fun _ => rfl) (readParsed timestampName parseTimestamp)

/-- Integers to timestamps: seconds since the epoch. -/
def timestampFromInteger : TypeConversion α :=
  .ofFunction .timestamp .timestamp (fun _ => rfl) fun v =>
    match v.asInt64? with
    | none => .error (unreadable v timestampName)
    | some seconds =>
      match Timestamp.ofEpochSeconds? seconds.toInt with
      | some t => .ok t
      | none => .error (.conversion (.unixTime seconds))

/-- Dates with times to timestamps in universal time. -/
def timestampFromDateTime : TypeConversion α :=
  .ofFunction .timestamp .timestamp (fun _ => rfl) fun
    | .dateTime t => .ok t.utc
    | v => .error (unreadable v timestampName)

/-- Dates with times to their dates. -/
def dateFromDateTime : TypeConversion α :=
  .ofFunction .date .date (fun _ => rfl) fun
    | .dateTime t => .ok t.date
    | v => .error (unreadable v "Date")

/-- Timestamps to the date and time of their own place. -/
def dateTimeFromTimestamp : TypeConversion α :=
  .ofFunction .dateTime .dateTime (fun _ => rfl) fun
    | .timestamp t => .ok t.moment
    | v => .error (unreadable v dateTimeName)

/-- Dates to their first moments. -/
def dateTimeFromDate : TypeConversion α :=
  .ofFunction .dateTime .dateTime (fun _ => rfl) fun
    | .date d => .ok ⟨d, .midnight⟩
    | v => .error (unreadable v dateTimeName)

/-! ## Identifiers -/

/-- Textual values to UUIDs. -/
def uuidFromText : TypeConversion α :=
  .ofFunction .uuid .uuid (fun _ => rfl) fun v => do
    let s ← readText "Uuid" v
    let cs := Text.trimBlanks s.toList
    match Uuid.parse cs with
    | some u => .ok u
    | none => .error (.conversion (.uuidText v (Uuid.fault cs)))

/-- Bytes to UUIDs. -/
def uuidFromBlob : TypeConversion α :=
  .ofFunction .uuid .uuid (fun _ => rfl) fun
    | .blob bytes => match Uuid.ofBytes? bytes with
      | some u => .ok u
      | none => .error (.conversion .uuidBytes)
    | v => .error (unreadable v "Uuid")

/-- Textual values to URLs. -/
def urlFromText : TypeConversion α :=
  .ofFunction .url .url (fun _ => rfl) fun v => do
    let s ← readText "Url" v
    match Url.parse (Text.trimBlanks s.toList) with
    | .ok u => .ok u
    | .error cause => .error (.conversion (.urlText v cause))

/-- A writer for the objects of one type; others are refused. -/
def writer (target : TargetType) (write : Object α → Option Value) : Writer α := fun x =>
  match write x with
  | some v => .ok v
  | none => .error (.conversion (.wrongType target))

/-- UUIDs to text. -/
def writeUuid : Writer α := writer .uuid fun
  | .uuid u => some (.text u.text)
  | _ => none

/-- URLs to text. -/
def writeUrl : Writer α := writer .url fun
  | .url u => some (.text u.text)
  | _ => none

/-! ## JSON -/

/-- Any value to its JSON document. -/
def jsonFromAny : TypeConversion α :=
  .ofFunction .json .json (fun _ => rfl) fun v => .ok v.toJson

/-- Text to the JSON document it holds, or else to a JSON string. -/
def jsonFromText : TypeConversion α :=
  .ofFunction .json .json (fun _ => rfl) fun
    | .text s => .ok ((Json.ofText? s).getD (.string s))
    | v => .ok v.toJson

end Conversion

namespace Registry

open Conversion in
/-- The conversions from the database that every registry starts with, in the
order of their registration. -/
def defaultConversions {α : Type} : List (RegisteredConversion α) :=
  IntegerType.all.map (fun t => ⟨.numeric, integer t⟩) ++
  [⟨.numeric, double⟩, ⟨.numeric, single⟩, ⟨.numeric, boolean⟩, ⟨.text, string⟩,
    ⟨.text, dateFromText⟩, ⟨.text, timeFromText⟩, ⟨.text, dateTimeFromText⟩,
    ⟨.text, timestampFromText⟩, ⟨.integer, timestampFromInteger⟩,
    ⟨.dateTime, timestampFromDateTime⟩, ⟨.dateTime, dateFromDateTime⟩,
    ⟨.timestamp, dateTimeFromTimestamp⟩, ⟨.date, dateTimeFromDate⟩,
    ⟨.text, uuidFromText⟩, ⟨.blob, uuidFromBlob⟩, ⟨.text, urlFromText⟩,
    ⟨.any, jsonFromAny⟩, ⟨.text, jsonFromText⟩]

open Conversion in
/-- The registry with the built-in conversions. -/
def withDefaults {α : Type} : Registry α :=
  ⟨defaultConversions.reverse, [(.uuid, writeUuid), (.url, writeUrl)]⟩

/-- A built-in conversion is to an integer type, or to another type without a shape. -/
theorem target_of_mem_withDefaults {α : Type} {c : RegisteredConversion α}
    (h : c ∈ (withDefaults : Registry α).fromDatabase) :
    (∃ t, c = ⟨.numeric, Conversion.integer t⟩) ∨
      c.conversion.target ∈ [TargetType.double, .single, .boolean, .string, .date, .time, .dateTime,
        .timestamp, .uuid, .url, .json] := by
  have hmem : c ∈ (defaultConversions : List (RegisteredConversion α)) := List.mem_reverse.mp h
  rcases List.mem_append.mp hmem with hmem | hmem
  · obtain ⟨t, -, rfl⟩ := List.mem_map.mp hmem
    exact .inl ⟨t, rfl⟩
  · have htarget : c.conversion.target ∈ [TargetType.double, .single, .boolean, .string, .date, .time,
        .dateTime, .timestamp, .timestamp, .timestamp, .date, .dateTime, .dateTime, .uuid, .uuid, .url,
        .json, .json] :=
      List.mem_map_of_mem (f := fun c : RegisteredConversion α => c.conversion.target) hmem
    have hsubset : [TargetType.double, .single, .boolean, .string, .date, .time, .dateTime, .timestamp,
        .timestamp, .timestamp, .date, .dateTime, .dateTime, .uuid, .uuid, .url, .json, .json]
        ⊆ [.double, .single, .boolean, .string, .date, .time, .dateTime, .timestamp, .uuid, .url,
          .json] := by
      decide
    exact .inr (hsubset htarget)

end Registry

end RowMapping
