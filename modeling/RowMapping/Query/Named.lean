/-
SQL with named parameters.

A text is cut into segments from left to right. Quoted texts, quoted identifiers,
comments and double colons are blocks, copied as they are; a colon with a name is
a parameter; every other character stands for itself, except that a question mark
and a colon without a name are refused. Each segment knows the characters it was
cut from, and it is never empty, so cutting ends.

A parameter becomes a question mark, and the value of its name the argument.
-/
import RowMapping.Query.Basic

set_option autoImplicit false

namespace RowMapping

/-! ## Segments -/

/-- A segment of SQL with named parameters. -/
inductive SqlSegment where
  | block (first : Char) (rest : List Char)
  | parameter (name : List Char)
  | plain (c : Char)
deriving DecidableEq, Repr

namespace SqlSegment

/-- The characters a segment was cut from. -/
def source : SqlSegment → List Char
  | block first rest => first :: rest
  | parameter name => ':' :: name
  | plain c => [c]

/-- The characters a segment is replaced by. -/
def output : SqlSegment → List Char
  | block first rest => first :: rest
  | parameter _ => ['?']
  | plain c => [c]

/-- The name of a parameter. -/
def name? : SqlSegment → Option String
  | parameter name => some (String.ofList name)
  | _ => none

/-- No segment is empty. -/
theorem source_length_pos (s : SqlSegment) : 0 < s.source.length := by
  cases s <;> simp [source]

end SqlSegment

namespace NamedSql

/-- Whether a character may stand in the name of a parameter. -/
def isNameChar (c : Char) : Bool := c.isAlphanum || c == '_'

/-- The start of a text up to the first occurrence of a closing text, which is
included. -/
def takeThrough (closing : List Char) : List Char → Option (List Char)
  | [] => if closing.isEmpty then some [] else none
  | c :: rest =>
    if closing.isPrefixOf (c :: rest) then some closing
    else (takeThrough closing rest).map (c :: ·)

/-- A block that must be closed. -/
def closedBlock (first : Char) (opening closing rest : List Char) :
    Except NamedSqlCause SqlSegment :=
  match takeThrough closing rest with
  | some body => .ok (.block first (opening ++ body))
  | none => .error (.unclosed (String.ofList closing))

/-- A comment up to the end of its line, or of the text. -/
def lineComment (rest : List Char) : SqlSegment :=
  .block '-' ('-' :: (takeThrough ['\n'] rest).getD rest)

/-- A parameter whose name starts a text. -/
def parameter (rest : List Char) : Except NamedSqlCause SqlSegment :=
  let name := rest.takeWhile isNameChar
  if name.isEmpty then .error .namelessParameter else .ok (.parameter name)

/-- The segment that starts with a character and goes on in the rest of a text. -/
def segment (c : Char) (rest : List Char) : Except NamedSqlCause SqlSegment :=
  match c, rest with
  | '\'', rest => closedBlock '\'' [] ['\''] rest
  | '"', rest => closedBlock '"' [] ['"'] rest
  | '/', '*' :: rest => closedBlock '/' ['*'] ['*', '/'] rest
  | ':', ':' :: _ => .ok (.block ':' [':'])
  | '-', '-' :: rest => .ok (lineComment rest)
  | ':', rest => parameter rest
  | '?', _ => .error .placeholder
  | c, _ => .ok (.plain c)

/-- Cut a text into segments. -/
def segments (cs : List Char) : Except NamedSqlCause (List SqlSegment) :=
  match cs with
  | [] => .ok []
  | c :: rest => do
    let s ← segment c rest
    let more ← segments ((c :: rest).drop s.source.length)
    pure (s :: more)
termination_by cs.length
decreasing_by
  have := SqlSegment.source_length_pos s
  simp only [List.length_drop, List.length_cons]
  omega

/-- The SQL text of some segments, with placeholders for the parameters. -/
def sql (parts : List SqlSegment) : String := String.ofList (parts.flatMap SqlSegment.output)

/-- The names of the parameters in the order of their placeholders. -/
def names (parts : List SqlSegment) : List String := parts.filterMap SqlSegment.name?

end NamedSql

/-! ## Values of names -/

variable {α : Type}

/-- Where the values of named parameters come from. -/
abbrev Resolver (α : Type) := String → Except Error (Argument α)

namespace Resolver

/-- The values of a list of names, of which a later one hides an earlier one. -/
def ofPairs (pairs : List (String × Argument α)) : Resolver α := fun name =>
  match pairs.reverse.find? fun p => p.1 == name with
  | some p => .ok p.2
  | none => .error (.unresolved (.unknown name))

/-- The fields of a JSON object. -/
def ofFields (fields : List (String × Json)) : Resolver α := fun name =>
  match Json.field? name fields with
  | some j => .ok (.value (Value.ofJson j))
  | none => .error (.unresolved (.unknown name))

/-- The fields of a JSON document, which has to be an object. -/
def ofDocument : Json → Except Error (Resolver α)
  | .object fields => .ok (ofFields fields)
  | j => .error (.unresolved (.notObject j))

end Resolver

namespace Query

/-- The query of an SQL text with named parameters. The text is cut first; then
the names are resolved in order. -/
def named (sql : String) (resolver : Resolver α) : Except Error (Query α) :=
  match NamedSql.segments sql.toList with
  | .error cause => .error (.sqlSyntax cause sql)
  | .ok parts => do
    let arguments ← (NamedSql.names parts).mapM resolver
    pure ⟨NamedSql.sql parts, arguments⟩

/-- The query of an SQL text whose parameters are the fields of a document, or of
a value that failed to become one. -/
def namedFrom (sql : String) (document : Except String Json) : Except Error (Query α) :=
  match document with
  | .error reason => .error (.unresolved (.unserializable reason))
  | .ok j => do
    let resolver ← Resolver.ofDocument j
    named sql resolver

end Query

end RowMapping
