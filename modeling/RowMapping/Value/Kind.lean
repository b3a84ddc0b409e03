/-
The kinds of database values and their order.

Every kind but the most general one has a parent, the next more general kind its
values can also be read as. Two kinds, of numbers and of everything, belong to no
value: they exist to be the parents of others.
-/
set_option autoImplicit false

namespace RowMapping

/-- The kind of a value, or a kind that stands for several others. -/
inductive ValueKind where
  | null
  | boolean
  | integer
  | real
  | numeric
  | text
  | blob
  | date
  | time
  | dateTime
  | timestamp
  | json
  | array
  | any
deriving DecidableEq, Repr

namespace ValueKind

/-- The next more general kind. -/
def parent : ValueKind → Option ValueKind
  | boolean => some integer
  | integer | real => some numeric
  | date | time | dateTime | timestamp | json => some text
  | numeric | text | blob | array | null => some any
  | any => none

/-- A kind followed by its parents, the most specific first. -/
def ancestors : ValueKind → List ValueKind
  | any => [any]
  | null => [null, any]
  | numeric => [numeric, any]
  | integer => [integer, numeric, any]
  | boolean => [boolean, integer, numeric, any]
  | real => [real, numeric, any]
  | text => [text, any]
  | blob => [blob, any]
  | array => [array, any]
  | date => [date, text, any]
  | time => [time, text, any]
  | dateTime => [dateTime, text, any]
  | timestamp => [timestamp, text, any]
  | json => [json, text, any]

/-- Values of kind `other` may be read wherever kind `k` is expected. -/
def assignableFrom (k other : ValueKind) : Bool := other.ancestors.contains k

/-- The name of a kind. -/
def name : ValueKind → String
  | null => "NULL"
  | boolean => "BOOLEAN"
  | integer => "INTEGER"
  | real => "REAL"
  | numeric => "NUMERIC"
  | text => "TEXT"
  | blob => "BLOB"
  | date => "DATE"
  | time => "TIME"
  | dateTime => "DATETIME"
  | timestamp => "TIMESTAMP"
  | json => "JSON"
  | array => "ARRAY"
  | any => "ANY"

/-- All kinds. -/
def all : List ValueKind :=
  [null, boolean, integer, real, numeric, text, blob, date, time, dateTime, timestamp, json,
    array, any]

/-- The kind of a name. -/
def ofName? (name : String) : Option ValueKind := all.find? (·.name == name)

/-- The ancestors of a kind are the kind itself and the ancestors of its parent. -/
theorem ancestors_eq (k : ValueKind) :
    k.ancestors = k :: match k.parent with
      | some p => p.ancestors
      | none => [] := by
  cases k <;> rfl

/-- A kind is among its own ancestors. -/
theorem mem_ancestors_self (k : ValueKind) : k ∈ k.ancestors := by
  cases k <;> decide

/-- The ancestors of an ancestor are ancestors. -/
theorem mem_ancestors_trans {a b c : ValueKind} (hab : b ∈ a.ancestors) (hbc : c ∈ b.ancestors) :
    c ∈ a.ancestors := by
  cases a <;> grind [ancestors]

/-- Kinds are found by their names. -/
theorem ofName?_name (k : ValueKind) : ofName? k.name = some k := by
  cases k <;> decide

end ValueKind

end RowMapping
