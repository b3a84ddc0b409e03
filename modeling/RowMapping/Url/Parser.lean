/-
Reading absolute URLs.

The text is cleaned of white space first. A scheme with rules of its own
tolerates any number of slashes and backslashes before its host and insists on
one; a file may have one; other schemes have one only after two slashes, where
it may be empty if nothing comes in front of it, and without a slash at all
their path is opaque. Dot segments are resolved while the
path is read.
-/
import RowMapping.Url.Basic

set_option autoImplicit false

namespace RowMapping.Url

/-! ## Cleaning and the scheme -/

/-- Control characters and the blank, which are ignored at the ends. -/
def isEdge (c : Char) : Bool := c.toNat ≤ 0x20

/-- A text without control characters and blanks at its ends, and without tabs
and line ends. -/
def clean (cs : List Char) : List Char :=
  let trimmed := ((cs.dropWhile isEdge).reverse.dropWhile isEdge).reverse
  trimmed.filter fun c => c != '\t' && c != '\n' && c != '\r'

/-- Whether a character may stand in a scheme after its first letter. -/
def isSchemeChar (c : Char) : Bool := c.isAlphanum || c == '+' || c == '-' || c == '.'

/-- The scheme in lower case, and what follows its colon. -/
def takeScheme (cs : List Char) : Option (List Char × List Char) :=
  let scheme := cs.takeWhile isSchemeChar
  match scheme.head?, cs.dropWhile isSchemeChar with
  | some c, ':' :: rest => if c.isAlpha then some (scheme.map Char.toLower, rest) else none
  | _, _ => none

/-! ## Path, query and fragment -/

/-- Whether a character separates segments. -/
def isSlash (special : Bool) (c : Char) : Bool := c == '/' || (special && c == '\\')

/-- Whether a character ends the path. -/
def endsPath (c : Char) : Bool := c == '?' || c == '#'

/-- A segment that stands for the one it is in. -/
def isSingleDot (cs : List Char) : Bool :=
  let s := String.ofList (cs.map Char.toLower)
  s == "." || s == "%2e"

/-- A segment that stands for the one before it. -/
def isDoubleDot (cs : List Char) : Bool :=
  let s := String.ofList (cs.map Char.toLower)
  s == ".." || s == ".%2e" || s == "%2e." || s == "%2e%2e"

/-- A drive letter: a letter and a colon or a bar. -/
def isDriveLetter : List Char → Bool
  | [a, b] => a.isAlpha && (b == ':' || b == '|')
  | _ => false

/-- Segments without the last one, except that a file keeps its drive letter. -/
def shorten (file : Bool) (names : List (List Char)) : List (List Char) :=
  match names with
  | [name] => if file && isDriveLetter name && name.getLast? == some ':' then names else []
  | _ => names.dropLast

/-- Append the raw segments of a path to segments already read. The last segment
of a path is empty when a dot segment ends it. -/
def resolve (file : Bool) : List (List Char) → List (List Char) → List (List Char)
  | done, [] => done
  | done, [last] =>
    if isDoubleDot last then shorten file done ++ [[]]
    else if isSingleDot last then done ++ [[]]
    else if file && done.isEmpty && isDriveLetter last then [last.take 1 ++ [':']]
    else done ++ [last]
  | done, name :: rest =>
    if isDoubleDot name then resolve file (shorten file done) rest
    else if isSingleDot name then resolve file done rest
    else if file && done.isEmpty && isDriveLetter name then
      resolve file [name.take 1 ++ [':']] rest
    else resolve file (done ++ [name]) rest

/-- Drop the empty segments at the start of the path of a file. -/
def dropEmptyFront : List (List Char) → List (List Char)
  | [] :: name :: rest => dropEmptyFront (name :: rest)
  | names => names

/-- The segments of the text of a path that has lost its first slash. -/
def parseSegments (special file : Bool) (cs : List Char) : List (List Char) :=
  let slashes := cs.map fun c => if isSlash special c then '/' else c
  let names := resolve file [] ((Text.split '/' slashes).map (percentEncode pathSet))
  if file then dropEmptyFront names else names

/-- The path after a host. Special schemes always have one; others have one only
if something is written. -/
def parsePath (scheme cs : List Char) : List (List Char) :=
  let special := isSpecial scheme
  match cs with
  | [] => if special then [[]] else []
  | c :: rest =>
    parseSegments special (isFile scheme) (if isSlash special c then rest else c :: rest)

/-- The query and the fragment that follow a path. -/
def parseTail (scheme cs : List Char) : Option (List Char) × Option (List Char) :=
  let front := cs.takeWhile (· != '#')
  let fragment := match cs.dropWhile (· != '#') with
    | _ :: rest => some (percentEncode fragmentSet rest)
    | [] => none
  let set := if isSpecial scheme then specialQuerySet else querySet
  let query := match front with
    | '?' :: rest => some (percentEncode set rest)
    | _ => none
  (query, fragment)

/-- A URL completed by the path, query and fragment in a text. -/
def finish (u : Url) (cs : List Char) : Url :=
  let (query, fragment) := parseTail u.scheme (cs.dropWhile (! endsPath ·))
  { u with
    path := .segments (parsePath u.scheme (cs.takeWhile (! endsPath ·)))
    query, fragment }

/-! ## The authority -/

/-- The user name, the password and the rest of an authority. The last at sign
ends them, the first colon divides them. -/
def takeCredentials (special : Bool) (cs : List Char) :
    Except UrlError (List Char × List Char × List Char) :=
  let ends (c : Char) : Bool := isSlash special c || endsPath c
  let authority := cs.takeWhile (! ends ·)
  let rest := cs.dropWhile (! ends ·)
  match authority.reverse.dropWhile (· != '@') with
  | [] => .ok ([], [], cs)
  | _ :: front =>
    let userinfo := front.reverse
    let host := authority.drop (userinfo.length + 1)
    if userinfo.isEmpty && host.isEmpty && !rest.isEmpty then .error .emptyHost
    else
      let username := userinfo.takeWhile (· != ':')
      let password := (userinfo.dropWhile (· != ':')).drop 1
      .ok (percentEncode userinfoSet username, percentEncode userinfoSet password, host ++ rest)

/-- The characters of a host: up to a colon outside brackets or the end of the
authority. -/
def takeHost (special : Bool) : Bool → List Char → List Char × List Char
  | _, [] => ([], [])
  | inBrackets, c :: rest =>
    if (c == ':' && !inBrackets) || isSlash special c || endsPath c then ([], c :: rest)
    else
      let inBrackets := if c == '[' then true else if c == ']' then false else inBrackets
      let (host, rest) := takeHost special inBrackets rest
      (c :: host, rest)

/-- The port after a colon, and the rest. The port of the scheme is left out. -/
def takePort (scheme cs : List Char) : Except UrlError (Option Nat × List Char) :=
  let digits := cs.takeWhile Char.isDigit
  let rest := cs.dropWhile Char.isDigit
  let n := Floating.digitsValue digits
  if 65535 < n then .error .port
  else match rest.head? with
    | some c =>
      if c == '/' || c == '\\' || endsPath c then .ok (port n digits, rest) else .error .port
    | none => .ok (port n digits, rest)
where
  /-- The port to keep. -/
  port (n : Nat) (digits : List Char) : Option Nat :=
    if digits.isEmpty ∨ defaultPort? scheme = some n then none else some n

/-- The URL whose authority starts a text. -/
def parseAuthority (scheme cs : List Char) : Except UrlError Url := do
  let special := isSpecial scheme
  let (username, password, cs) ← takeCredentials special cs
  let (hostText, rest) := takeHost special false cs
  if special && hostText.isEmpty then throw .emptyHost
  let host ← if special then parseHost hostText else parseOpaqueHost hostText
  if hostText.isEmpty && !(username.isEmpty && password.isEmpty) then throw .emptyHost
  let u : Url := { scheme, username, password, host := some host, path := .segments [] }
  match rest with
  | ':' :: rest =>
    if hostText.isEmpty then throw .emptyHost
    let (port, rest) ← takePort scheme rest
    pure (finish { u with port } rest)
  | rest => pure (finish u rest)

/-! ## Files -/

/-- The host of a file: none is written as an empty one, and the local one is
dropped. A drive letter in its place belongs to the path. -/
def parseFile (cs : List Char) : Except UrlError Url :=
  let scheme := "file".toList
  let empty : Url := { scheme, host := some (.domain []), path := .segments [] }
  match cs with
  | a :: b :: rest =>
    if isSlash true a && isSlash true b then
      let hostText := rest.takeWhile fun c => !(isSlash true c || endsPath c)
      let after := rest.dropWhile fun c => !(isSlash true c || endsPath c)
      if isDriveLetter hostText || hostText.isEmpty then
        .ok (finish empty (if hostText.isEmpty then after else '/' :: rest))
      else do
        let host ← parseHost hostText
        let u := finish { empty with host := some host } after
        -- neither a drive nor the machine itself is a host
        let driven := match u.path with
          | .segments (name :: _) => isDriveLetter name
          | _ => false
        pure (if driven || host == .domain "localhost".toList then
          { u with host := some (.domain []) } else u)
    else .ok (finish empty (a :: b :: rest))
  | cs => .ok (finish empty cs)

/-! ## URLs -/

/-- The URL that is the whole text. -/
def parse (cs : List Char) : Except UrlError Url :=
  match takeScheme (clean cs) with
  | none => .error .relative
  | some (scheme, rest) =>
    if isFile scheme then parseFile rest
    else if isSpecial scheme then parseAuthority scheme (rest.dropWhile (isSlash true))
    else match rest with
      | '/' :: '/' :: rest => parseAuthority scheme rest
      | '/' :: _ => .ok (finish { scheme, path := .segments [] } rest)
      | _ =>
        let (query, fragment) := parseTail scheme (rest.dropWhile (! endsPath ·))
        let path := .opaquePath (percentEncode [] (rest.takeWhile (! endsPath ·)))
        .ok { scheme, path, query, fragment }

end RowMapping.Url
