/-
URLs by their parts, and their text.

The path of a URL is either opaque, as in `mailto:`, or a list of segments. Every
part is kept as it is written, percent escapes included, so writing a URL only
puts the parts together.
-/
import RowMapping.Url.Host

set_option autoImplicit false

namespace RowMapping

/-- The path of a URL. -/
inductive UrlPath where
  | opaquePath (text : List Char)
  | segments (names : List (List Char))
deriving DecidableEq, Repr

/-- A URL. The host is missing where the scheme is not followed by two slashes. -/
structure Url where
  scheme : List Char
  username : List Char := []
  password : List Char := []
  host : Option Url.Host := none
  port : Option Nat := none
  path : UrlPath
  query : Option (List Char) := none
  fragment : Option (List Char) := none
deriving DecidableEq, Repr

namespace Url

/-- The port a special scheme has when none is written; none for other schemes
and for files. -/
def defaultPort? (scheme : List Char) : Option Nat :=
  match String.ofList scheme with
  | "http" | "ws" => some 80
  | "https" | "wss" => some 443
  | "ftp" => some 21
  | _ => none

/-- The scheme of local files. -/
def isFile (scheme : List Char) : Bool := scheme == "file".toList

/-- Whether a scheme has rules of its own. -/
def isSpecial (scheme : List Char) : Bool := (defaultPort? scheme).isSome || isFile scheme

/-- User name and password in front of a host. -/
def credentialsText (u : Url) : List Char :=
  if u.username.isEmpty && u.password.isEmpty then []
  else u.username ++ (if u.password.isEmpty then [] else ':' :: u.password) ++ ['@']

/-- A part that is optional, after the character that introduces it. -/
def optionalText (mark : Char) : Option (List Char) → List Char
  | none => []
  | some cs => mark :: cs

/-- The characters of a path of segments. -/
def segmentsText (names : List (List Char)) : List Char := names.flatMap ('/' :: ·)

/-- The characters of the path. Without a host, a path that starts with an empty
segment is written so that it cannot be taken for a host. -/
def pathText (u : Url) : List Char :=
  match u.path with
  | .opaquePath text => text
  | .segments names =>
    let guarded := u.host.isNone && 1 < names.length && names.head? == some []
    (if guarded then ['/', '.'] else []) ++ segmentsText names

/-- The characters of a URL. -/
def write (u : Url) : List Char :=
  let authority := match u.host with
    | none => []
    | some host => '/' :: '/' :: (u.credentialsText ++ host.write
        ++ optionalText ':' (u.port.map fun p => (toString p).toList))
  u.scheme ++ ':' :: (authority ++ u.pathText ++ optionalText '?' u.query
    ++ optionalText '#' u.fragment)

/-- The text of a URL. -/
def text (u : Url) : String := String.ofList u.write

/-- The text of the scheme. -/
def schemeText (u : Url) : String := String.ofList u.scheme

end Url

end RowMapping
