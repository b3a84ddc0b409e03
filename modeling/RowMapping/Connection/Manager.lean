/-
The connection manager: open databases, and the cache that makes all handles of a
file share one of them.

The cache knows an open database by its path as long as a handle refers to it, and
forgets a path when a database of that path is closed. Databases in memory are
never cached. A database keeps the volume it was opened on even if its file is
removed, and a file that is created anew has a volume of its own. Where a database
cannot be opened, the cache and the handles stay as they were.

Paths are taken as texts here. So two spellings of a path that name its components
in the same way, such as one with a slash doubled, count as two paths, each with a
file of its own.
-/
import RowMapping.Connection.Settings
import RowMapping.Error.Driver

set_option autoImplicit false

namespace RowMapping

/-- An open database, or one that was open. -/
structure OpenDatabase where
  path : String
  settings : ConnectionSettings
  /-- The number of the volume its contents are on. -/
  volume : Nat
  closed : Bool := false
deriving DecidableEq, Repr

/-- A handle of the application: the path it asked for, and the number of the
database it was given. -/
structure Handle where
  name : String
  path : String
  database : Nat
deriving DecidableEq, Repr

/-- Everything the connection manager deals with. -/
structure ConnectionManager where
  /-- The databases opened so far. -/
  databases : List OpenDatabase := []
  /-- The handles in use. -/
  handles : List Handle := []
  /-- The cached databases by their paths. -/
  cache : List (String × Nat) := []
  /-- The volumes of the files there are. -/
  files : List (String × Nat) := []
  /-- The rows of the table on a volume, if it has the table. -/
  rows : Nat → Option Nat := fun _ => none
  nextVolume : Nat := 0

namespace ConnectionManager

/-! ## Looking things up -/

/-- Whether a path is that of a database in memory. -/
def isMemoryPath (path : String) : Bool := path == ":memory:" || path == "sqlite::memory:"

/-- What a list of pairs has for a path. -/
def lookUp (path : String) (entries : List (String × Nat)) : Option Nat :=
  (entries.find? fun entry => entry.1 == path).map Prod.snd

/-- A list of pairs without a path. -/
def without (path : String) (entries : List (String × Nat)) : List (String × Nat) :=
  entries.filter fun entry => entry.1 != path

/-- The handle of a name. -/
def handle? (s : ConnectionManager) (name : String) : Option Handle :=
  s.handles.find? fun h => h.name == name

/-- Whether a handle refers to a database. -/
def isReferenced (s : ConnectionManager) (database : Nat) : Bool :=
  s.handles.any fun h => h.database == database

/-- The cached database of a path, if a handle still refers to it. -/
def cached? (s : ConnectionManager) (path : String) : Option Nat :=
  (lookUp path s.cache).filter s.isReferenced

/-- The database of a handle. -/
def database? (s : ConnectionManager) (name : String) : Option OpenDatabase :=
  (s.handle? name).bind fun h => s.databases[h.database]?

/-- Whether a file exists. -/
def exists? (s : ConnectionManager) (path : String) : Bool := (lookUp path s.files).isSome

/-! ## Opening -/

/-- Forget a handle. -/
def drop (name : String) (s : ConnectionManager) : ConnectionManager :=
  { s with handles := s.handles.filter fun h => h.name != name }

/-- Refer to a database by a handle. A handle of the same name is forgotten. -/
def refer (name path : String) (database : Nat) (s : ConnectionManager) : ConnectionManager :=
  let s := s.drop name
  { s with handles := ⟨name, path, database⟩ :: s.handles }

/-- Open a database on a volume. -/
def openOn (volume : Nat) (path : String) (settings : ConnectionSettings)
    (s : ConnectionManager) : Nat × ConnectionManager :=
  (s.databases.length, { s with databases := s.databases ++ [{ path, settings, volume }] })

/-- Open a database in memory. -/
def openMemory (path : String) (settings : ConnectionSettings) (s : ConnectionManager) :
    Nat × ConnectionManager :=
  { s with nextVolume := s.nextVolume + 1 }.openOn s.nextVolume path settings

/-- The volume of a file, which is created if it does not exist. -/
def createFile (path : String) (s : ConnectionManager) : Nat × ConnectionManager :=
  match lookUp path s.files with
  | some volume => (volume, s)
  | none =>
    (s.nextVolume, { s with
      files := (path, s.nextVolume) :: s.files
      nextVolume := s.nextVolume + 1 })

/-- Open a database file. It is created if it does not exist. -/
def openFile (path : String) (settings : ConnectionSettings) (s : ConnectionManager) :
    Nat × ConnectionManager :=
  let (volume, s) := s.createFile path
  s.openOn volume path settings

/-- How opening a database goes wrong: what the driver reports, and whether the file
was created before. -/
structure OpenFailure where
  source : DriverError
  createsFile : Bool := false
deriving DecidableEq, Repr

/-- Open the database of a path, unless that goes wrong. -/
def openDatabase (path : String) (settings : ConnectionSettings) (failure : Option OpenFailure)
    (s : ConnectionManager) : Except ConnectionError Nat × ConnectionManager :=
  match failure with
  | some failure =>
    let createsFile := failure.createsFile && !isMemoryPath path
    (.error (.driver failure.source), if createsFile then (s.createFile path).2 else s)
  | none =>
    let (database, s) :=
      if isMemoryPath path then s.openMemory path settings else s.openFile path settings
    (.ok database, s)

/-- Cache a database under its path, and forget those that nothing refers to. -/
def remember (path : String) (database : Nat) (s : ConnectionManager) : ConnectionManager :=
  let cache := (path, database) :: without path s.cache
  { s with cache := cache.filter fun entry => s.isReferenced entry.2 || entry.2 == database }

/-- Connect a handle to the database of a path. Where that opens a database, it can go
wrong. -/
def connect (name path : String) (settings : ConnectionSettings) (s : ConnectionManager)
    (failure : Option OpenFailure := none) : Except ConnectionError Nat × ConnectionManager :=
  if path.isEmpty then (.error (.io "Database path cannot be empty"), s)
  else if isMemoryPath path then
    match s.openDatabase path settings failure with
    | (.error e, s) => (.error e, s)
    | (.ok database, s) => (.ok database, s.refer name path database)
  else match s.cached? path with
    | some database => (.ok database, s.refer name path database)
    | none =>
      match s.openDatabase path settings failure with
      | (.error e, s) => (.error e, s)
      | (.ok database, s) => (.ok database, (s.remember path database).refer name path database)

/-! ## Closing -/

/-- Close a database and forget the cached database of its path. -/
def closeDatabase (database : Nat) (s : ConnectionManager) : ConnectionManager :=
  match s.databases[database]? with
  | none => s
  | some d =>
    { s with
      databases := s.databases.set database { d with closed := true }
      cache := if isMemoryPath d.path then s.cache else without d.path s.cache }

/-- Close the database of a handle. The handle stays. -/
def close (name : String) (s : ConnectionManager) : ConnectionManager :=
  match s.handle? name with
  | some h => s.closeDatabase h.database
  | none => s

/-- Remove a file, which must exist. -/
def removeFile (path : String) (s : ConnectionManager) :
    Except ConnectionError Unit × ConnectionManager :=
  if s.exists? path then (.ok (), { s with files := without path s.files })
  else (.error (.io "No such file or directory (os error 2)"), s)

/-- Close the database of a handle and remove its file. -/
def remove (name : String) (s : ConnectionManager) :
    Except ConnectionError Unit × ConnectionManager :=
  match s.database? name with
  | none => (.ok (), s)
  | some d =>
    let s := s.close name
    if isMemoryPath d.path then (.ok (), s) else s.removeFile d.path

/-! ## Use -/

/-- The volume of the database of a handle, unless the database is closed. -/
def acquire (name : String) (s : ConnectionManager) : Except ConnectionError Nat :=
  match s.database? name with
  | some d => if d.closed then .error .closed else .ok d.volume
  | none => .error .closed

/-- The pool of connections of a database. -/
structure ConnectionPool where
  /-- The number of the volume the connections read and write. -/
  volume : Nat
  minConnections : Nat
  maxConnections : Nat
  /-- The time after which an idle connection is given up, if it is. -/
  idleTimeoutSeconds : Option Nat
  busyTimeoutMillis : Nat
deriving DecidableEq, Repr

/-- The pool a database is opened with. A database in memory disappears with its last
connection, so it keeps one, and gives up none for being idle. -/
def connectionPool (d : OpenDatabase) : ConnectionPool where
  volume := d.volume
  minConnections := if isMemoryPath d.path then 1 else 0
  maxConnections := max d.settings.maxConnections 2
  idleTimeoutSeconds :=
    if isMemoryPath d.path then none else some d.settings.idleTimeoutSeconds
  busyTimeoutMillis := d.settings.busyTimeoutMillis

/-- The pool of the database of a handle, unless the database is closed. -/
def pool (name : String) (s : ConnectionManager) : Except ConnectionError ConnectionPool :=
  match s.database? name with
  | some d => if d.closed then .error .closed else .ok (connectionPool d)
  | none => .error .closed

/-- Insert a row into the table, which is created if it is missing. -/
def write (name : String) (s : ConnectionManager) :
    Except ConnectionError Unit × ConnectionManager :=
  match s.acquire name with
  | .error e => (.error e, s)
  | .ok volume =>
    let count := (s.rows volume).getD 0 + 1
    (.ok (), { s with rows := fun v => if v = volume then some count else s.rows v })

/-- The number of rows of the table. -/
def count (name : String) (s : ConnectionManager) : Except ConnectionError Nat :=
  match s.acquire name with
  | .error e => .error e
  | .ok volume =>
    match s.rows volume with
    | some n => .ok n
    | none => .error (.driver (.ofResultCode 1 "no such table: t"))

/-- Whether two handles refer to the same database. -/
def same (a b : String) (s : ConnectionManager) : Bool :=
  match s.handle? a, s.handle? b with
  | some x, some y => x.database == y.database
  | _, _ => false

/-- Whether the database of a handle has the path the handle asked for. -/
def keepsPath (name : String) (s : ConnectionManager) : Bool :=
  match s.handle? name, s.database? name with
  | some h, some d => h.path == d.path
  | _, _ => false

/-- Whether the database of a handle is in memory. -/
def inMemory (name : String) (s : ConnectionManager) : Bool :=
  match s.database? name with
  | some d => isMemoryPath d.path
  | none => false

end ConnectionManager

end RowMapping
