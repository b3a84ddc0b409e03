/-
What the cache of open databases knows over a whole run of an application.

An application connects, closes and removes databases and forgets its handles, in any order,
and databases may fail to open. Whatever it does, every handle refers to a database of the path
it asked for, and every cached database is open and of the path it is cached under
(`Consistent`).

That every open database with a handle is cached is not kept by every run. The cache is by
path, and closing forgets the path: a database closed a second time, through another of its
handles, takes the path of whatever database was opened there in between. Without such a
closing an open database with a handle stays cached, and connecting to its path gives it again.
-/
import RowMapping.Connection.Manager

set_option autoImplicit false

namespace RowMapping

/-- What an application does with its handles. -/
inductive HandleOperation where
  /-- If connecting has to open a database, that may go wrong. -/
  | connect (name path : String) (settings : ConnectionSettings)
      (failure : Option ConnectionManager.OpenFailure := none)
  | close (name : String)
  | remove (name : String)
  | drop (name : String)

namespace ConnectionManager

/-! ## Runs -/

/-- One operation of an application. -/
def perform (s : ConnectionManager) : HandleOperation → ConnectionManager
  | .connect name path settings failure => (s.connect name path settings failure).2
  | .close name => s.close name
  | .remove name => (s.remove name).2
  | .drop name => s.drop name

/-- Operations one after another. -/
def performAll (s : ConnectionManager) (operations : List HandleOperation) :
    ConnectionManager :=
  operations.foldl perform s

/-- Whether an operation closes a database of a path that is closed already. -/
def closesAgain (path : String) (s : ConnectionManager) : HandleOperation → Bool
  | .close name | .remove name => (s.database? name).any fun d => d.path == path && d.closed
  | .connect .. | .drop _ => false

/-- Whether operations close the databases of a path once at most. -/
def closesOnce (path : String) : ConnectionManager → List HandleOperation → Bool
  | _, [] => true
  | s, operation :: rest =>
    !s.closesAgain path operation && (s.perform operation).closesOnce path rest

/-- A database of this number is there, and it is open. -/
def IsOpen (s : ConnectionManager) (database : Nat) : Prop :=
  ∃ d, s.databases[database]? = some d ∧ d.closed = false

/-! ## The cache as a list -/

theorem lookUp_cons (path p : String) (n : Nat) (entries : List (String × Nat)) :
    lookUp path ((p, n) :: entries) = if p = path then some n else lookUp path entries := by
  by_cases h : p = path <;> simp [lookUp, h]

theorem mem_of_lookUp {path : String} {entries : List (String × Nat)} {n : Nat}
    (h : lookUp path entries = some n) : (path, n) ∈ entries := by
  obtain ⟨⟨p, m⟩, hfind, rfl⟩ := Option.map_eq_some_iff.mp h
  have hp : p = path := by simpa using List.find?_some hfind
  exact hp ▸ List.mem_of_find?_eq_some hfind

/-- Entries that are dropped do not matter to a path whose entry is kept. -/
theorem lookUp_filter {path : String} {entries : List (String × Nat)} {n : Nat}
    {keep : String × Nat → Bool} (h : lookUp path entries = some n) (hkeep : keep (path, n) = true) :
    lookUp path (entries.filter keep) = some n := by
  induction entries with
  | nil => simp [lookUp] at h
  | cons entry rest ih =>
    obtain ⟨p, m⟩ := entry
    rw [lookUp_cons] at h
    by_cases hp : p = path
    · subst hp
      simp only [if_true, Option.some.injEq] at h
      subst h
      rw [List.filter_cons_of_pos hkeep, lookUp_cons, if_pos rfl]
    · rw [if_neg hp] at h
      rcases hk : keep (p, m) with _ | _
      · rw [List.filter_cons_of_neg (by simp [hk])]
        exact ih h
      · rw [List.filter_cons_of_pos hk, lookUp_cons, if_neg hp]
        exact ih h

/-- Forgetting one path leaves what is known of the others. -/
theorem lookUp_without {path other : String} (hne : path ≠ other)
    {entries : List (String × Nat)} {n : Nat} (h : lookUp path entries = some n) :
    lookUp path (without other entries) = some n :=
  lookUp_filter h (by simpa using hne)

theorem mem_without {path : String} {entries : List (String × Nat)} {entry : String × Nat} :
    entry ∈ without path entries ↔ entry ∈ entries ∧ entry.1 ≠ path := by
  simp [without]

/-! ## Consistency -/

/-- Every handle refers to a database of its path, and every cached database is open and of
the path it is cached under. -/
structure Consistent (s : ConnectionManager) : Prop where
  handles : ∀ h ∈ s.handles, ∃ d, s.databases[h.database]? = some d ∧ d.path = h.path
  cache : ∀ entry ∈ s.cache, isMemoryPath entry.1 = false ∧
    ∃ d, s.databases[entry.2]? = some d ∧ d.path = entry.1 ∧ d.closed = false

theorem consistent_empty : Consistent {} :=
  ⟨fun _ h => absurd h List.not_mem_nil, fun _ h => absurd h List.not_mem_nil⟩

/-- What the cache finds is open, and of the path. -/
theorem Consistent.of_lookUp {s : ConnectionManager} (hs : s.Consistent) {path : String} {n : Nat}
    (h : lookUp path s.cache = some n) :
    ∃ d, s.databases[n]? = some d ∧ d.path = path ∧ d.closed = false :=
  (hs.cache _ (mem_of_lookUp h)).2

theorem lookUp_of_cached? {s : ConnectionManager} {path : String} {n : Nat}
    (h : s.cached? path = some n) : lookUp path s.cache = some n :=
  (Option.filter_eq_some_iff.mp h).1

theorem isReferenced_of_mem {s : ConnectionManager} {h : Handle} (hh : h ∈ s.handles) :
    s.isReferenced h.database = true :=
  List.any_eq_true.mpr ⟨h, hh, by simp⟩

/-- A database with a handle is found if it is cached. -/
theorem cached?_eq {s : ConnectionManager} {h : Handle} (hh : h ∈ s.handles)
    (hcache : lookUp h.path s.cache = some h.database) :
    s.cached? h.path = some h.database := by
  simp [cached?, hcache, Option.filter, isReferenced_of_mem hh]

theorem mem_drop {name : String} {s : ConnectionManager} {h : Handle} :
    h ∈ (s.drop name).handles ↔ h ∈ s.handles ∧ h.name ≠ name := by
  simp [drop]

theorem mem_refer {name path : String} {n : Nat} {s : ConnectionManager} {h : Handle} :
    h ∈ (s.refer name path n).handles ↔ h = ⟨name, path, n⟩ ∨ h ∈ s.handles ∧ h.name ≠ name := by
  simp [refer, drop]

/-! ## Opening -/

/-- A result of opening a database of a path: the number of a new database, which is open, and
a state that has this database besides. -/
structure Opens (path : String) (s : ConnectionManager) (r : Nat × ConnectionManager) : Prop where
  number : r.1 = s.databases.length
  databases : ∃ d : OpenDatabase, d.path = path ∧ d.closed = false ∧
    r.2.databases = s.databases ++ [d]
  handles : r.2.handles = s.handles
  cache : r.2.cache = s.cache

theorem opens_openMemory (path : String) (settings : ConnectionSettings) (s : ConnectionManager) :
    Opens path s (s.openMemory path settings) :=
  ⟨rfl, ⟨_, rfl, rfl, rfl⟩, rfl, rfl⟩

/-- Nothing has become of the databases, the handles and the cache. -/
structure SameDatabases (s s' : ConnectionManager) : Prop where
  databases : s'.databases = s.databases
  handles : s'.handles = s.handles
  cache : s'.cache = s.cache

theorem SameDatabases.refl (s : ConnectionManager) : SameDatabases s s := ⟨rfl, rfl, rfl⟩

theorem SameDatabases.consistent {s s' : ConnectionManager} (h : SameDatabases s s')
    (hs : s.Consistent) : s'.Consistent := by
  refine ⟨?_, ?_⟩
  · rw [h.handles, h.databases]
    exact hs.handles
  · rw [h.cache, h.databases]
    exact hs.cache

theorem sameDatabases_createFile (path : String) (s : ConnectionManager) :
    SameDatabases s (s.createFile path).2 := by
  unfold createFile
  split
  all_goals exact ⟨rfl, rfl, rfl⟩

theorem opens_openFile (path : String) (settings : ConnectionSettings) (s : ConnectionManager) :
    Opens path s (s.openFile path settings) := by
  obtain ⟨hdatabases, hhandles, hcache⟩ := sameDatabases_createFile path s
  refine ⟨congrArg List.length hdatabases,
    ⟨{ path, settings, volume := (s.createFile path).1 }, rfl, rfl, ?_⟩, hhandles, hcache⟩
  exact congrArg (· ++ [_]) hdatabases

/-- A database that cannot be opened leaves a file behind at most. -/
theorem openDatabase_failing (path : String) (settings : ConnectionSettings)
    (failure : OpenFailure) (s : ConnectionManager) :
    ∃ s', s.openDatabase path settings (some failure) = (.error (.driver failure.source), s') ∧
      SameDatabases s s' := by
  refine ⟨_, rfl, ?_⟩
  split
  · exact sameDatabases_createFile path s
  · exact .refl s

theorem openDatabase_succeeding (path : String) (settings : ConnectionSettings)
    (s : ConnectionManager) :
    ∃ r, s.openDatabase path settings none = (.ok r.1, r.2) ∧ Opens path s r := by
  rcases hmemory : isMemoryPath path with _ | _
  · exact ⟨_, by simp only [openDatabase, hmemory]; rfl, opens_openFile path settings s⟩
  · exact ⟨_, by simp only [openDatabase, hmemory]; rfl, opens_openMemory path settings s⟩

namespace Opens

variable {path : String} {s : ConnectionManager} {r : Nat × ConnectionManager}

/-- The new database is there. -/
theorem new (ho : Opens path s r) :
    ∃ d, r.2.databases[r.1]? = some d ∧ d.path = path ∧ d.closed = false := by
  obtain ⟨d, hpath, hclosed, hd⟩ := ho.databases
  exact ⟨d, by simp [ho.number, hd], hpath, hclosed⟩

/-- The databases there were are still there. -/
theorem old (ho : Opens path s r) {n : Nat} {d : OpenDatabase} (h : s.databases[n]? = some d) :
    r.2.databases[n]? = some d := by
  obtain ⟨d', -, -, hd⟩ := ho.databases
  rw [hd, List.getElem?_append_left (List.getElem?_eq_some_iff.mp h).1]
  exact h

theorem consistent (ho : Opens path s r) (hs : s.Consistent) : r.2.Consistent where
  handles h hh := by
    obtain ⟨d, hd, hpath⟩ := hs.handles h (ho.handles ▸ hh)
    exact ⟨d, ho.old hd, hpath⟩
  cache entry hentry := by
    obtain ⟨hmemory, d, hd, hpath, hclosed⟩ := hs.cache entry (ho.cache ▸ hentry)
    exact ⟨hmemory, d, ho.old hd, hpath, hclosed⟩

/-- A database with a handle is open afterwards if and only if it was before. -/
theorem isOpen_iff (ho : Opens path s r) (hs : s.Consistent) {h : Handle} (hh : h ∈ s.handles) :
    r.2.IsOpen h.database ↔ s.IsOpen h.database := by
  obtain ⟨d, hd, -⟩ := hs.handles h hh
  simp only [IsOpen, hd, ho.old hd]

end Opens

theorem Consistent.refer {s : ConnectionManager} (hs : s.Consistent) (name : String) {path : String}
    {n : Nat} (hn : ∃ d, s.databases[n]? = some d ∧ d.path = path) :
    (s.refer name path n).Consistent where
  handles h hh := by
    rcases mem_refer.mp hh with rfl | ⟨hold, -⟩
    · exact hn
    · exact hs.handles h hold
  cache := hs.cache

theorem Consistent.remember {s : ConnectionManager} (hs : s.Consistent) {path : String} {n : Nat}
    (hmemory : isMemoryPath path = false)
    (hn : ∃ d, s.databases[n]? = some d ∧ d.path = path ∧ d.closed = false) :
    (s.remember path n).Consistent where
  handles := hs.handles
  cache entry hentry := by
    rcases List.mem_cons.mp (List.mem_filter.mp hentry).1 with rfl | hold
    · exact ⟨hmemory, hn⟩
    · exact hs.cache entry (mem_without.mp hold).1

/-! ## Connecting -/

/-- Whether connecting to a path opens a database. -/
def mustOpen (path : String) (s : ConnectionManager) : Bool :=
  isMemoryPath path || (s.cached? path).isNone

/-- What connecting comes to. -/
inductive Connected (name path : String) (failure : Option OpenFailure) (s : ConnectionManager) :
    Except ConnectionError Nat × ConnectionManager → Prop
  | unnamed (hempty : path.isEmpty = true) :
      Connected name path failure s (.error (.io "Database path cannot be empty"), s)
  /-- A database was to be opened, and that went wrong. -/
  | failed {f : OpenFailure} {s' : ConnectionManager} (hempty : path.isEmpty = false)
      (hfailure : failure = some f) (hopens : s.mustOpen path = true) (hsame : SameDatabases s s') :
      Connected name path failure s (.error (.driver f.source), s')
  | inMemory {r : Nat × ConnectionManager} (hfailure : failure = none)
      (hmemory : isMemoryPath path = true) (ho : Opens path s r) :
      Connected name path failure s (.ok r.1, r.2.refer name path r.1)
  | found {n : Nat} (hmemory : isMemoryPath path = false) (hcached : s.cached? path = some n) :
      Connected name path failure s (.ok n, s.refer name path n)
  | opened {r : Nat × ConnectionManager} (hfailure : failure = none)
      (hmemory : isMemoryPath path = false) (hnone : s.cached? path = none) (ho : Opens path s r) :
      Connected name path failure s (.ok r.1, (r.2.remember path r.1).refer name path r.1)

theorem connected (name path : String) (settings : ConnectionSettings)
    (failure : Option OpenFailure) (s : ConnectionManager) :
    Connected name path failure s (s.connect name path settings failure) := by
  unfold connect
  rcases hempty : path.isEmpty with _ | _
  · rw [if_neg Bool.false_ne_true]
    rcases hmemory : isMemoryPath path with _ | _
    · rw [if_neg Bool.false_ne_true]
      rcases hcached : s.cached? path with _ | n
      · rcases failure with _ | f
        · obtain ⟨r, hrun, ho⟩ := openDatabase_succeeding path settings s
          rw [hrun]
          exact .opened rfl hmemory hcached ho
        · obtain ⟨s', hrun, hsame⟩ := openDatabase_failing path settings f s
          rw [hrun]
          exact .failed hempty rfl (by simp [mustOpen, hcached]) hsame
      · exact .found hmemory hcached
    · rw [if_pos rfl]
      rcases failure with _ | f
      · obtain ⟨r, hrun, ho⟩ := openDatabase_succeeding path settings s
        rw [hrun]
        exact .inMemory rfl hmemory ho
      · obtain ⟨s', hrun, hsame⟩ := openDatabase_failing path settings f s
        rw [hrun]
        exact .failed hempty rfl (by simp [mustOpen, hmemory]) hsame
  · exact .unnamed hempty

theorem Connected.consistent {name path : String} {failure : Option OpenFailure}
    {s : ConnectionManager} {r : Except ConnectionError Nat × ConnectionManager}
    (h : Connected name path failure s r) (hs : s.Consistent) : r.2.Consistent := by
  cases h with
  | unnamed => exact hs
  | failed _ _ _ hsame => exact hsame.consistent hs
  | inMemory _ _ ho =>
    obtain ⟨d, hd, hpath, -⟩ := ho.new
    exact (ho.consistent hs).refer name ⟨d, hd, hpath⟩
  | found _ hcached =>
    obtain ⟨d, hd, hpath, -⟩ := hs.of_lookUp (lookUp_of_cached? hcached)
    exact hs.refer name ⟨d, hd, hpath⟩
  | opened _ hmemory _ ho =>
    obtain ⟨d, hd, hpath, hclosed⟩ := ho.new
    exact ((ho.consistent hs).remember hmemory ⟨d, hd, hpath, hclosed⟩).refer name ⟨d, hd, hpath⟩

/-! ## Closing -/

theorem getElem?_set_closed {s : ConnectionManager} {n : Nat} {d : OpenDatabase}
    (hd : s.databases[n]? = some d) (i : Nat) :
    (s.databases.set n { d with closed := true })[i]?
      = if n = i then some { d with closed := true } else s.databases[i]? := by
  rw [List.getElem?_set]
  by_cases hi : n = i
  · rw [if_pos hi, if_pos hi, if_pos (List.getElem?_eq_some_iff.mp hd).1]
  · rw [if_neg hi, if_neg hi]

theorem consistent_closeDatabase {s : ConnectionManager} (hs : s.Consistent) (n : Nat) :
    (s.closeDatabase n).Consistent := by
  unfold closeDatabase
  split
  · exact hs
  · rename_i d hd
    refine ⟨fun h hh => ?_, fun entry hentry => ?_⟩
    · obtain ⟨d', hd', hpath⟩ := hs.handles h hh
      rw [getElem?_set_closed hd]
      split
      · rename_i hn
        obtain rfl : d = d' := by simpa [← hn, hd] using hd'
        exact ⟨_, rfl, hpath⟩
      · exact ⟨d', hd', hpath⟩
    · -- what stays cached is of another path, and so it is another database
      have hkept : entry ∈ s.cache ∧ entry.1 ≠ d.path := by
        by_cases hmemory : isMemoryPath d.path = true
        · simp only [hmemory, if_true] at hentry
          refine ⟨hentry, fun heq => ?_⟩
          rw [← heq, (hs.cache entry hentry).1] at hmemory
          cases hmemory
        · simp only [hmemory] at hentry
          exact mem_without.mp hentry
      obtain ⟨hmemory, d', hd', hpath, hclosed⟩ := hs.cache entry hkept.1
      refine ⟨hmemory, d', ?_, hpath, hclosed⟩
      rw [getElem?_set_closed hd, if_neg, hd']
      rintro rfl
      obtain rfl : d = d' := by simpa [hd] using hd'
      exact hkept.2 hpath.symm

/-- Closing the database of a handle is closing a database, or nothing at all. -/
theorem close_eq (name : String) (s : ConnectionManager) :
    s.close name = s ∨ ∃ d, s.database? name = some d ∧ ∃ h ∈ s.handles,
      s.databases[h.database]? = some d ∧ s.close name = s.closeDatabase h.database := by
  unfold close
  split
  · rename_i h hfind
    rcases hd : s.databases[h.database]? with _ | d
    · exact .inl (by simp [closeDatabase, hd])
    · exact .inr ⟨d, by simp [database?, hfind, hd], h, List.mem_of_find?_eq_some hfind, hd, rfl⟩
  · exact .inl rfl

theorem sameDatabases_removeFile (path : String) (s : ConnectionManager) :
    SameDatabases s (s.removeFile path).2 := by
  unfold removeFile
  split
  all_goals exact ⟨rfl, rfl, rfl⟩

/-- Removing a database is closing it, as far as databases, handles and the cache go. -/
theorem sameDatabases_remove (name : String) (s : ConnectionManager) :
    SameDatabases (s.close name) (s.remove name).2 := by
  unfold remove
  split
  · rename_i hnone
    rcases close_eq name s with heq | ⟨d, hsome, -⟩
    · rw [heq]
      exact .refl s
    · rw [hnone] at hsome
      cases hsome
  · rename_i d _
    show SameDatabases _ (if isMemoryPath d.path then _ else (s.close name).removeFile d.path).2
    split
    · exact .refl _
    · exact sameDatabases_removeFile d.path (s.close name)

theorem consistent_close {s : ConnectionManager} (hs : s.Consistent) (name : String) :
    (s.close name).Consistent := by
  rcases close_eq name s with heq | ⟨_, -, h, -, -, heq⟩
  · rw [heq]
    exact hs
  · rw [heq]
    exact consistent_closeDatabase hs h.database

/-! ## Every run is consistent -/

theorem consistent_perform {s : ConnectionManager} (hs : s.Consistent)
    (operation : HandleOperation) : (s.perform operation).Consistent := by
  cases operation with
  | connect name path settings failure =>
    exact (connected name path settings failure s).consistent hs
  | close name => exact consistent_close hs name
  | remove name => exact (sameDatabases_remove name s).consistent (consistent_close hs name)
  | drop name => exact ⟨fun h hh => hs.handles h (mem_drop.mp hh).1, hs.cache⟩

theorem consistent_performAll {s : ConnectionManager} (hs : s.Consistent)
    (operations : List HandleOperation) : (s.performAll operations).Consistent := by
  induction operations generalizing s with
  | nil => exact hs
  | cons operation rest ih => exact ih (consistent_perform hs operation)

/-! ## Open databases stay cached -/

/-- Every open database of a path that has a handle is cached. -/
def CachesOpen (path : String) (s : ConnectionManager) : Prop :=
  ∀ h ∈ s.handles, h.path = path → s.IsOpen h.database → lookUp path s.cache = some h.database

theorem cachesOpen_empty (path : String) : CachesOpen path {} :=
  fun _ h => absurd h List.not_mem_nil

namespace CachesOpen

variable {p : String} {s : ConnectionManager}

theorem refer (hs : s.CachesOpen p) (name : String) {path : String} {n : Nat}
    (hn : path = p → lookUp p s.cache = some n) : (s.refer name path n).CachesOpen p := by
  intro h hh hpath hopen
  rcases mem_refer.mp hh with rfl | ⟨hold, -⟩
  · exact hn hpath
  · exact hs h hold hpath hopen

theorem opened (hs : s.CachesOpen p) (hc : s.Consistent) {path : String}
    {r : Nat × ConnectionManager} (ho : Opens path s r) : r.2.CachesOpen p := by
  intro h hh hpath hopen
  have hold : h ∈ s.handles := ho.handles ▸ hh
  rw [ho.cache]
  exact hs h hold hpath ((ho.isOpen_iff hc hold).mp hopen)

/-- A path is given to a new database only if no open one has a handle. -/
theorem remember (hs : s.CachesOpen p) {path : String} {n : Nat}
    (hnone : s.cached? path = none) : (s.remember path n).CachesOpen p := by
  intro h hh hpath hopen
  have hold : h ∈ s.handles := hh
  have hcached := hs h hold hpath hopen
  -- an open database of the path itself would have been found in the cache
  have hne : path ≠ p := by
    rintro rfl
    rw [← hpath] at hcached hnone
    rw [cached?_eq hold hcached] at hnone
    cases hnone
  refine lookUp_filter ?_ ?_
  · rw [lookUp_cons, if_neg hne]
    exact lookUp_without hne.symm hcached
  · simp only [isReferenced_of_mem hold, Bool.true_or]

theorem drop (hs : s.CachesOpen p) (name : String) : (s.drop name).CachesOpen p :=
  fun h hh => hs h (mem_drop.mp hh).1

theorem sameDatabases (hs : s.CachesOpen p) {s' : ConnectionManager} (h : SameDatabases s s') :
    s'.CachesOpen p := by
  intro handle hh hpath hopen
  rw [h.handles] at hh
  rw [IsOpen, h.databases] at hopen
  rw [h.cache]
  exact hs handle hh hpath hopen

/-- Closing an open database forgets no other open one: there is no other of its path. -/
theorem closeDatabase (hs : s.CachesOpen p) {h : Handle} (hh : h ∈ s.handles)
    {d : OpenDatabase} (hd : s.databases[h.database]? = some d) (hpath : d.path = h.path)
    (hopen : d.path = p → d.closed = false) : (s.closeDatabase h.database).CachesOpen p := by
  simp only [ConnectionManager.closeDatabase, hd]
  intro h' hh' hpath' hopen'
  obtain ⟨d', hd', hclosed'⟩ := hopen'
  rw [getElem?_set_closed hd] at hd'
  split at hd'
  · obtain rfl := Option.some.inj hd'
    cases hclosed'
  · rename_i hne
    have hcached := hs h' hh' hpath' ⟨d', hd', hclosed'⟩
    -- two open databases of the path would both be cached under it
    have hother : p ≠ d.path := by
      rintro rfl
      have := hs h hh hpath.symm ⟨d, hd, hopen rfl⟩
      rw [hcached] at this
      exact hne (Option.some.inj this).symm
    split
    · exact hcached
    · exact lookUp_without hother hcached

end CachesOpen

/-- A database remembered is found. -/
theorem lookUp_remember (path : String) (n : Nat) (s : ConnectionManager) :
    lookUp path (s.remember path n).cache = some n :=
  lookUp_filter (by rw [lookUp_cons, if_pos rfl]) (by simp)

theorem Connected.cachesOpen {p name path : String} {failure : Option OpenFailure}
    {s : ConnectionManager} {r : Except ConnectionError Nat × ConnectionManager}
    (h : Connected name path failure s r) (hs : s.CachesOpen p) (hc : s.Consistent)
    (hmemory : isMemoryPath p = false) : r.2.CachesOpen p := by
  cases h with
  | unnamed => exact hs
  | failed _ _ _ hsame => exact hs.sameDatabases hsame
  | inMemory _ hpath ho =>
    refine (hs.opened hc ho).refer name fun heq => ?_
    rw [heq, hmemory] at hpath
    cases hpath
  | found _ hcached => exact hs.refer name fun heq => heq ▸ lookUp_of_cached? hcached
  | @opened r _ _ hnone ho =>
    -- opening changes neither the cache nor the handles, so the path is still not cached
    have hnone' : r.2.cached? path = none := by
      rw [← hnone, cached?, cached?, ho.cache]
      congr 1
      funext n
      rw [isReferenced, isReferenced, ho.handles]
    refine ((hs.opened hc ho).remember hnone').refer name fun heq => ?_
    subst heq
    exact lookUp_remember ..

theorem cachesOpen_close {p : String} {s : ConnectionManager} (hs : s.CachesOpen p)
    (hc : s.Consistent) {name : String}
    (honce : ∀ d, s.database? name = some d → d.path = p → d.closed = false) :
    (s.close name).CachesOpen p := by
  rcases close_eq name s with heq | ⟨d, hdatabase, h, hh, hd, heq⟩
  · rw [heq]
    exact hs
  · obtain ⟨d', hd', hpath⟩ := hc.handles h hh
    obtain rfl : d = d' := by simpa [hd] using hd'
    rw [heq]
    exact hs.closeDatabase hh hd hpath (honce d hdatabase)

theorem cachesOpen_perform {p : String} {s : ConnectionManager} (hs : s.CachesOpen p)
    (hc : s.Consistent) (hmemory : isMemoryPath p = false) {operation : HandleOperation}
    (honce : s.closesAgain p operation = false) : (s.perform operation).CachesOpen p := by
  have hopen {name : String} (hno : (s.database? name).any (fun d => d.path == p && d.closed) = false)
      (d : OpenDatabase) (hd : s.database? name = some d) (hpath : d.path = p) :
      d.closed = false := by
    simpa [hd, hpath] using hno
  cases operation with
  | connect name path settings failure =>
    exact (connected name path settings failure s).cachesOpen hs hc hmemory
  | close name => exact cachesOpen_close hs hc (hopen honce)
  | remove name =>
    exact (cachesOpen_close hs hc (hopen honce)).sameDatabases (sameDatabases_remove name s)
  | drop name => exact hs.drop name

theorem cachesOpen_performAll {p : String} {s : ConnectionManager} (hs : s.CachesOpen p)
    (hc : s.Consistent) (hmemory : isMemoryPath p = false)
    {operations : List HandleOperation} (honce : closesOnce p s operations = true) :
    (s.performAll operations).CachesOpen p := by
  induction operations generalizing s with
  | nil => exact hs
  | cons operation rest ih =>
    simp only [closesOnce, Bool.and_eq_true, Bool.not_eq_true'] at honce
    exact ih (cachesOpen_perform hs hc hmemory honce.1) (consistent_perform hc operation) honce.2

/-! ## Connecting to an open database -/

/-- Connecting to a path gives the cached database that has a handle. Nothing is opened then,
so nothing can go wrong. -/
theorem connect_of_lookUp {s : ConnectionManager} {h : Handle} (hh : h ∈ s.handles)
    (hempty : h.path.isEmpty = false) (hmemory : isMemoryPath h.path = false)
    (hcache : lookUp h.path s.cache = some h.database) (name : String)
    (settings : ConnectionSettings) (failure : Option OpenFailure) :
    s.connect name h.path settings failure
      = (.ok h.database, s.refer name h.path h.database) := by
  simp [connect, hempty, hmemory, cached?_eq hh hcache]

/-- As long as no database of a file is closed a second time, there is at most one open
database of the file with a handle, and connecting to the file gives it. -/
theorem connect_openDatabase {path : String} {operations : List HandleOperation}
    (hempty : path.isEmpty = false) (hmemory : isMemoryPath path = false)
    (honce : closesOnce path {} operations = true) {h : Handle}
    (hh : h ∈ (performAll {} operations).handles) (hpath : h.path = path)
    (hopen : (performAll {} operations).IsOpen h.database) :
    (∀ name settings failure,
      ((performAll {} operations).connect name path settings failure).1 = .ok h.database) ∧
      ∀ h' ∈ (performAll {} operations).handles, h'.path = path →
        (performAll {} operations).IsOpen h'.database → h'.database = h.database := by
  have hcaches := cachesOpen_performAll (cachesOpen_empty path) consistent_empty hmemory honce
  have hcache := hcaches h hh hpath hopen
  refine ⟨fun name settings failure => ?_, fun h' hh' hpath' hopen' => ?_⟩
  · subst hpath
    rw [connect_of_lookUp hh hempty hmemory hcache]
  · have hcache' := hcaches h' hh' hpath' hopen'
    rw [hcache] at hcache'
    exact (Option.some.inj hcache').symm

/-- Two handles of a file, closed through one of them, and the file opened again. -/
def reopening : List HandleOperation :=
  [.connect "a" "f" {}, .connect "b" "f" {}, .close "a", .connect "c" "f" {}, .drop "a"]

theorem connect_openDatabase_reopening :
    (⟨"c", "f", 1⟩ ∈ (performAll {} reopening).handles ∧ closesOnce "f" {} reopening = true ∧
      (performAll {} reopening).IsOpen 1) ∧
    (∀ name settings failure,
      ((performAll {} reopening).connect name "f" settings failure).1 = .ok 1) ∧
      ∀ h' ∈ (performAll {} reopening).handles, h'.path = "f" →
        (performAll {} reopening).IsOpen h'.database → h'.database = 1 := by
  have hmem : (⟨"c", "f", 1⟩ : Handle) ∈ (performAll {} reopening).handles := by decide
  have honce : closesOnce "f" {} reopening = true := by decide
  have hopen : (performAll {} reopening).IsOpen 1 := ⟨⟨"f", {}, 0, false⟩, by decide, rfl⟩
  exact ⟨⟨hmem, honce, hopen⟩, connect_openDatabase (by decide) (by decide) honce hmem rfl hopen⟩

/-- The same, with the database that was closed closed once more through its other handle. -/
def closingAgain : List HandleOperation := reopening ++ [.close "b"]

/-- The database opened in between is open and has a handle, but connecting to its file opens
another one. -/
theorem connect_openDatabase_closingAgain :
    ⟨"c", "f", 1⟩ ∈ (performAll {} closingAgain).handles ∧
      (performAll {} closingAgain).IsOpen 1 ∧
      ((performAll {} closingAgain).connect "d" "f" {}).1 = .ok 2 := by
  refine ⟨by decide, ⟨⟨"f", {}, 0, false⟩, by decide, rfl⟩, by rfl⟩

end ConnectionManager

end RowMapping
