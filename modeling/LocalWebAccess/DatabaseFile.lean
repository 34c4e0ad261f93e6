import LocalWebAccess.EnvLines
import LocalWebAccess.SqliteUrls

/-!
# The database of a regenerated env file

`generate_env` for a SQLite instance that reads `DATABASE_URL`: which database file of
`apps/<id>/data` the new `docker/.env` names.
-/
namespace LocalWebAccess.DatabaseFile
open PythonText EnvLines SqliteUrls

abbrev Name := List Char

/-- The entries of `apps/<id>/data`, with the sizes of those that are files that can be examined. -/
abbrev DataDir := List (Name × Option ℕ)

def NonEmpty (data : DataDir) (name : Name) : Prop := ∃ entry ∈ data, entry.1 = name ∧ ∃ size ∈ entry.2, 0 < size

instance (data : DataDir) (name : Name) : Decidable (NonEmpty data name) :=
  inferInstanceAs (Decidable (∃ entry ∈ data, entry.1 = name ∧ ∃ size ∈ entry.2, 0 < size))

/-! ## The inventory -/

def isOsMetadataName (name : Name) : Bool :=
  name = ['.', 'D', 'S', '_', 'S', 't', 'o', 'r', 'e'] || ['.', '_'].isPrefixOf name

def sidecarSuffixes : List Name := [['-', 'w', 'a', 'l'], ['-', 's', 'h', 'm']]

def sqliteDbSuffixes : List Name :=
  [['.', 'd', 'b'], ['.', 's', 'q', 'l', 'i', 't', 'e'], ['.', 's', 'q', 'l', 'i', 't', 'e', '3']]

def isDatabaseName (name : Name) : Bool :=
  !isOsMetadataName name && !sidecarSuffixes.any (·.isSuffixOf (lower name)) &&
    sqliteDbSuffixes.any (·.isSuffixOf (lower name))

/-- `_scan_existing_db_files`, in no particular order. -/
def scanExistingDbFiles (data : DataDir) : List Name :=
  (data.filter fun entry => isDatabaseName entry.1 && entry.2.any (0 < ·)).map Prod.fst

/-- The other files that `_resolve_db_filename_from_data_dir` considers. -/
def others (data : DataDir) (name : Name) : List Name := (scanExistingDbFiles data).filter (· ≠ name)

/-- `_resolve_db_filename_from_data_dir`; `none` is the `ConfigError`. -/
def resolveDbFilename (data : DataDir) (name : Name) : Option Name :=
  if NonEmpty data name then some name
  else match others data name with
    | [] => some name
    | [found] => some found
    | _ :: _ :: _ => none

/-! ## The new file -/

/-- What `generate_env` is given: the texts of the ports and limits, the file name that the
scanner has found, and the size that copying the source's database would leave. -/
structure Instance where
  hostPort : List Char
  internalPort : List Char
  memory : List Char
  cpus : List Char
  dbFilename : Option Name
  source : Option ℕ
  buildEnv : List (List Char)

def sqliteDefaultDbFilename : Name := ['a', 'p', 'p', '.', 's', 'q', 'l', 'i', 't', 'e']

/-- `Path(...).name`. -/
def pathName (path : List Char) : Name :=
  ((path.splitOn '/').filter fun part => part ≠ [] && part ≠ ['.']).getLastD []

def defaultName (i : Instance) : Name :=
  match i.dbFilename with
  | none => sqliteDefaultDbFilename
  | some raw => if raw = [] then sqliteDefaultDbFilename else pathName raw

/-- The URL of the old file that is preserved; an empty one is none. -/
def preservedDbUrl (i : Instance) (text : List Char) : Option (List Char) :=
  (parseExistingEnv true i.buildEnv text).databaseUrl.filter (· ≠ [])

/-- Copying the database of the source into the data directory. -/
def copySource (i : Instance) (data : DataDir) : DataDir :=
  match i.source with
  | some size => if defaultName i ∈ data.map Prod.fst then data else (defaultName i, some size) :: data
  | none => data

/-- The file that the old text names, or the default one. -/
def referenced (i : Instance) (text : List Char) : Option Name :=
  match preservedDbUrl i text with
  | some url => (dotenvReading url).map Prod.fst
  | none => some (defaultName i)

end LocalWebAccess.DatabaseFile
