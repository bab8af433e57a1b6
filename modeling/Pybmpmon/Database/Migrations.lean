import Mathlib.Data.List.Sort
import Pybmpmon.Database.Schema

/-!
# The migration runner

`MigrationRunner` of `database/migrations.py`, over the files of one start. What a
server does beyond `schema_migrations` is its own: any statement can fail, and the SQL
of a migration changes the rest of the database as it will. A transaction that fails
leaves the database as it was.
-/
namespace Pybmpmon.Database.Migrations

open Pybmpmon.Models.Route Pybmpmon.Database.Schema

/-- A file of the directory whose name is `stem` and `.sql`. -/
structure SqlFile where
  stem : String
  bytes : List UInt8
  deriving DecidableEq, Repr

/-- What Python makes of a text and of the bytes of a file. -/
structure Host where
  int : String → Option Int
  sha256 : List UInt8 → String
  readText : List UInt8 → Option String

structure Migration where
  version : Int
  name : String
  file : SqlFile
  deriving DecidableEq, Repr

def Migration.checksum (host : Host) (m : Migration) : String := host.sha256 m.file.bytes

def Migration.sql (host : Host) (m : Migration) : Option String := host.readText m.file.bytes

/-- A row of `schema_migrations`. -/
structure MigrationRow where
  version : Int
  name : String
  checksum : String
  appliedAt : Timestamp
  executionTimeMs : Int
  deriving DecidableEq, Repr

/-- `none` while there is no table `schema_migrations`. -/
structure DbState (δ : Type) where
  schemaMigrations : Option (List MigrationRow)
  rest : δ

inductive MigrationError (ε : Type) where
  | server (e : ε)
  | unicodeDecodeError
  | undefinedTable
  | uniqueViolation
  | integerOutOfRange
  deriving DecidableEq, Repr

inductive RunError (ε : Type) where
  | server (e : ε)
  | valueError (message : String)
  | migrationFailed (migration : Migration) (e : MigrationError ε)
  deriving DecidableEq, Repr

/-- The server during one run. Migration 000 creates `schema_migrations`; no other touches it. -/
structure Server (δ ε : Type) where
  query : Except ε Unit
  beginTransaction : Migration → Except ε Unit
  execute : Migration → String → DbState δ → Except ε (DbState δ)
  commit : Migration → Except ε Unit
  now : Migration → Timestamp
  executionTimeMs : Migration → Int
  creates : ∀ m sql d d', execute m sql d = .ok d' → m.version = 0 → d.schemaMigrations = none →
    d'.schemaMigrations = some []
  leaves : ∀ m sql d d', execute m sql d = .ok d' → m.version ≠ 0 →
    d'.schemaMigrations = d.schemaMigrations

variable {δ ε : Type}

/-! ## The files -/

/-- `stem.split("_", 1)`, when there are two parts. -/
def splitStem (stem : String) : Option (String × String) :=
  match stem.toList.span (· != '_') with
  | (_, []) => none
  | (version, _ :: name) => some (String.ofList version, String.ofList name)

/-- `001_initial` is version 1 with the name `initial`; other names are skipped. -/
def parseFile (host : Host) (file : SqlFile) : Option Migration :=
  match splitStem file.stem with
  | none => none
  | some (version, name) => (host.int version).map fun version => ⟨version, name, file⟩

def loadMigrations (host : Host) (files : List SqlFile) : List Migration :=
  ((files.insertionSort fun a b => a.stem ++ ".sql" ≤ b.stem ++ ".sql").filterMap
    (parseFile host)).insertionSort fun a b => a.version ≤ b.version

/-! ## The pending migrations -/

/-- The checksum that is recorded for a version. -/
def appliedChecksum (rows : List MigrationRow) (version : Int) : Option String :=
  (rows.find? fun r => r.version == version).map MigrationRow.checksum

def mismatchMessage (version : Int) : String :=
  s!"Migration {version} checksum mismatch - file may have been tampered with"

/-- The loop over all migrations. -/
def findPending (host : Host) (rows : List MigrationRow) :
    List Migration → Except (RunError ε) (List Migration)
  | [] => .ok []
  | m :: migrations =>
      match appliedChecksum rows m.version with
      | none => do
          let pending ← findPending host rows migrations
          .ok (m :: pending)
      | some checksum =>
          if m.checksum host != checksum then .error (.valueError (mismatchMessage m.version))
          else findPending host rows migrations

def getPendingMigrations (host : Host) (server : Server δ ε) (files : List SqlFile)
    (d : DbState δ) : Except (RunError ε) (List Migration) := do
  let allMigrations := loadMigrations host files
  server.query.mapError .server
  match d.schemaMigrations with
  | none => .ok allMigrations
  | some rows => findPending host rows allMigrations

/-! ## Applying them -/

/-- `INSERT INTO schema_migrations`. -/
def insertRow (row : MigrationRow) (d : DbState δ) : Except (MigrationError ε) (DbState δ) :=
  match d.schemaMigrations with
  | none => .error .undefinedTable
  | some rows =>
      if !fitsInteger row.version || !fitsInteger row.executionTimeMs then .error .integerOutOfRange
      else if row.version ∈ rows.map MigrationRow.version then .error .uniqueViolation
      else .ok { d with schemaMigrations := some (rows ++ [row]) }

def migrationRow (host : Host) (server : Server δ ε) (m : Migration) : MigrationRow :=
  ⟨m.version, m.name, m.checksum host, server.now m, server.executionTimeMs m⟩

/-- The transaction of one migration. -/
def applyMigration (host : Host) (server : Server δ ε) (m : Migration) (d : DbState δ) :
    Except (MigrationError ε) (DbState δ) := do
  (server.beginTransaction m).mapError .server
  match m.sql host with
  | none => .error .unicodeDecodeError
  | some sql =>
      let d ← (server.execute m sql d).mapError .server
      let d ← insertRow (migrationRow host server m) d
      (server.commit m).mapError .server
      .ok d

/-- A migration that is committed, and the database it leaves. -/
structure Commit (δ : Type) where
  migration : Migration
  database : DbState δ

structure Outcome (δ ε : Type) where
  database : DbState δ
  commits : List (Commit δ)
  result : Except (RunError ε) Nat

def applyPending (host : Host) (server : Server δ ε) (appliedCount : Nat) :
    List Migration → DbState δ → Outcome δ ε
  | [], d => ⟨d, [], .ok appliedCount⟩
  | m :: pending, d =>
      match applyMigration host server m d with
      | .error e => ⟨d, [], .error (.migrationFailed m e)⟩
      | .ok d' =>
          let outcome := applyPending host server (appliedCount + 1) pending d'
          { outcome with commits := ⟨m, d'⟩ :: outcome.commits }

def applyMigrations (host : Host) (server : Server δ ε) (files : List SqlFile) (d : DbState δ) :
    Outcome δ ε :=
  match getPendingMigrations host server files d with
  | .error e => ⟨d, [], .error e⟩
  | .ok pending => if pending.isEmpty then ⟨d, [], .ok 0⟩ else applyPending host server 0 pending d

end Pybmpmon.Database.Migrations
