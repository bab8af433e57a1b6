import Pybmpmon.Lib.Outcome
import Pybmpmon.Database.Migrations

/-!
# Histories of starts

Runs of the migration runner one after another, each over the files and the server it
finds, on a database that has no `schema_migrations` before the first. The rows of the
table are the transactions that were committed, in their order, and nothing is
committed twice.
-/
namespace Pybmpmon.Database.MigrationHistory

open Pybmpmon.Lib.Outcome Pybmpmon.Database.Schema Pybmpmon.Database.Migrations

variable {δ ε : Type}

/-- One start: its files have distinct versions. -/
structure Run (host : Host) (δ ε : Type) where
  files : List SqlFile
  server : Server δ ε
  distinct : ((loadMigrations host files).map Migration.version).Nodup

/-- The database, and what was committed so far. -/
structure History (δ : Type) where
  database : DbState δ
  commits : List (Commit δ)

def Run.outcome {host : Host} (run : Run host δ ε) (d : DbState δ) : Outcome δ ε :=
  applyMigrations host run.server run.files d

def History.next {host : Host} (h : History δ) (run : Run host δ ε) : History δ :=
  ⟨(run.outcome h.database).database, h.commits ++ (run.outcome h.database).commits⟩

/-- The runs from a database without the table. -/
def historyOf {host : Host} (rest : δ) (runs : List (Run host δ ε)) : History δ :=
  runs.foldl History.next ⟨⟨none, rest⟩, []⟩

/-- The rows of the table; none while there is no table. -/
def recordedRows (d : DbState δ) : List MigrationRow := d.schemaMigrations.getD []

def recorded (d : DbState δ) : List (Int × String) :=
  (recordedRows d).map fun r => (r.version, r.checksum)

/-- What a row of the commit should say: the version, and the checksum of what was executed. -/
def committedAs (host : Host) (c : Commit δ) : Int × String :=
  (c.migration.version, c.migration.checksum host)

def committedVersions (commits : List (Commit δ)) : List Int :=
  commits.map fun c => c.migration.version

/-- The database that commits leave. -/
def databaseAfter (d : DbState δ) : List (Commit δ) → DbState δ
  | [] => d
  | c :: commits => databaseAfter c.database commits

/-- The migrations of a start that are not in the table. -/
def unrecorded (host : Host) (files : List SqlFile) (d : DbState δ) : List Migration :=
  (loadMigrations host files).filter fun m => m.version ∉ (recordedRows d).map MigrationRow.version

/-- Nothing is committed twice, and after any number of commits the rows are these commits. -/
structure CommittedOnce (host : Host) (rest : δ) (h : History δ) : Prop where
  once : (committedVersions h.commits).Nodup
  rows : ∀ before after, h.commits = before ++ after →
    recorded (databaseAfter ⟨none, rest⟩ before) = before.map (committedAs host)
  current : h.database = databaseAfter ⟨none, rest⟩ h.commits

/-- What one start does on a database. -/
structure AllOrNothing {host : Host} (run : Run host δ ε) (d : DbState δ) : Prop where
  /-- A file that differs from what was executed stops the run before its first transaction. -/
  mismatch : ∀ m ∈ loadMigrations host run.files, ∀ r ∈ recordedRows d, r.version = m.version →
    r.checksum ≠ m.checksum host →
      (∃ e, (run.outcome d).result = .error e) ∧ (run.outcome d).commits = [] ∧
        (run.outcome d).database = d
  /-- A run that fails at a migration has committed the pending ones below it, in their order. -/
  failed : ∀ m e, (run.outcome d).result = .error (.migrationFailed m e) →
    (run.outcome d).commits.map Commit.migration =
        (unrecorded host run.files d).filter (fun p => p.version < m.version) ∧
      (committedVersions (run.outcome d).commits).Pairwise (· < ·)
  /-- After a run that succeeds everything is recorded, and another one finds nothing to do. -/
  succeeded : ∀ n, (run.outcome d).result = .ok n →
    (∀ m ∈ loadMigrations host run.files,
        m.version ∈ (recordedRows (run.outcome d).database).map MigrationRow.version) ∧
      ∀ server : Server δ ε, server.query = .ok () →
        applyMigrations host server run.files (run.outcome d).database =
          ⟨(run.outcome d).database, [], .ok 0⟩

/-! ## One transaction -/

/-- A transaction that is committed has found the table after its SQL, without its version. -/
theorem applyMigration_ok {host : Host} {server : Server δ ε} {m : Migration} {d d' : DbState δ}
    (h : applyMigration host server m d = .ok d') :
    ∃ sql executed rows, server.execute m sql d = .ok executed ∧
      executed.schemaMigrations = some rows ∧
      d'.schemaMigrations = some (rows ++ [migrationRow host server m]) := by
  rw [applyMigration] at h
  obtain ⟨_, _, h⟩ := bind_ok_iff.mp h
  split at h
  · cases h
  · rename_i sql _
    obtain ⟨executed, hexecute, h⟩ := bind_ok_iff.mp h
    obtain ⟨inserted, hinsert, h⟩ := bind_ok_iff.mp h
    obtain ⟨_, _, h⟩ := bind_ok_iff.mp h
    cases h
    refine ⟨sql, executed, ?_⟩
    cases hrows : executed.schemaMigrations with
    | none =>
      rw [insertRow, hrows] at hinsert
      cases hinsert
    | some rows =>
      rw [insertRow, hrows] at hinsert
      dsimp only at hinsert
      split at hinsert
      · cases hinsert
      · split at hinsert
        · cases hinsert
        · cases hinsert
          refine ⟨rows, ?_, rfl, rfl⟩
          cases hrun : server.execute m sql d with
          | error e =>
            rw [hrun] at hexecute
            cases hexecute
          | ok x =>
            rw [hrun] at hexecute
            cases hexecute
            rfl

/-- The rows are the commits; the table comes with version 0. -/
structure Tracks (host : Host) (commits : List (Commit δ)) (d : DbState δ) : Prop where
  distinct : (committedVersions commits).Nodup
  recorded : recorded d = commits.map (committedAs host)
  table : d.schemaMigrations ≠ none → 0 ∈ committedVersions commits

theorem committedVersions_eq (host : Host) (commits : List (Commit δ)) :
    committedVersions commits = (commits.map (committedAs host)).map Prod.fst := by
  rw [List.map_map]
  rfl

theorem recordedVersions_eq (d : DbState δ) :
    (recordedRows d).map MigrationRow.version = (recorded d).map Prod.fst := by
  rw [recorded, List.map_map]
  rfl

theorem Tracks.versions {host : Host} {commits : List (Commit δ)} {d : DbState δ}
    (h : Tracks host commits d) :
    (recordedRows d).map MigrationRow.version = committedVersions commits := by
  rw [recordedVersions_eq, h.recorded, ← committedVersions_eq]

/-- The step lemma: one more commit. -/
theorem tracks_commit {host : Host} {server : Server δ ε} {commits : List (Commit δ)}
    {m : Migration} {d d' : DbState δ} (h : Tracks host commits d)
    (hnew : m.version ∉ committedVersions commits) (happly : applyMigration host server m d = .ok d') :
    Tracks host (commits ++ [⟨m, d'⟩]) d' := by
  obtain ⟨sql, executed, rows, hexecute, hexecuted, hd'⟩ := applyMigration_ok happly
  -- the rows that the insertion finds are those from before the transaction
  have hrows : rows = recordedRows d := by
    by_cases hzero : m.version = 0
    · cases htable : d.schemaMigrations with
      | none =>
        rw [server.creates m sql d executed hexecute hzero htable, Option.some_inj] at hexecuted
        rw [recordedRows, htable, ← hexecuted]
        rfl
      | some old =>
        have hfound := h.table (by rw [htable]; exact Option.some_ne_none old)
        rw [← hzero] at hfound
        exact absurd hfound hnew
    · rw [server.leaves m sql d executed hexecute hzero] at hexecuted
      rw [recordedRows, hexecuted]
      rfl
  have hversions : committedVersions (commits ++ [⟨m, d'⟩]) = committedVersions commits ++ [m.version] :=
    List.map_append
  constructor
  · rw [hversions, List.nodup_append]
    refine ⟨h.distinct, List.nodup_singleton _, ?_⟩
    intro v hv w hw
    rw [List.mem_singleton] at hw
    rintro rfl
    exact hnew (hw ▸ hv)
  · have hold := h.recorded
    rw [MigrationHistory.recorded, ← hrows] at hold
    rw [MigrationHistory.recorded, recordedRows, hd', Option.getD_some, List.map_append, hold,
      List.map_append]
    rfl
  · intro _
    rw [hversions, List.mem_append]
    by_cases hzero : m.version = 0
    · right
      rw [hzero]
      exact List.mem_singleton_self _
    · left
      apply h.table
      rw [← server.leaves m sql d executed hexecute hzero, hexecuted]
      exact Option.some_ne_none rows

/-! ## The pending migrations -/

theorem appliedChecksum_none {rows : List MigrationRow} {version : Int} :
    appliedChecksum rows version = none ↔ version ∉ rows.map MigrationRow.version := by
  rw [appliedChecksum, Option.map_eq_none_iff, List.find?_eq_none, List.mem_map]
  simp

/-- In a table with one row for each version the lookup finds the row. -/
theorem appliedChecksum_of_mem {rows : List MigrationRow}
    (hnodup : (rows.map MigrationRow.version).Nodup) {r : MigrationRow} (hr : r ∈ rows) :
    appliedChecksum rows r.version = some r.checksum := by
  cases hfind : rows.find? fun x => x.version == r.version with
  | none =>
    have hnone := List.find?_eq_none.mp hfind r hr
    exact absurd BEq.rfl hnone
  | some x =>
    have hx := List.mem_of_find?_eq_some hfind
    have hversion : x.version = r.version := by simpa using List.find?_some hfind
    rw [appliedChecksum, hfind, Option.map_some, List.inj_on_of_nodup_map hnodup hx hr hversion]

/-- The loop returns when no file differs, with those that have no row. -/
theorem findPending_ok {host : Host} {rows : List MigrationRow} {migrations pending : List Migration}
    (h : (findPending host rows migrations : Except (RunError ε) _) = .ok pending) :
    pending = (migrations.filter fun m => m.version ∉ rows.map MigrationRow.version) ∧
      ∀ m ∈ migrations, ∀ checksum, appliedChecksum rows m.version = some checksum →
        checksum = m.checksum host := by
  induction migrations generalizing pending with
  | nil =>
    cases h
    exact ⟨rfl, fun m hm => absurd hm List.not_mem_nil⟩
  | cons m migrations ih =>
    rw [findPending] at h
    cases hfound : appliedChecksum rows m.version with
    | none =>
      rw [hfound] at h
      obtain ⟨others, hothers, h⟩ := bind_ok_iff.mp h
      cases h
      obtain ⟨hfilter, hsame⟩ := ih hothers
      constructor
      · rw [List.filter_cons_of_pos (by simpa using appliedChecksum_none.mp hfound), hfilter]
      · intro x hx checksum hchecksum
        rcases List.mem_cons.mp hx with rfl | hx
        · rw [hfound] at hchecksum
          cases hchecksum
        · exact hsame x hx checksum hchecksum
    | some old =>
      rw [hfound] at h
      dsimp only at h
      split at h
      · cases h
      · rename_i hchecked
        have hchecksum : m.checksum host = old := by simpa using hchecked
        obtain ⟨hfilter, hsame⟩ := ih h
        have hrecorded : m.version ∈ rows.map MigrationRow.version := by
          by_contra hnot
          rw [appliedChecksum_none.mpr hnot] at hfound
          cases hfound
        constructor
        · rw [List.filter_cons_of_neg (by simpa using hrecorded), hfilter]
        · intro x hx checksum hx'
          rcases List.mem_cons.mp hx with rfl | hx
          · rw [hfound, Option.some_inj] at hx'
            exact hx'.symm.trans hchecksum.symm
          · exact hsame x hx checksum hx'

/-- It returns when no file differs. -/
theorem findPending_same {host : Host} {rows : List MigrationRow} {migrations : List Migration}
    (h : ∀ m ∈ migrations, ∀ checksum, appliedChecksum rows m.version = some checksum →
      checksum = m.checksum host) :
    (findPending host rows migrations : Except (RunError ε) _) =
      .ok (migrations.filter fun m => m.version ∉ rows.map MigrationRow.version) := by
  induction migrations with
  | nil => rfl
  | cons m migrations ih =>
    have hothers := ih fun x hx => h x (List.mem_cons_of_mem _ hx)
    rw [findPending]
    cases hfound : appliedChecksum rows m.version with
    | none =>
      rw [hothers, List.filter_cons_of_pos (by simpa using appliedChecksum_none.mp hfound)]
      rfl
    | some old =>
      have hsame := h m List.mem_cons_self old hfound
      have hrecorded : m.version ∈ rows.map MigrationRow.version := by
        by_contra hnot
        rw [appliedChecksum_none.mpr hnot] at hfound
        cases hfound
      dsimp only
      rw [hsame, if_neg (by simp), hothers, List.filter_cons_of_neg (by simpa using hrecorded)]

/-- What is pending is what has no row. -/
theorem getPendingMigrations_ok {host : Host} {server : Server δ ε} {files : List SqlFile}
    {d : DbState δ} {pending : List Migration}
    (h : getPendingMigrations host server files d = .ok pending) :
    pending = unrecorded host files d ∧
      ∀ m ∈ loadMigrations host files, ∀ checksum,
        appliedChecksum (recordedRows d) m.version = some checksum → checksum = m.checksum host := by
  rw [getPendingMigrations] at h
  obtain ⟨_, _, h⟩ := bind_ok_iff.mp h
  rw [unrecorded, recordedRows]
  cases hrows : d.schemaMigrations with
  | none =>
    rw [hrows] at h
    cases h
    refine ⟨?_, fun m _ checksum hchecksum => ?_⟩
    · symm
      rw [List.filter_eq_self]
      simp
    · cases hchecksum
  | some rows =>
    rw [hrows] at h
    exact findPending_ok h

theorem loadMigrations_sorted (host : Host) (files : List SqlFile) :
    (loadMigrations host files).Pairwise fun a b => a.version ≤ b.version := by
  have : Std.Total fun a b : Migration => a.version ≤ b.version := ⟨fun a b => Int.le_total _ _⟩
  have : IsTrans Migration fun a b => a.version ≤ b.version := ⟨fun _ _ _ => Int.le_trans⟩
  exact List.pairwise_insertionSort _ _

/-- Distinct versions in ascending order. -/
theorem unrecorded_ascending {host : Host} {files : List SqlFile}
    (hdistinct : ((loadMigrations host files).map Migration.version).Nodup) (d : DbState δ) :
    (unrecorded host files d).Pairwise fun a b => a.version < b.version := by
  rw [List.Nodup, List.pairwise_map] at hdistinct
  apply List.Pairwise.filter
  exact ((loadMigrations_sorted host files).and hdistinct).imp fun ⟨hle, hne⟩ =>
    lt_of_le_of_ne hle hne

/-! ## The loop of a run -/

theorem databaseAfter_append (d : DbState δ) (a b : List (Commit δ)) :
    databaseAfter d (a ++ b) = databaseAfter (databaseAfter d a) b := by
  induction a generalizing d with
  | nil => rfl
  | cons c a ih => exact ih c.database

/-- The loop commits from the front and stops at the first migration that fails. -/
theorem applyPending_split (host : Host) (server : Server δ ε) (appliedCount : Nat)
    (pending : List Migration) (d : DbState δ) :
    let outcome := applyPending host server appliedCount pending d
    outcome.database = databaseAfter d outcome.commits ∧
      ((outcome.commits.map Commit.migration = pending ∧
          outcome.result = .ok (appliedCount + pending.length)) ∨
        ∃ m rest e, pending = outcome.commits.map Commit.migration ++ m :: rest ∧
          outcome.result = .error (.migrationFailed m e)) := by
  induction pending generalizing appliedCount d with
  | nil => exact ⟨rfl, .inl ⟨rfl, rfl⟩⟩
  | cons m pending ih =>
    rw [applyPending]
    cases happly : applyMigration host server m d with
    | error e => exact ⟨rfl, .inr ⟨m, pending, e, rfl, rfl⟩⟩
    | ok d' =>
      obtain ⟨hdatabase, hcase⟩ := ih (appliedCount + 1) d'
      refine ⟨hdatabase, ?_⟩
      rcases hcase with ⟨hall, hresult⟩ | ⟨failed, rest, e, hsplit, hresult⟩
      · left
        refine ⟨congrArg (m :: ·) hall, ?_⟩
        rw [hresult, List.length_cons]
        congr 1
        omega
      · exact .inr ⟨failed, rest, e, congrArg (m :: ·) hsplit, hresult⟩

/-- The run lemma of the loop: the rows are the commits after each of them. -/
theorem applyPending_tracks {host : Host} {server : Server δ ε} {appliedCount : Nat}
    {pending : List Migration} {commits : List (Commit δ)} {d : DbState δ} (h : Tracks host commits d)
    (hdistinct : (pending.map Migration.version).Nodup)
    (hnew : ∀ m ∈ pending, m.version ∉ committedVersions commits) :
    ∀ before after, (applyPending host server appliedCount pending d).commits = before ++ after →
      Tracks host (commits ++ before) (databaseAfter d before) := by
  induction pending generalizing appliedCount commits d with
  | nil =>
    intro before after hsplit
    obtain ⟨rfl, _⟩ := List.append_eq_nil_iff.mp hsplit.symm
    rw [List.append_nil]
    exact h
  | cons m pending ih =>
    rw [List.map_cons, List.nodup_cons] at hdistinct
    intro before after hsplit
    rw [applyPending] at hsplit
    cases happly : applyMigration host server m d with
    | error e =>
      rw [happly] at hsplit
      obtain ⟨rfl, _⟩ := List.append_eq_nil_iff.mp hsplit.symm
      rw [List.append_nil]
      exact h
    | ok d' =>
      rw [happly] at hsplit
      dsimp only at hsplit
      cases before with
      | nil =>
        rw [List.append_nil]
        exact h
      | cons c before =>
        rw [List.cons_append, List.cons.injEq] at hsplit
        obtain ⟨rfl, hsplit⟩ := hsplit
        have hcommit := tracks_commit h (hnew m List.mem_cons_self) happly
        have hnew' : ∀ x ∈ pending, x.version ∉ committedVersions (commits ++ [⟨m, d'⟩]) := by
          intro x hx hmem
          rw [committedVersions, List.map_append, List.mem_append] at hmem
          rcases hmem with hmem | hmem
          · exact hnew x (List.mem_cons_of_mem _ hx) hmem
          · rw [List.map_singleton, List.mem_singleton] at hmem
            exact hdistinct.1 (List.mem_map.mpr ⟨x, hx, hmem⟩)
        have hlater := ih hcommit hdistinct.2 hnew' before after hsplit
        rw [List.append_cons]
        exact hlater

/-! ## One run -/

/-- The check of a run ends before any migration fails. -/
theorem getPendingMigrations_raises (host : Host) (server : Server δ ε) (files : List SqlFile)
    (d : DbState δ) :
    Raises (fun e => ∀ m e', e ≠ .migrationFailed m e') (getPendingMigrations host server files d) := by
  have hfind : ∀ rows migrations, Raises (fun e : RunError ε => ∀ m e', e ≠ .migrationFailed m e')
      (findPending host rows migrations) := by
    intro rows migrations
    induction migrations with
    | nil => exact raises_ok _
    | cons m migrations ih =>
      rw [findPending]
      split
      · exact raises_bind ih fun _ _ => raises_ok _
      · apply raises_ite
        · intro _
          exact raises_error.mpr fun _ _ h => by cases h
        · intro _
          exact ih
  rw [getPendingMigrations]
  apply raises_bind
  · intro e he m e' hfailed
    cases hquery : server.query with
    | ok _ =>
      rw [hquery] at he
      cases he
    | error x =>
      rw [hquery, hfailed] at he
      cases he
  · intro _ _
    split
    · exact raises_ok _
    · exact hfind _ _

/-- A run refuses before its first transaction, or goes through what has no row. -/
theorem outcome_cases {host : Host} (run : Run host δ ε) (d : DbState δ) :
    (∃ e, (∀ m e', e ≠ .migrationFailed m e') ∧ run.outcome d = ⟨d, [], .error e⟩) ∨
      run.outcome d = applyPending host run.server 0 (unrecorded host run.files d) d ∧
        ∀ m ∈ loadMigrations host run.files, ∀ checksum,
          appliedChecksum (recordedRows d) m.version = some checksum → checksum = m.checksum host := by
  rw [Run.outcome, applyMigrations]
  cases hpending : getPendingMigrations host run.server run.files d with
  | error e => exact .inl ⟨e, getPendingMigrations_raises host run.server run.files d e hpending, rfl⟩
  | ok pending =>
    obtain ⟨rfl, hsame⟩ := getPendingMigrations_ok hpending
    refine .inr ⟨?_, hsame⟩
    cases unrecorded host run.files d with
    | nil => rfl
    | cons m pending => rfl

/-- The rows after any number of commits of a run. -/
theorem outcome_tracks {host : Host} (run : Run host δ ε) {commits : List (Commit δ)} {d : DbState δ}
    (h : Tracks host commits d) :
    (run.outcome d).database = databaseAfter d (run.outcome d).commits ∧
      ∀ before after, (run.outcome d).commits = before ++ after →
        Tracks host (commits ++ before) (databaseAfter d before) := by
  rcases outcome_cases run d with ⟨e, _, houtcome⟩ | ⟨houtcome, _⟩
  · rw [houtcome]
    refine ⟨rfl, fun before after hsplit => ?_⟩
    obtain ⟨rfl, _⟩ := List.append_eq_nil_iff.mp hsplit.symm
    rw [List.append_nil]
    exact h
  · rw [houtcome]
    refine ⟨(applyPending_split host run.server 0 _ d).1, applyPending_tracks h ?_ ?_⟩
    · exact List.Nodup.sublist (List.filter_sublist.map _) run.distinct
    · intro m hm
      have hunrecorded := (List.mem_filter.mp hm).2
      rw [← h.versions]
      simpa using hunrecorded

/-- Nothing is pending where every file is recorded as it is. -/
theorem applyMigrations_again {host : Host} {server : Server δ ε} {files : List SqlFile}
    {d : DbState δ} (hquery : server.query = .ok ())
    (hrecorded : ∀ m ∈ loadMigrations host files,
      m.version ∈ (recordedRows d).map MigrationRow.version)
    (hsame : ∀ m ∈ loadMigrations host files, ∀ checksum,
      appliedChecksum (recordedRows d) m.version = some checksum → checksum = m.checksum host) :
    applyMigrations host server files d = ⟨d, [], .ok 0⟩ := by
  have hnone : ((loadMigrations host files).filter fun m =>
      m.version ∉ (recordedRows d).map MigrationRow.version) = [] := by
    rw [List.filter_eq_nil_iff]
    intro m hm
    simpa using hrecorded m hm
  have hpending : getPendingMigrations host server files d = .ok [] := by
    have hqueried : (Except.ok () : Except ε Unit).mapError RunError.server = .ok () := rfl
    rw [getPendingMigrations, hquery, hqueried, ok_bind]
    rw [recordedRows] at hnone hsame
    cases hrows : d.schemaMigrations with
    | none =>
      rw [hrows] at hnone
      rw [← hnone]
      symm
      simp
    | some rows =>
      rw [hrows] at hnone hsame
      exact (findPending_same hsame).trans (congrArg Except.ok hnone)
  rw [applyMigrations, hpending]
  rfl

/-- A file that differs from a recorded checksum. -/
theorem outcome_mismatch {host : Host} (run : Run host δ ε) {commits : List (Commit δ)}
    {d : DbState δ} (h : Tracks host commits d) {m : Migration}
    (hm : m ∈ loadMigrations host run.files) {r : MigrationRow} (hr : r ∈ recordedRows d)
    (hversion : r.version = m.version) (hdiffers : r.checksum ≠ m.checksum host) :
    ∃ e, run.outcome d = ⟨d, [], .error e⟩ := by
  rcases outcome_cases run d with ⟨e, _, houtcome⟩ | ⟨_, hsame⟩
  · exact ⟨e, houtcome⟩
  · have hdistinct := h.distinct
    rw [← h.versions] at hdistinct
    have hfound := appliedChecksum_of_mem hdistinct hr
    rw [hversion] at hfound
    exact absurd (hsame m hm r.checksum hfound) hdiffers

/-- The commits of a run that failed. -/
theorem outcome_failed {host : Host} (run : Run host δ ε) (d : DbState δ) {m : Migration}
    {e : MigrationError ε} (h : (run.outcome d).result = .error (.migrationFailed m e)) :
    (run.outcome d).commits.map Commit.migration =
        (unrecorded host run.files d).filter (fun p => p.version < m.version) ∧
      (committedVersions (run.outcome d).commits).Pairwise (· < ·) := by
  have hascending := unrecorded_ascending run.distinct d
  rcases outcome_cases run d with ⟨e', hrefused, houtcome⟩ | ⟨houtcome, _⟩
  · rw [houtcome, Except.error.injEq] at h
    exact absurd h (hrefused m e)
  · rw [houtcome] at h ⊢
    obtain ⟨_, ⟨_, hresult⟩ | ⟨failed, rest, e', hsplit, hresult⟩⟩ :=
      applyPending_split host run.server 0 (unrecorded host run.files d) d
    · rw [hresult] at h
      cases h
    · rw [hresult] at h
      cases h
      generalize (applyPending host run.server 0 (unrecorded host run.files d) d).commits = done at *
      rw [hsplit, List.pairwise_append, List.pairwise_cons] at hascending
      obtain ⟨hdone, ⟨hrest, _⟩, hbelow⟩ := hascending
      constructor
      · have hfront : (done.map Commit.migration).filter (fun p => p.version < m.version) =
            done.map Commit.migration := by
          rw [List.filter_eq_self]
          intro p hp
          exact decide_eq_true (hbelow p hp m List.mem_cons_self)
        have hback : rest.filter (fun p => p.version < m.version) = [] := by
          rw [List.filter_eq_nil_iff]
          intro p hp
          have hlt := hrest p hp
          simp only [decide_eq_true_eq]
          omega
        rw [hsplit, List.filter_append, hfront, List.filter_cons_of_neg (by simp), hback,
          List.append_nil]
      · rw [committedVersions, List.pairwise_map]
        rw [List.pairwise_map] at hdone
        exact hdone

/-- A run that succeeded has compared every recorded file and committed every other. -/
theorem outcome_all {host : Host} (run : Run host δ ε) {d : DbState δ} {n : Nat}
    (hok : (run.outcome d).result = .ok n) :
    (run.outcome d).commits.map Commit.migration = unrecorded host run.files d ∧
      ∀ m ∈ loadMigrations host run.files, ∀ checksum,
        appliedChecksum (recordedRows d) m.version = some checksum → checksum = m.checksum host := by
  rcases outcome_cases run d with ⟨e, _, houtcome⟩ | ⟨houtcome, hsame⟩
  · rw [houtcome] at hok
    cases hok
  · refine ⟨?_, hsame⟩
    rw [houtcome] at hok ⊢
    obtain ⟨_, ⟨hall, _⟩ | ⟨m, rest, e, _, hresult⟩⟩ :=
      applyPending_split host run.server 0 (unrecorded host run.files d) d
    · exact hall
    · rw [hresult] at hok
      cases hok

/-- After a run, what is tracked is what was before it and its own commits. -/
theorem outcome_after {host : Host} (run : Run host δ ε) {commits : List (Commit δ)} {d : DbState δ}
    (h : Tracks host commits d) :
    Tracks host (commits ++ (run.outcome d).commits) (run.outcome d).database := by
  obtain ⟨hdatabase, htracks⟩ := outcome_tracks run h
  rw [hdatabase]
  exact htracks (run.outcome d).commits [] (List.append_nil _).symm

theorem succeeded_versions {host : Host} (run : Run host δ ε) {commits : List (Commit δ)}
    {d : DbState δ} (h : Tracks host commits d) {n : Nat} (hok : (run.outcome d).result = .ok n) :
    ∀ m ∈ loadMigrations host run.files,
      m.version ∈ (recordedRows (run.outcome d).database).map MigrationRow.version := by
  obtain ⟨hall, _⟩ := outcome_all run hok
  have hversions : committedVersions (commits ++ (run.outcome d).commits) =
      committedVersions commits ++ (unrecorded host run.files d).map Migration.version := by
    rw [← hall, committedVersions, List.map_append, List.map_map]
    rfl
  intro m hm
  rw [(outcome_after run h).versions, hversions, List.mem_append, ← h.versions]
  by_cases hold : m.version ∈ (recordedRows d).map MigrationRow.version
  · exact .inl hold
  · exact .inr (List.mem_map.mpr ⟨m, List.mem_filter.mpr ⟨hm, by simpa using hold⟩, rfl⟩)

theorem succeeded_checksums {host : Host} (run : Run host δ ε) {commits : List (Commit δ)}
    {d : DbState δ} (h : Tracks host commits d) {n : Nat} (hok : (run.outcome d).result = .ok n) :
    ∀ m ∈ loadMigrations host run.files, ∀ checksum,
      appliedChecksum (recordedRows (run.outcome d).database) m.version = some checksum →
        checksum = m.checksum host := by
  obtain ⟨hall, hsame⟩ := outcome_all run hok
  intro m hm checksum hchecksum
  obtain ⟨r, hr, rfl⟩ := Option.map_eq_some_iff.mp hchecksum
  have hversion : r.version = m.version := by simpa using List.find?_some hr
  have hmem : (r.version, r.checksum) ∈ recorded (run.outcome d).database :=
    List.mem_map.mpr ⟨r, List.mem_of_find?_eq_some hr, rfl⟩
  rw [(outcome_after run h).recorded, List.map_append, List.mem_append] at hmem
  rcases hmem with hmem | hmem
  · -- a row from before the run, which the check has compared
    rw [← h.recorded] at hmem
    obtain ⟨old, hold, hpair⟩ := List.mem_map.mp hmem
    rw [Prod.mk.injEq] at hpair
    have hdistinct := h.distinct
    rw [← h.versions] at hdistinct
    have hfound := appliedChecksum_of_mem hdistinct hold
    rw [hpair.1, hpair.2, hversion] at hfound
    exact hsame m hm _ hfound
  · -- a row of this run
    obtain ⟨c, hc, hpair⟩ := List.mem_map.mp hmem
    rw [committedAs, Prod.mk.injEq] at hpair
    have hloaded : c.migration ∈ loadMigrations host run.files := by
      have hpending : c.migration ∈ unrecorded host run.files d := by
        rw [← hall]
        exact List.mem_map_of_mem hc
      exact List.mem_of_mem_filter hpending
    have hsamefile : c.migration = m :=
      List.inj_on_of_nodup_map run.distinct hloaded hm (hpair.1.trans hversion)
    rw [← hpair.2, hsamefile]

/-! ## Any runs -/

/-- The run lemma of a history. -/
theorem historyOf_tracks {host : Host} (rest : δ) (runs : List (Run host δ ε)) :
    (historyOf rest runs).database = databaseAfter ⟨none, rest⟩ (historyOf rest runs).commits ∧
      ∀ before after, (historyOf rest runs).commits = before ++ after →
        Tracks host before (databaseAfter ⟨none, rest⟩ before) := by
  induction runs using List.reverseRecOn with
  | nil =>
    refine ⟨rfl, fun before after hsplit => ?_⟩
    obtain ⟨rfl, _⟩ := List.append_eq_nil_iff.mp hsplit.symm
    exact ⟨List.nodup_nil, rfl, fun h => absurd rfl h⟩
  | append_singleton runs run ih =>
    obtain ⟨hdatabase, htracks⟩ := ih
    have hnow := htracks _ [] (List.append_nil _).symm
    rw [← hdatabase] at hnow
    obtain ⟨hnext, hcommits⟩ := outcome_tracks run hnow
    have hhistory : historyOf rest (runs ++ [run]) = (historyOf rest runs).next run := by
      rw [historyOf, List.foldl_concat, ← historyOf]
    rw [hhistory]
    constructor
    · show (run.outcome (historyOf rest runs).database).database = databaseAfter _ (_ ++ _)
      rw [databaseAfter_append, ← hdatabase]
      exact hnext
    · intro before after hsplit
      rcases List.append_eq_append_iff.mp hsplit with ⟨more, rfl, hmore⟩ | ⟨left, hleft, _⟩
      · rw [databaseAfter_append, ← hdatabase]
        exact hcommits more after hmore
      · exact htracks before left hleft

/-- However often the runner is started, over whatever files, every version is committed once and the
table says so; each start applies everything, or the migrations below the one that failed. -/
theorem migrations_applied_once {host : Host} (rest : δ) (runs : List (Run host δ ε)) :
    CommittedOnce host rest (historyOf rest runs) ∧
      ∀ before run after, runs = before ++ run :: after →
        AllOrNothing run (historyOf rest before).database := by
  constructor
  · obtain ⟨hdatabase, htracks⟩ := historyOf_tracks rest runs
    exact ⟨(htracks _ [] (List.append_nil _).symm).distinct,
      fun before after hsplit => (htracks before after hsplit).recorded, hdatabase⟩
  · intro before run after _
    obtain ⟨hdatabase, htracks⟩ := historyOf_tracks rest before
    have hnow := htracks _ [] (List.append_nil _).symm
    rw [← hdatabase] at hnow
    constructor
    · intro m hm r hr hversion hdiffers
      obtain ⟨e, houtcome⟩ := outcome_mismatch run hnow hm hr hversion hdiffers
      rw [houtcome]
      exact ⟨⟨e, rfl⟩, rfl, rfl⟩
    · intro m e hfailed
      exact outcome_failed run _ hfailed
    · intro n hok
      have hrecorded := succeeded_versions run hnow hok
      have hsame := succeeded_checksums run hnow hok
      exact ⟨hrecorded, fun server hquery => applyMigrations_again hquery hrecorded hsame⟩

/-- Reads two versions, and takes the length of a file for its checksum. -/
def sampleHost : Host where
  int := fun text => if text = "000" then some 0 else if text = "001" then some 1 else none
  sha256 := fun bytes => toString bytes.length
  readText := fun _ => some ""

/-- A server on which at most one migration fails. -/
def sampleServer (failing : Option Int) : Server Unit Unit where
  query := .ok ()
  beginTransaction := fun _ => .ok ()
  execute := fun m _ d =>
    if failing = some m.version then .error ()
    else if m.version = 0 then .ok { d with schemaMigrations := some (recordedRows d) }
    else .ok d
  commit := fun _ => .ok ()
  now := fun _ => 0
  executionTimeMs := fun _ => 1
  creates := by
    intro m sql d d' h hzero hnone
    split at h
    · cases h
    · cases h
      rw [recordedRows, hnone]
      rfl
  leaves := by
    intro m sql d d' h hzero
    split at h
    · cases h
    · cases h
      rfl

def sampleRun (failing : Option Int) : Run sampleHost Unit Unit where
  files := [⟨"001_initial", [1, 2]⟩, ⟨"000_bootstrap", [1]⟩]
  server := sampleServer failing
  distinct := by decide

/-- A start that fails at migration 001, and two that do not. -/
example :
    (historyOf () [sampleRun (some 1), sampleRun none, sampleRun none]).commits.map
      (committedAs sampleHost) = [(0, "1"), (1, "2")] := by decide

end Pybmpmon.Database.MigrationHistory
