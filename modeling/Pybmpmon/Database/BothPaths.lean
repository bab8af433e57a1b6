import Pybmpmon.Database.FailedFlush

/-!
# Two ways to write a route

`insert_route_update` of `database/operations.py` passes its values to an `INSERT` with a
column list, `_flush_batch` passes tuples to a COPY with another. A column that a
statement does not name is NULL in the row it writes. What the flush calls after its
COPY changes no row of `route_updates`, and whether it raises does not matter here.
-/
namespace Pybmpmon.Database.BothPaths

open Pybmpmon.Python Pybmpmon.Models.Route
open Pybmpmon.Database.Schema Pybmpmon.Database.RouteState Pybmpmon.Database.BatchWriter
open Pybmpmon.Database.FailedFlush Pybmpmon.Database.Postgres

/-- The columns of `route_updates`, those of the first migration and the one added later. -/
inductive Column where
  | time
  | bmpPeerIp
  | bmpPeerAsn
  | bgpPeerIp
  | bgpPeerAsn
  | family
  | prefixCidr
  | nextHop
  | asPath
  | communities
  | med
  | localPref
  | isWithdrawn
  | policyStage
  | evpnRouteType
  | evpnRd
  | evpnEsi
  | macAddress
  | extendedCommunities
  deriving DecidableEq, Repr

inductive Cell where
  | null
  | timestamp (t : Timestamp)
  | inet (a : IpAddress)
  | cidr (c : Cidr)
  | integer (n : Nat)
  | integers (ns : List Nat)
  | string (s : String)
  | strings (ss : List String)
  | boolean (b : Bool)
  | family (f : Family)
  | policyStage (p : PolicyStage)
  deriving DecidableEq, Repr

/-- `None` is NULL. -/
def Cell.ofOption {α : Type} (cell : α → Cell) : Option α → Cell
  | none => .null
  | some a => cell a

/-- What the column types accept of a cell. -/
def Cell.fits : Cell → Bool
  | .integer n => fitsInteger n
  | .integers ns => ns.all fun n => fitsInteger n
  | .cidr c => c.hostBitsZero
  | _ => true

abbrev Row := Column → Cell

/-- The row that a statement with a column list writes. -/
def rowOf (columns : List Column) (values : List Cell) : Row := fun column =>
  ((columns.zip values).lookup column).getD .null

/-! ## The single-row path -/

/-- The column list of the `INSERT`. -/
def insertColumns : List Column :=
  [.time, .bmpPeerIp, .bmpPeerAsn, .bgpPeerIp, .bgpPeerAsn,
    .family, .prefixCidr, .nextHop, .asPath, .communities,
    .med, .localPref, .isWithdrawn, .policyStage,
    .evpnRouteType, .evpnRd, .evpnEsi, .macAddress]

/-- The arguments of `conn.execute`, `$1` to `$18`. -/
def insertValues (route : RouteUpdate) : List Cell :=
  [.timestamp route.time, .inet route.bmpPeerIp, .ofOption .integer route.bmpPeerAsn,
    .inet route.bgpPeerIp, .ofOption .integer route.bgpPeerAsn,
    .family route.family, .ofOption .cidr route.prefixCidr, .ofOption .inet route.nextHop,
    .ofOption .integers route.asPath, .ofOption .strings route.communities,
    .ofOption .integer route.med, .ofOption .integer route.localPref, .boolean route.isWithdrawn,
    .policyStage route.policyStage,
    .ofOption .integer route.evpnRouteType, .ofOption .string route.evpnRd,
    .ofOption .string route.evpnEsi, .ofOption .string route.macAddress]

/-- The calls of both paths: `conn.execute` of an `INSERT`, and those of the batch writer. -/
structure Connections (δ : Type) extends Pool δ where
  execute : List Column → List Cell → δ → Except PyErr Unit × δ

def insertRouteUpdate {δ : Type} (pool : Connections δ) (route : RouteUpdate) (d : δ) :
    Except PyErr Unit × δ :=
  match pool.acquire d with
  | (.error e, d) => (.error e, d)
  | (.ok (), d) => pool.execute insertColumns (insertValues route) d

/-! ## The bulk path -/

/-- The column list of the COPY. -/
def copyColumns : List Column :=
  [.time, .bmpPeerIp, .bmpPeerAsn, .bgpPeerIp, .bgpPeerAsn, .family, .prefixCidr, .nextHop,
    .asPath, .communities, .extendedCommunities, .med, .localPref, .isWithdrawn, .policyStage,
    .evpnRouteType, .evpnRd, .evpnEsi, .macAddress]

/-- The values of a tuple of the batch, by position. -/
def tupleValues (t : RouteTuple) : List Cell :=
  [.timestamp t.time, .inet t.bmpPeerIp, .ofOption .integer t.bmpPeerAsn, .inet t.bgpPeerIp,
    .ofOption .integer t.bgpPeerAsn, .family t.family, .ofOption .cidr t.prefixCidr,
    .ofOption .inet t.nextHop, .ofOption .integers t.asPath, .ofOption .strings t.communities,
    .ofOption .strings t.extendedCommunities, .ofOption .integer t.med,
    .ofOption .integer t.localPref, .boolean t.isWithdrawn, .policyStage t.policyStage,
    .ofOption .integer t.evpnRouteType, .ofOption .string t.evpnRd, .ofOption .string t.evpnEsi,
    .ofOption .string t.macAddress]

/-- A column of a row that a COPY writes. -/
def cells (r : RouteUpdatesRow) : Row
  | .time => .timestamp r.time
  | .bmpPeerIp => .inet r.bmpPeerIp
  | .bmpPeerAsn => .ofOption .integer r.bmpPeerAsn
  | .bgpPeerIp => .inet r.bgpPeerIp
  | .bgpPeerAsn => .ofOption .integer r.bgpPeerAsn
  | .family => .family r.family
  | .prefixCidr => .ofOption .cidr r.prefixCidr
  | .nextHop => .ofOption .inet r.nextHop
  | .asPath => .ofOption .integers r.asPath
  | .communities => .ofOption .strings r.communities
  | .med => .ofOption .integer r.med
  | .localPref => .ofOption .integer r.localPref
  | .isWithdrawn => .boolean r.isWithdrawn
  | .policyStage => .policyStage r.policyStage
  | .evpnRouteType => .ofOption .integer r.evpnRouteType
  | .evpnRd => .ofOption .string r.evpnRd
  | .evpnEsi => .ofOption .string r.evpnEsi
  | .macAddress => .ofOption .string r.macAddress
  | .extendedCommunities => .ofOption .strings r.extendedCommunities

/-- The COPY puts each value of the tuple in the column that stands at its position. -/
theorem copyRow_positions (t : RouteTuple) :
    cells (copyRow t) = rowOf copyColumns (tupleValues t) := by
  funext column
  cases column <;> rfl

/-- `add_route` and then `flush`, on a writer that has just been started. -/
def addAndFlush {δ : Type} (pool : Pool δ) (batchSize : Nat) (batchTimeout now : Timestamp)
    (route : RouteUpdate) (d : δ) : Except PyErr Unit × δ :=
  match addRoute pool route now (Writer.new batchSize batchTimeout).start d with
  | (.error e, _, d) => (.error e, d)
  | (.ok (), w, d) => ((flush pool w d).1, (flush pool w d).2.2)

/-- Whether or not the batch is full with one route, it is flushed once. -/
theorem addAndFlush_eq {δ : Type} (pool : Pool δ) (batchSize : Nat) (batchTimeout now : Timestamp)
    (route : RouteUpdate) (d : δ) :
    addAndFlush pool batchSize batchTimeout now route d =
      ((flush pool ((Writer.new batchSize batchTimeout).start.append route now) d).1,
        (flush pool ((Writer.new batchSize batchTimeout).start.append route now) d).2.2) := by
  have hadd : addRoute pool route now (Writer.new batchSize batchTimeout).start d =
      if ((Writer.new batchSize batchTimeout).start.append route now).isFull then
        flush pool ((Writer.new batchSize batchTimeout).start.append route now) d
      else (.ok (), (Writer.new batchSize batchTimeout).start.append route now, d) := rfl
  rw [addAndFlush, hadd]
  split_ifs with hfull
  · have hempty := flush_batch pool ((Writer.new batchSize batchTimeout).start.append route now) d
    revert hempty
    generalize flush pool ((Writer.new batchSize batchTimeout).start.append route now) d = result
    obtain ⟨outcome, w, d'⟩ := result
    intro hempty
    cases outcome with
    | error e => rfl
    | ok u =>
      simp only
      rw [flush_empty pool hempty]
  · rfl

/-! ## An empty database -/

structure Store where
  rows : List Row
  routeState : Table

def Store.empty : Store := ⟨[], []⟩

/-- A statement is refused when a value does not fit its column. The call of `update_route_state` is
answered as the parameter says. -/
def postgres (answer : StateCall → Table → Except PyErr Table) : Connections Store where
  acquire := fun d => (.ok (), d)
  copyRecordsToTable := fun rows d =>
    if rows.all fitsColumns then (.ok (), { d with rows := d.rows ++ rows.map cells })
    else (.error .postgresError, d)
  updateRouteState := fun p d => committed (fun t => { d with routeState := t }) d (answer p d.routeState)
  execute := fun columns values d =>
    if values.all Cell.fits then (.ok (), { d with rows := d.rows ++ [rowOf columns values] })
    else (.error .postgresError, d)

variable (answer : StateCall → Table → Except PyErr Table)

theorem ofOption_integer_fits (v : Option Nat) :
    (Cell.ofOption .integer v).fits = fitsIntegerColumn v := by cases v <;> rfl

theorem ofOption_integers_fits (v : Option (List Nat)) :
    (Cell.ofOption .integers v).fits = fitsIntegerArray v := by cases v <;> rfl

theorem ofOption_cidr_fits (v : Option Cidr) : (Cell.ofOption .cidr v).fits = fitsCidr v := by
  cases v <;> rfl

/-- The other types take every value. -/
theorem ofOption_fits {α : Type} {cell : α → Cell} (hcell : ∀ a, (cell a).fits = true)
    (v : Option α) : (Cell.ofOption cell v).fits = true := by
  cases v with
  | none => rfl
  | some a => exact hcell a

/-- Both statements are refused for the same records. -/
theorem insertValues_fits (route : RouteUpdate) :
    (insertValues route).all Cell.fits = fitsColumns (copyRow (routeTuple route)) := by
  have hplain : ∀ v, (Cell.ofOption .inet v).fits = true := ofOption_fits fun _ => rfl
  have hstring : ∀ v, (Cell.ofOption .string v).fits = true := ofOption_fits fun _ => rfl
  have hstrings : ∀ v, (Cell.ofOption .strings v).fits = true := ofOption_fits fun _ => rfl
  simp only [insertValues, List.all_cons, List.all_nil, ofOption_integer_fits, ofOption_integers_fits,
    ofOption_cidr_fits, hplain, hstring, hstrings]
  simp only [Cell.fits, fitsColumns, copyRow, routeTuple, Bool.true_and, Bool.and_true,
    Bool.and_assoc]

theorem insertRouteUpdate_postgres (route : RouteUpdate) :
    insertRouteUpdate (postgres answer) route .empty =
      if fitsColumns (copyRow (routeTuple route)) then
        (.ok (), ⟨[rowOf insertColumns (insertValues route)], []⟩)
      else (.error .postgresError, .empty) := by
  rw [← insertValues_fits]
  rfl

/-- The state updates write no row of `route_updates`. -/
theorem updateStates_rows (batch : List RouteTuple) (d : Store) :
    (updateStates (postgres answer).toPool batch d).2.rows = d.rows := by
  induction batch generalizing d with
  | nil => rfl
  | cons t batch ih =>
    rw [updateStates]
    cases hanswer : answer (stateCall t) d.routeState with
    | error e => simp only [postgres, hanswer, committed]
    | ok states =>
      simp only [postgres, hanswer, committed]
      exact ih { d with routeState := states }

/-- The COPY is made before anything that may raise, and its row stays. -/
theorem addAndFlush_rows (batchSize : Nat) (batchTimeout now : Timestamp) {route : RouteUpdate}
    (hfits : fitsColumns (copyRow (routeTuple route)) = true) :
    (addAndFlush (postgres answer).toPool batchSize batchTimeout now route .empty).2.rows =
      [cells (copyRow (routeTuple route))] := by
  let w := (Writer.new batchSize batchTimeout).start.append route now
  have hbatch : w.batch ≠ [] := List.cons_ne_nil _ _
  have hacquire : (postgres answer).acquire .empty = (.ok (), .empty) := rfl
  have hcopy : (postgres answer).copyRecordsToTable (w.batch.map copyRow) .empty =
      (.ok (), ⟨[cells (copyRow (routeTuple route))], []⟩) := by
    show (postgres answer).copyRecordsToTable [copyRow (routeTuple route)] .empty = _
    simp [postgres, hfits, Store.empty]
  have hrows := updateStates_rows answer w.batch ⟨[cells (copyRow (routeTuple route))], []⟩
  rw [addAndFlush_eq]
  cases hupdates : updateStates (postgres answer).toPool w.batch ⟨[cells (copyRow (routeTuple route))], []⟩ with
  | mk outcome d =>
    rw [hupdates] at hrows
    cases outcome with
    | error e =>
      rw [flush_not_updated hbatch hacquire hcopy hupdates]
      exact hrows
    | ok u =>
      rw [flush_written hbatch hacquire hcopy hupdates]
      exact hrows

/-! ## The row each writes -/

/-- The tuple carries every field, the arguments of the `INSERT` all but one. -/
theorem same_columns_iff (route : RouteUpdate) :
    (∀ column, rowOf insertColumns (insertValues route) column =
        cells (copyRow (routeTuple route)) column) ↔ route.extendedCommunities = none := by
  constructor
  · intro h
    have hcell : Cell.null = Cell.ofOption .strings route.extendedCommunities :=
      h .extendedCommunities
    cases hextended : route.extendedCommunities with
    | none => rfl
    | some texts =>
      rw [hextended] at hcell
      cases hcell
  · intro h column
    cases column with
    | extendedCommunities =>
      show Cell.null = Cell.ofOption .strings route.extendedCommunities
      rw [h]
      rfl
    | _ => rfl

/-- Whatever the state update answers: when the `INSERT` succeeds each path writes one row, and the rows
are the same exactly when the route has no extended communities. -/
theorem same_row_iff (route : RouteUpdate) (batchSize : Nat) (batchTimeout now : Timestamp)
    (hinsert : (insertRouteUpdate (postgres answer) route .empty).1 = .ok ()) :
    ∃ inserted copied,
      (insertRouteUpdate (postgres answer) route .empty).2.rows = [inserted] ∧
      (addAndFlush (postgres answer).toPool batchSize batchTimeout now route .empty).2.rows = [copied] ∧
      ((∀ column, inserted column = copied column) ↔ route.extendedCommunities = none) := by
  rw [insertRouteUpdate_postgres] at hinsert ⊢
  split at hinsert
  · rename_i hfits
    rw [if_pos hfits, addAndFlush_rows answer batchSize batchTimeout now hfits]
    exact ⟨_, _, rfl, rfl, same_columns_iff route⟩
  · cases hinsert

theorem same_row_iff_sample :
    ∃ inserted copied,
      (insertRouteUpdate (postgres selectUpdateRouteState) (sampleRoute 10) .empty).2.rows = [inserted] ∧
      (addAndFlush (postgres selectUpdateRouteState).toPool 1000 500 0 (sampleRoute 10) .empty).2.rows = [copied] ∧
      ((∀ column, inserted column = copied column) ↔ (sampleRoute 10).extendedCommunities = none) :=
  same_row_iff selectUpdateRouteState (sampleRoute 10) 1000 500 0 rfl

/-- A route with a Route Target. -/
def targetedRoute : RouteUpdate :=
  { sampleRoute 10 with extendedCommunities := some ["RT:65000:100"] }

/-- The `INSERT` leaves its column NULL. The flush raises after its COPY has written the row. -/
theorem extended_communities_lost :
    (insertRouteUpdate (postgres selectUpdateRouteState) targetedRoute .empty).1 = .ok () ∧
    (addAndFlush (postgres selectUpdateRouteState).toPool 1000 500 0 targetedRoute .empty).1 =
      .error .postgresError ∧
    ((insertRouteUpdate (postgres selectUpdateRouteState) targetedRoute .empty).2.rows.map
      fun row => row .extendedCommunities) = [.null] ∧
    ((addAndFlush (postgres selectUpdateRouteState).toPool 1000 500 0 targetedRoute .empty).2.rows.map
      fun row => row .extendedCommunities) = [.strings ["RT:65000:100"]] := by
  decide

end Pybmpmon.Database.BothPaths
