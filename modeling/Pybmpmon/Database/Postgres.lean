import Pybmpmon.Database.BatchWriter

/-!
# What PostgreSQL answers

The two statements of `_flush_batch`, when nothing is wrong with the database. Each
commits on its own, and has no effect when it raises. The COPY raises when a record does
not fit its columns. The call of `update_route_state` raises whatever its arguments are:
PostgreSQL looks for a function with the types the statement casts them to, and two of
those are the wrong way round.
-/
namespace Pybmpmon.Database.Postgres

open Pybmpmon.Python Pybmpmon.Database.RouteState Pybmpmon.Database.BatchWriter

inductive SqlType where
  | timestamptz
  | inet
  | text
  | cidr
  | integerArray
  | textArray
  | integer
  | boolean
  deriving DecidableEq, Repr

/-- The parameters that migration 005 declares for `update_route_state`. -/
def parameterTypes : List SqlType :=
  [.timestamptz, .inet, .inet, .text, .cidr, .inet, .integerArray, .textArray, .textArray, .integer,
    .integer, .boolean, .text, .integer, .text, .text, .text]

/-- What the statement of `_flush_batch` casts `$1` to `$17` to. -/
def castTypes : List SqlType :=
  [.timestamptz, .inet, .inet, .text, .cidr, .inet, .integerArray, .textArray, .textArray, .integer,
    .integer, .boolean, .integer, .text, .text, .text, .text]

/-- The casts PostgreSQL makes by itself to find a function. That of an `INTEGER` to `TEXT` is made
in an assignment only. -/
def implicitCast (argument parameter : SqlType) : Bool :=
  argument == parameter || argument == .cidr && parameter == .inet

/-- A call finds the function when each argument has the type of its parameter or is cast to it. -/
def resolves (arguments parameters : List SqlType) : Bool :=
  arguments.length == parameters.length &&
    (arguments.zip parameters).all fun (argument, parameter) => implicitCast argument parameter

/-- The COPY: what `route_updates` holds then. -/
def copyRecords (rows routeUpdates : List RouteUpdatesRow) : Except PyErr (List RouteUpdatesRow) :=
  if rows.all fitsColumns then .ok (routeUpdates ++ rows) else .error .postgresError

/-- `SELECT update_route_state(…)`: what `route_state` holds then. -/
def selectUpdateRouteState (p : StateCall) (routeState : Table) : Except PyErr Table :=
  if resolves castTypes parameterTypes then
    match updateRouteState p routeState with
    | .error _ => .error .postgresError
    | .ok t => .ok t
  else .error .postgresError

/-- A statement that answers commits. -/
def committed {α δ : Type} (commit : α → δ) (d : δ) : Except PyErr α → Except PyErr Unit × δ
  | .error e => (.error e, d)
  | .ok a => (.ok (), commit a)

theorem casts_unresolved : resolves castTypes parameterTypes = false := by decide

theorem selectUpdateRouteState_raises (p : StateCall) (t : Table) :
    selectUpdateRouteState p t = .error .postgresError := by
  rw [selectUpdateRouteState, casts_unresolved]
  rfl

end Pybmpmon.Database.Postgres
