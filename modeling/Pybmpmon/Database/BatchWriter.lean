import Pybmpmon.Database.RouteState

/-!
# The batch writer

`BatchWriter` of `database/batch_writer.py`, each call run to its end. A route is
kept as the tuple that is copied to `route_updates` and whose parts are the arguments
of `update_route_state`. The pool is what the writer is given: each of its calls
returns or raises, and changes the database as it will.
-/
namespace Pybmpmon.Database.BatchWriter

open Pybmpmon.Python Pybmpmon.Models.Route
open Pybmpmon.Database.Schema Pybmpmon.Database.RouteState

/-- The tuple of `add_route`, in its order. -/
structure RouteTuple where
  time : Timestamp
  bmpPeerIp : IpAddress
  bmpPeerAsn : Option Nat
  bgpPeerIp : IpAddress
  bgpPeerAsn : Option Nat
  family : Family
  prefixCidr : Option Cidr
  nextHop : Option IpAddress
  asPath : Option (List Nat)
  communities : Option (List String)
  extendedCommunities : Option (List String)
  med : Option Nat
  localPref : Option Nat
  isWithdrawn : Bool
  policyStage : PolicyStage
  evpnRouteType : Option Nat
  evpnRd : Option String
  evpnEsi : Option String
  macAddress : Option String
  deriving DecidableEq, Repr

def routeTuple (route : RouteUpdate) : RouteTuple :=
  ⟨route.time, route.bmpPeerIp, route.bmpPeerAsn, route.bgpPeerIp, route.bgpPeerAsn, route.family,
    route.prefixCidr, route.nextHop, route.asPath, route.communities, route.extendedCommunities,
    route.med, route.localPref, route.isWithdrawn, route.policyStage, route.evpnRouteType,
    route.evpnRd, route.evpnEsi, route.macAddress⟩

/-- The columns of `route_updates`. -/
structure RouteUpdatesRow where
  time : Timestamp
  bmpPeerIp : IpAddress
  bmpPeerAsn : Option Nat
  bgpPeerIp : IpAddress
  bgpPeerAsn : Option Nat
  family : Family
  prefixCidr : Option Cidr
  nextHop : Option IpAddress
  asPath : Option (List Nat)
  communities : Option (List String)
  med : Option Nat
  localPref : Option Nat
  isWithdrawn : Bool
  policyStage : PolicyStage
  evpnRouteType : Option Nat
  evpnRd : Option String
  evpnEsi : Option String
  macAddress : Option String
  extendedCommunities : Option (List String)
  deriving DecidableEq, Repr

/-- The column list of the COPY, which names the columns in the order of the tuple. -/
def copyRow (t : RouteTuple) : RouteUpdatesRow where
  time := t.time
  bmpPeerIp := t.bmpPeerIp
  bmpPeerAsn := t.bmpPeerAsn
  bgpPeerIp := t.bgpPeerIp
  bgpPeerAsn := t.bgpPeerAsn
  family := t.family
  prefixCidr := t.prefixCidr
  nextHop := t.nextHop
  asPath := t.asPath
  communities := t.communities
  extendedCommunities := t.extendedCommunities
  med := t.med
  localPref := t.localPref
  isWithdrawn := t.isWithdrawn
  policyStage := t.policyStage
  evpnRouteType := t.evpnRouteType
  evpnRd := t.evpnRd
  evpnEsi := t.evpnEsi
  macAddress := t.macAddress

/-- The record fits the column types. -/
def fitsColumns (r : RouteUpdatesRow) : Bool :=
  fitsIntegerColumn r.bmpPeerAsn && fitsIntegerColumn r.bgpPeerAsn && fitsCidr r.prefixCidr &&
    fitsIntegerArray r.asPath && fitsIntegerColumn r.med && fitsIntegerColumn r.localPref &&
    fitsIntegerColumn r.evpnRouteType

/-- The arguments of `update_route_state`: all of the tuple but the two AS numbers. -/
def stateCall (t : RouteTuple) : StateCall :=
  ⟨t.time, t.bmpPeerIp, t.bgpPeerIp, t.family, t.prefixCidr, t.nextHop, t.asPath, t.communities,
    t.extendedCommunities, t.med, t.localPref, t.isWithdrawn, t.policyStage, t.evpnRouteType,
    t.evpnRd, t.evpnEsi, t.macAddress⟩

structure Writer where
  batchSize : Nat
  batchTimeout : Timestamp
  batch : List RouteTuple
  batchStartTime : Option Timestamp
  isRunning : Bool
  totalRoutesWritten : Nat
  totalBatchesWritten : Nat
  deriving DecidableEq, Repr

namespace Writer

/-- `__init__`. -/
def new (batchSize : Nat) (batchTimeout : Timestamp) : Writer :=
  ⟨batchSize, batchTimeout, [], none, false, 0, 0⟩

def start (w : Writer) : Writer := { w with isRunning := true }

/-- The route goes into the batch, and the first one sets the start time. -/
def append (route : RouteUpdate) (now : Timestamp) (w : Writer) : Writer :=
  { w with
    batch := w.batch ++ [routeTuple route]
    batchStartTime := w.batchStartTime.or (some now) }

/-- The `finally` of `flush`. -/
def clear (w : Writer) : Writer := { w with batch := [], batchStartTime := none }

def countBatch (batchCount : Nat) (w : Writer) : Writer :=
  { w with
    totalRoutesWritten := w.totalRoutesWritten + batchCount
    totalBatchesWritten := w.totalBatchesWritten + 1 }

def isFull (w : Writer) : Bool := w.batch.length ≥ w.batchSize

/-- The test of `_periodic_flush`. -/
def isTimedOut (now : Timestamp) (w : Writer) : Bool :=
  w.batchStartTime.any fun started => now - started ≥ w.batchTimeout

end Writer

/-- The calls to the database. -/
structure Pool (δ : Type) where
  acquire : δ → Except PyErr Unit × δ
  copyRecordsToTable : List RouteUpdatesRow → δ → Except PyErr Unit × δ
  updateRouteState : StateCall → δ → Except PyErr Unit × δ

variable {δ : Type}

/-- The loop over the batch. A raise leaves it. -/
def updateStates (pool : Pool δ) : List RouteTuple → δ → Except PyErr Unit × δ
  | [], d => (.ok (), d)
  | t :: batch, d =>
      match pool.updateRouteState (stateCall t) d with
      | (.error e, d) => (.error e, d)
      | (.ok (), d) => updateStates pool batch d

def flushBatch (pool : Pool δ) (batchCount : Nat) (w : Writer) (d : δ) :
    Except PyErr Unit × Writer × δ :=
  match pool.acquire d with
  | (.error e, d) => (.error e, w, d)
  | (.ok (), d) =>
      match pool.copyRecordsToTable (w.batch.map copyRow) d with
      | (.error e, d) => (.error e, w, d)
      | (.ok (), d) =>
          match updateStates pool w.batch d with
          | (.error e, d) => (.error e, w, d)
          | (.ok (), d) => (.ok (), w.countBatch batchCount, d)

def flush (pool : Pool δ) (w : Writer) (d : δ) : Except PyErr Unit × Writer × δ :=
  if w.batch.length = 0 then (.ok (), w, d)
  else
    let (outcome, w, d) := flushBatch pool w.batch.length w d
    -- finally
    (outcome, w.clear, d)

def addRoute (pool : Pool δ) (route : RouteUpdate) (now : Timestamp) (w : Writer) (d : δ) :
    Except PyErr Unit × Writer × δ :=
  if w.isRunning = false then
    (.error (.runtimeError "Batch writer is not running. Call start() first."), w, d)
  else
    let w := w.append route now
    if w.isFull then flush pool w d else (.ok (), w, d)

/-- One round of `_periodic_flush`; what the flush raises is logged. -/
def periodicRound (pool : Pool δ) (now : Timestamp) (w : Writer) (d : δ) : Writer × δ :=
  if w.isTimedOut now then (flush pool w d).2 else (w, d)

@[simp] theorem append_batch (route : RouteUpdate) (now : Timestamp) (w : Writer) :
    (w.append route now).batch = w.batch ++ [routeTuple route] := rfl

@[simp] theorem append_isRunning (route : RouteUpdate) (now : Timestamp) (w : Writer) :
    (w.append route now).isRunning = w.isRunning := rfl

@[simp] theorem append_batchSize (route : RouteUpdate) (now : Timestamp) (w : Writer) :
    (w.append route now).batchSize = w.batchSize := rfl

@[simp] theorem clear_batch (w : Writer) : w.clear.batch = [] := rfl

@[simp] theorem clear_isRunning (w : Writer) : w.clear.isRunning = w.isRunning := rfl

@[simp] theorem clear_batchSize (w : Writer) : w.clear.batchSize = w.batchSize := rfl

@[simp] theorem countBatch_batch (n : Nat) (w : Writer) : (w.countBatch n).batch = w.batch := rfl

theorem flush_empty (pool : Pool δ) {w : Writer} (h : w.batch = []) (d : δ) :
    flush pool w d = (.ok (), w, d) := by
  rw [flush, h]
  rfl

theorem flush_nonempty (pool : Pool δ) {w : Writer} (h : w.batch ≠ []) (d : δ) :
    flush pool w d = ((flushBatch pool w.batch.length w d).1,
      (flushBatch pool w.batch.length w d).2.1.clear,
      (flushBatch pool w.batch.length w d).2.2) := by
  rw [flush, if_neg (by rwa [List.length_eq_zero_iff])]

/-! ## A flush, by the outcome of its calls -/

section Flush

variable {pool : Pool δ} {w : Writer} (hbatch : w.batch ≠ []) {e : PyErr} {d d₁ d₂ d₃ : δ}
include hbatch

theorem flush_not_acquired (hacquire : pool.acquire d = (.error e, d₁)) :
    flush pool w d = (.error e, w.clear, d₁) := by
  rw [flush_nonempty pool hbatch, flushBatch, hacquire]

theorem flush_not_copied (hacquire : pool.acquire d = (.ok (), d₁))
    (hcopy : pool.copyRecordsToTable (w.batch.map copyRow) d₁ = (.error e, d₂)) :
    flush pool w d = (.error e, w.clear, d₂) := by
  rw [flush_nonempty pool hbatch, flushBatch, hacquire]
  simp only [hcopy]

theorem flush_not_updated (hacquire : pool.acquire d = (.ok (), d₁))
    (hcopy : pool.copyRecordsToTable (w.batch.map copyRow) d₁ = (.ok (), d₂))
    (hupdates : updateStates pool w.batch d₂ = (.error e, d₃)) :
    flush pool w d = (.error e, w.clear, d₃) := by
  rw [flush_nonempty pool hbatch, flushBatch, hacquire]
  simp only [hcopy, hupdates]

theorem flush_written (hacquire : pool.acquire d = (.ok (), d₁))
    (hcopy : pool.copyRecordsToTable (w.batch.map copyRow) d₁ = (.ok (), d₂))
    (hupdates : updateStates pool w.batch d₂ = (.ok (), d₃)) :
    flush pool w d = (.ok (), (w.countBatch w.batch.length).clear, d₃) := by
  rw [flush_nonempty pool hbatch, flushBatch, hacquire]
  simp only [hcopy, hupdates]

end Flush

/-- A route to one /8, for use in examples. -/
def sampleRoute (octet : UInt8) : RouteUpdate where
  time := 0
  bmpPeerIp := .v4 (.ofOctets 192 0 2 1)
  bmpPeerAsn := none
  bgpPeerIp := .v4 (.ofOctets 10 0 0 1)
  bgpPeerAsn := some 65001
  family := .ipv4Unicast
  prefixCidr := some (.ofOctet octet)
  nextHop := none
  asPath := none
  communities := none
  extendedCommunities := none
  med := none
  localPref := none
  isWithdrawn := false
  policyStage := .prePolicy
  evpnRouteType := none
  evpnRd := none
  evpnEsi := none
  macAddress := none

end Pybmpmon.Database.BatchWriter
