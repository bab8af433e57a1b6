import Pybmpmon.Database.Postgres
import Pybmpmon.Lib.Transition
import Pybmpmon.Listener.Connection
import Pybmpmon.Listener.PeerActivity
import Pybmpmon.Listener.RouteMonitoring
import Pybmpmon.Monitoring.Reports
import Pybmpmon.Protocol.ParserErrors

/-!
# The parts together

What `run_listener` puts together: the connections with their handlers, the batch writer,
the statistics, and the four tables. A router has one connection at a time, and its bytes
arrive in segments. A round of a connection, once what it reads has arrived, a flush of
the periodic task and a pass of the report run to their ends before anything else does.
Nothing is wrong with the database: the statements of a flush are answered as PostgreSQL
answers them, and no other call fails.
-/
namespace Pybmpmon.Listener.RunListener

open Pybmpmon.Lib.ByteString Pybmpmon.Lib.Outcome Pybmpmon.Lib.Transition
open Pybmpmon.Python Pybmpmon.Models.Route
open Pybmpmon.Protocol.Bmp Pybmpmon.Protocol.BmpParser Pybmpmon.Protocol.BgpParser
open Pybmpmon.Protocol.BmpErrors (parseBmpHeader_raises parsePerPeerHeader_raises parsePeerUpMessage_raises
  peerDownReason_raises)
open Pybmpmon.Protocol.DecoderErrors (Caught caught_of_own caught_readBytes)
open Pybmpmon.Database.RouteState Pybmpmon.Database.BatchWriter Pybmpmon.Database.Postgres
open Pybmpmon.Database.BmpPeers
open Pybmpmon.Monitoring.Reports (Reporter)
open Pybmpmon.Listener.Connection Pybmpmon.Listener.RouteMonitoring
open Pybmpmon.Listener.PeerActivity (handlePeerUp handlePeerDown)

/-! ## The database -/

structure Database where
  routeUpdates : List RouteUpdatesRow
  routeState : Table
  peerTables : PeerTables

def Database.empty : Database := ⟨[], [], .empty⟩

def pool : Pool Database where
  acquire := fun d => (.ok (), d)
  copyRecordsToTable := fun rows d =>
    committed (fun rows => { d with routeUpdates := rows }) d (copyRecords rows d.routeUpdates)
  updateRouteState := fun p d =>
    committed (fun t => { d with routeState := t }) d (selectUpdateRouteState p d.routeState)

/-! ## The handlers -/

structure BMPListener where
  batchWriter : Writer
  database : Database
  statsCollector : Reporter IpAddress

/-- What the clocks show while a message is handled: when `last_seen` is updated, at the calls of
`datetime.now`, and in the event loop at the calls of `add_route`. -/
structure Times where
  lastSeen : Timestamp
  clock : Nat → Timestamp
  loop : Nat → Timestamp

/-- The listener, and how many routes of the message have been added. -/
def routeServices (times : Times) : RouteMonitoring.Services (BMPListener × Nat) where
  addRoute := fun route s =>
    let (outcome, writer, database) :=
      addRoute pool route (times.loop s.2) s.1.batchWriter s.1.database
    (outcome, { s.1 with batchWriter := writer, database := database }, s.2 + 1)
  incrementProcessed := fun bmpPeerIp family s =>
    ({ s.1 with statsCollector := s.1.statsCollector.incrementProcessed bmpPeerIp family.text }, s.2)

/-! ### Every error of a handler is caught -/

section Caught

variable {δ σ : Type}

/-- The errors of a call of the pool are caught. -/
structure PoolCaught (pool : Pool δ) : Prop where
  acquire : ∀ d, Raises Caught (pool.acquire d).1
  copyRecordsToTable : ∀ rows d, Raises Caught (pool.copyRecordsToTable rows d).1
  updateRouteState : ∀ p d, Raises Caught (pool.updateRouteState p d).1

theorem raises_fst {α β : Type} {x : Except PyErr α × β} {e : PyErr} {b : β}
    (hx : Raises Caught x.1) (h : x = (.error e, b)) : Raises Caught (.error e : Except PyErr Unit) := by
  rw [raises_error]
  exact hx e (congrArg Prod.fst h)

theorem updateStates_caught {pool : Pool δ} (hpool : PoolCaught pool) (batch : List RouteTuple) (d : δ) :
    Raises Caught (updateStates pool batch d).1 := by
  induction batch generalizing d with
  | nil => exact raises_ok _
  | cons t batch ih =>
    rw [updateStates]
    split
    case h_1 e d' h => exact raises_fst (hpool.updateRouteState _ d) h
    case h_2 d' h => exact ih d'

theorem flushBatch_caught {pool : Pool δ} (hpool : PoolCaught pool) (n : Nat) (w : Writer) (d : δ) :
    Raises Caught (flushBatch pool n w d).1 := by
  rw [flushBatch]
  split
  case h_1 e d₁ h => exact raises_fst (hpool.acquire d) h
  case h_2 d₁ h =>
    split
    case h_1 e d₂ h => exact raises_fst (hpool.copyRecordsToTable _ d₁) h
    case h_2 d₂ h =>
      split
      case h_1 e d₃ h => exact raises_fst (updateStates_caught hpool _ d₂) h
      case h_2 d₃ h => exact raises_ok _

theorem flush_caught {pool : Pool δ} (hpool : PoolCaught pool) (w : Writer) (d : δ) :
    Raises Caught (flush pool w d).1 := by
  rw [flush]
  split
  · exact raises_ok _
  · exact flushBatch_caught hpool _ w d

theorem addRoute_caught {pool : Pool δ} (hpool : PoolCaught pool) (route : RouteUpdate)
    (now : Timestamp) (w : Writer) (d : δ) : Raises Caught (addRoute pool route now w d).1 := by
  rw [addRoute]
  split
  · exact raises_error.mpr rfl
  · simp only
    split
    · exact flush_caught hpool _ d
    · exact raises_ok _

theorem queueRoutes_caught {services : RouteMonitoring.Services σ}
    (hadd : ∀ route s, Raises Caught (services.addRoute route s).1) (bmpPeerIp : IpAddress)
    (routes : List RouteUpdate) (s : σ) : Raises Caught (queueRoutes services bmpPeerIp routes s).1 := by
  induction routes generalizing s with
  | nil => exact raises_ok _
  | cons route routes ih =>
    rw [queueRoutes]
    split
    case h_1 e s' h => exact raises_fst (hadd route s) h
    case h_2 s' h => exact ih _

end Caught

/-- The BMP parsers' own error. -/
theorem caught_of_bmp {α : Type} {x : Except PyErr α} (h : Raises Protocol.BmpErrors.OwnError x) :
    Raises Caught x := by
  refine raises_mono (fun e he => ?_) h
  cases e <;> first | rfl | cases he

theorem parseRouteMonitoringMessage_caught (data : Bytes) :
    Raises Caught (parseRouteMonitoringMessage data) := by
  refine raises_bind (caught_of_bmp (parseBmpHeader_raises data)) (fun header _ => ?_)
  refine raises_ite (fun _ => raises_error.mpr rfl) (fun _ => ?_)
  refine raises_bind (caught_of_bmp (parsePerPeerHeader_raises data _)) (fun _ _ => ?_)
  exact raises_bind (caught_readBytes data _ _) (fun _ _ => raises_ok _)

theorem parsePeerDownMessage_caught (data : Bytes) : Raises Caught (parsePeerDownMessage data) := by
  refine raises_bind (caught_of_bmp (parseBmpHeader_raises data)) (fun header _ => ?_)
  refine raises_ite (fun _ => raises_error.mpr rfl) (fun _ => ?_)
  refine raises_bind (caught_of_bmp (parsePerPeerHeader_raises data _)) (fun _ _ => ?_)
  refine raises_ite (fun _ => raises_error.mpr rfl) (fun hlen => ?_)
  have hreason := peerDownReason_raises (Nat.lt_of_succ_le (Nat.le_of_not_lt hlen))
  refine raises_bind (caught_of_bmp hreason) (fun _ _ => ?_)
  exact raises_bind (caught_readBytes data _ _) (fun _ _ => raises_ok _)

theorem committed_caught {α : Type} {commit : α → Database} {d : Database} {x : Except PyErr α}
    (h : Raises Caught x) : Raises Caught (committed commit d x).1 := by
  cases x with
  | error e => exact raises_error.mpr (h e rfl)
  | ok a => exact raises_ok _

theorem pool_caught : PoolCaught pool where
  acquire := fun _ => raises_ok _
  copyRecordsToTable := fun _ _ =>
    committed_caught (raises_ite (fun _ => raises_ok _) fun _ => raises_error.mpr rfl)
  updateRouteState := fun p d => by
    refine committed_caught ?_
    rw [selectUpdateRouteState_raises]
    exact raises_error.mpr rfl

theorem handleRouteMonitoring_caught (times : Times) (data : Bytes) (bmpPeerIp : IpAddress)
    (s : BMPListener × Nat) :
    Raises Caught (handleRouteMonitoring (routeServices times) times.clock data bmpPeerIp s).1 := by
  rw [handleRouteMonitoring]
  split
  case h_1 e h => exact raises_error.mpr (parseRouteMonitoringMessage_caught data e h)
  case h_2 parsed h =>
    split
    case h_1 e h =>
      exact raises_error.mpr (caught_of_own (Protocol.ParserErrors.parseBgpUpdate_raises parsed.bgpUpdate e h))
    case h_2 update h =>
      exact queueRoutes_caught (fun route s => addRoute_caught pool_caught _ _ _ _) _ _ _

theorem handlePeerUp_caught (clock : Nat → Timestamp) (data : Bytes) (bmpPeerIp : IpAddress)
    (t : PeerTables) : Raises Caught (handlePeerUp clock data bmpPeerIp t).1 := by
  rw [handlePeerUp]
  split
  case h_1 e h => exact raises_error.mpr (caught_of_bmp (parsePeerUpMessage_raises data) e h)
  case h_2 parsed h => exact raises_ok _

theorem handlePeerDown_caught (clock : Nat → Timestamp) (data : Bytes) (bmpPeerIp : IpAddress)
    (t : PeerTables) : Raises Caught (handlePeerDown clock data bmpPeerIp t).1 := by
  rw [handlePeerDown]
  split
  case h_1 e h => exact raises_error.mpr (parsePeerDownMessage_caught data e h)
  case h_2 parsed h => exact raises_ok _

/-- An outcome whose errors are caught, as the connection loop is given it. -/
def outcome {α : Type} : (x : Except PyErr α) → Raises Caught x → Except Exception Unit
  | .ok _, _ => .ok ()
  | .error e, h => .error ⟨e, h e rfl⟩

/-! ## The program -/

/-- What a connection calls. -/
def services (times : Times) : Connection.Services BMPListener where
  updatePeerLastSeen := fun peerIp l =>
    (.ok (), { l with database := { l.database with
      peerTables := l.database.peerTables.updatePeerLastSeen peerIp times.lastSeen } })
  handleRouteMonitoring := fun data bmpPeerIp l =>
    let result := handleRouteMonitoring (routeServices times) times.clock data bmpPeerIp (l, 0)
    (outcome result.1 (handleRouteMonitoring_caught times data bmpPeerIp (l, 0)), result.2.1)
  handlePeerUp := fun data bmpPeerIp l =>
    let result := handlePeerUp times.clock data bmpPeerIp l.database.peerTables
    (outcome result.1 (handlePeerUp_caught times.clock data bmpPeerIp l.database.peerTables),
      { l with database := { l.database with peerTables := result.2 } })
  handlePeerDown := fun data bmpPeerIp l =>
    let result := handlePeerDown times.clock data bmpPeerIp l.database.peerTables
    (outcome result.1 (handlePeerDown_caught times.clock data bmpPeerIp l.database.peerTables),
      { l with database := { l.database with peerTables := result.2 } })
  incrementReceived := fun peerIp l =>
    { l with statsCollector := l.statsCollector.incrementReceived peerIp }
  incrementError := fun peerIp l =>
    { l with statsCollector := l.statsCollector.incrementError peerIp }
  removePeer := fun peerIp l => { l with statsCollector := l.statsCollector.removePeer peerIp }

/-- What a round of a router's connection has logged, with the clocks of the round. -/
structure Entry where
  router : IpAddress
  times : Times
  event : Event

/-- The connection of a router: what has arrived and not been read, and whether the router has ended
its stream. -/
structure Inbound where
  reader : StreamReader
  ended : Bool

namespace Inbound

def new : Inbound := ⟨⟨[], 0⟩, false⟩

def receive (segment : Bytes) (c : Inbound) : Inbound :=
  { c with reader := { c.reader with rest := c.reader.rest ++ segment } }

/-- What a round reads has arrived: a header and the body it announces. Nothing comes after the end of
the stream, so there a round does not wait for a body. -/
def ready (c : Inbound) : Bool :=
  BMP_HEADER_SIZE ≤ c.reader.rest.length &&
    (c.ended ||
      match parseBmpHeader (c.reader.rest.take BMP_HEADER_SIZE) with
      | .error _ => true
      | .ok header => header.length - BMP_HEADER_SIZE ≤ (c.reader.rest.drop BMP_HEADER_SIZE).length)

/-- The header of a message has been read, and its body is still to come. -/
def awaitsBody (c : Inbound) : Bool := BMP_HEADER_SIZE ≤ c.reader.rest.length && !c.ready

end Inbound

/-- The listener, the connection of each router that has one, and the log of the rounds. -/
structure World where
  listener : BMPListener
  connections : IpAddress → Option Inbound
  log : List Entry

/-- A router connects; bytes of it arrive; it ends its stream; its connection goes once round its loop,
or finds no header before the end of the stream, or is reset; or the periodic task of the writer wakes up,
or that of the statistics. -/
inductive Label where
  | connect (router : IpAddress)
  | receive (router : IpAddress) (segment : Bytes)
  | finish (router : IpAddress)
  | round (router : IpAddress) (times : Times)
  | disconnect (router : IpAddress)
  | reset (router : IpAddress) (times : Times)
  | wake (now : Timestamp)
  | report (throughput : Nat → Option Int)

/-- What the loop has still to log when its connection is reset. -/
def lostEvents (c : Inbound) : List Event :=
  if c.awaitsBody then
    [.headerRead c.reader.position (c.reader.rest.take BMP_HEADER_SIZE), .errored .messageProcessingError]
  else []

namespace World

def setConnection (router : IpAddress) (c : Option Inbound) (w : World) : World :=
  { w with connections := Function.update w.connections router c }

theorem setConnection_own (router : IpAddress) (c : Option Inbound) (w : World) :
    (w.setConnection router c).connections router = c := Function.update_self ..

theorem setConnection_other {router peer : IpAddress} (h : peer ≠ router) (c : Option Inbound) (w : World) :
    (w.setConnection peer c).connections router = w.connections router :=
  Function.update_of_ne (Ne.symm h) ..

/-- The `finally` of a connection. -/
def close (router : IpAddress) (w : World) : World :=
  { w.setConnection router none with
    listener := { w.listener with statsCollector := w.listener.statsCollector.removePeer router } }

/-- The reads of a connection that is reset raise, that of a body inside the inner `try`; what has not
been read is lost. So does `wait_closed` in `finally`, before the statistics are removed. -/
def lose (router : IpAddress) (times : Times) (c : Inbound) (w : World) : World :=
  { w.setConnection router none with
    listener := if c.awaitsBody then (services times).incrementError router w.listener else w.listener
    log := w.log ++ (lostEvents c).map fun event => ⟨router, times, event⟩ }

end World

def step (w : World) : Label → Option World
  | .connect router =>
      if (w.connections router).isSome then none else some (w.setConnection router (some .new))
  | .receive router segment => do
      let c ← w.connections router
      if c.ended then none else some (w.setConnection router (some (c.receive segment)))
  | .finish router => do
      let c ← w.connections router
      if c.ended then none else some (w.setConnection router (some { c with ended := true }))
  | .round router times => do
      let c ← w.connections router
      if c.ready then
        (Connection.round (services times) router ⟨c.reader, [], w.listener⟩).map fun r =>
          { w.setConnection router (some { c with reader := r.reader }) with
            listener := r.services
            log := w.log ++ r.events.map fun event => ⟨router, times, event⟩ }
      else none
  | .disconnect router => do
      let c ← w.connections router
      if c.ended && c.reader.rest.length < BMP_HEADER_SIZE then some (w.close router) else none
  | .reset router times => (w.connections router).map fun c => w.lose router times c
  | .wake now =>
      let (writer, database) := periodicRound pool now w.listener.batchWriter w.listener.database
      some { w with listener := { w.listener with batchWriter := writer, database := database } }
  | .report throughput =>
      let reporter := w.listener.statsCollector
      some { w with listener :=
        { w.listener with statsCollector := reporter.report throughput reporter.peers } }

/-- The program started, with nothing in its tables. -/
def World.started (batchSize : Nat) (batchTimeout : Timestamp) : World :=
  ⟨⟨(Writer.new batchSize batchTimeout).start, .empty, .new⟩, fun _ => none, []⟩

/-- The program started on the tables it finds. -/
def World.startedOn (found : Database) (batchSize : Nat) (batchTimeout : Timestamp) : World :=
  ⟨⟨(Writer.new batchSize batchTimeout).start, found, .new⟩, fun _ => none, []⟩

/-- `BatchWriter.stop` when no flush is running: the tables after the last flush. -/
def BMPListener.stop (l : BMPListener) : Database :=
  (flush pool { l.batchWriter with isRunning := false } l.database).2.2

/-- All that a step can do: a round, a timed flush, a pass of the report, the end or the loss of a
connection, or what makes a connection or changes it before its next round. -/
theorem step_cases {w w' : World} {a : Label} (h : step w a = some w') :
    (∃ router times c, ∃ r : ConnectionState BMPListener, a = .round router times ∧
        w.connections router = some c ∧
        Connection.round (services times) router ⟨c.reader, [], w.listener⟩ = some r ∧
        w' = { w.setConnection router (some { c with reader := r.reader }) with
          listener := r.services
          log := w.log ++ r.events.map fun event => ⟨router, times, event⟩ }) ∨
      (∃ now, a = .wake now ∧ w' = { w with
        listener := { w.listener with
          batchWriter := (periodicRound pool now w.listener.batchWriter w.listener.database).1
          database := (periodicRound pool now w.listener.batchWriter w.listener.database).2 } }) ∨
      (∃ throughput, a = .report throughput ∧ w' = { w with
        listener := { w.listener with
          statsCollector := w.listener.statsCollector.report throughput w.listener.statsCollector.peers } }) ∨
      (∃ router, a = .disconnect router ∧ w' = w.close router) ∨
      (∃ router times c, w.connections router = some c ∧ w' = w.lose router times c) ∨
      ∃ router c, w' = w.setConnection router (some c) := by
  cases a with
  | connect router =>
    rw [step] at h
    split at h
    · cases h
    · cases h
      exact .inr (.inr (.inr (.inr (.inr ⟨router, _, rfl⟩))))
  | receive router segment =>
    obtain ⟨c, _, h⟩ := Option.bind_eq_some_iff.mp h
    split at h
    · cases h
    · cases h
      exact .inr (.inr (.inr (.inr (.inr ⟨router, _, rfl⟩))))
  | finish router =>
    obtain ⟨c, _, h⟩ := Option.bind_eq_some_iff.mp h
    split at h
    · cases h
    · cases h
      exact .inr (.inr (.inr (.inr (.inr ⟨router, _, rfl⟩))))
  | round router times =>
    obtain ⟨c, hc, h⟩ := Option.bind_eq_some_iff.mp h
    split at h
    · obtain ⟨r, hround, rfl⟩ := Option.map_eq_some_iff.mp h
      exact .inl ⟨router, times, c, r, rfl, hc, hround, rfl⟩
    · cases h
  | disconnect router =>
    obtain ⟨c, _, h⟩ := Option.bind_eq_some_iff.mp h
    split at h
    · cases h
      exact .inr (.inr (.inr (.inl ⟨router, rfl, rfl⟩)))
    · cases h
  | reset router times =>
    obtain ⟨c, hc, rfl⟩ := Option.map_eq_some_iff.mp h
    exact .inr (.inr (.inr (.inr (.inl ⟨router, times, c, hc, rfl⟩))))
  | wake now =>
    cases h
    exact .inr (.inl ⟨now, rfl, rfl⟩)
  | report throughput =>
    cases h
    exact .inr (.inr (.inl ⟨throughput, rfl, rfl⟩))

end Pybmpmon.Listener.RunListener
