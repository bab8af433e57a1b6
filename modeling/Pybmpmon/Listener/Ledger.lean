import Mathlib.Data.List.Flatten
import Pybmpmon.Lib.Batching
import Pybmpmon.Listener.Framing
import Pybmpmon.Listener.Records
import Pybmpmon.Listener.RunListener
import Pybmpmon.Listener.Segments
import Pybmpmon.Protocol.BmpEncoding
import Pybmpmon.Protocol.UpdateEncoding

/-!
# What the tables say

The messages handed to their handlers, in their order, against what the tables hold. No
call of `update_route_state` finds the function, so a flush that has records to write
raises after its COPY: the routes of a message after the one that fills the batch are
never queued, a batch is stored when all of it fits the columns, and `route_state` stays
empty. The tables of the routers follow the messages whatever becomes of the routes.
-/
namespace Pybmpmon.Listener.Ledger

open Pybmpmon.Lib.Batching Pybmpmon.Lib.ByteString Pybmpmon.Lib.Transition
open Pybmpmon.Python Pybmpmon.Models.Route
open Pybmpmon.Protocol.Bmp Pybmpmon.Protocol.BmpParser Pybmpmon.Protocol.BgpParser
open Pybmpmon.Database.RouteState Pybmpmon.Database.BatchWriter Pybmpmon.Database.Postgres
open Pybmpmon.Database.BmpPeers
open Pybmpmon.Monitoring.Reports (Reporter grown_processed grown_error)
open Pybmpmon.Listener.RouteMonitoring Pybmpmon.Listener.Connection Pybmpmon.Listener.Framing
open Pybmpmon.Listener.RunListener
open Pybmpmon.Listener.Records (record routerA routerB handleRouteMonitoring_routes)
open Pybmpmon.Protocol.BmpEncoding Pybmpmon.Protocol.UpdateEncoding
open Pybmpmon.Listener.PeerActivity (handlePeerUp handlePeerDown)

/-- A message that was handed to its handler. -/
structure Message where
  router : IpAddress
  times : Times
  msgType : BMPMessageType
  data : Bytes

def messageOf (e : Entry) : Option Message :=
  (handledFrame? e.event).map fun (msgType, data) => ⟨e.router, e.times, msgType, data⟩

def messages (log : List Entry) : List Message := log.filterMap messageOf

/-- The records a message asks for. -/
def routesOf (m : Message) : List RouteUpdate :=
  match m.msgType with
  | .routeMonitoring => Records.routesOf m.times.clock m.data m.router
  | _ => []

def recordsOf (m : Message) : List RouteUpdatesRow := (routesOf m).map record

def rowsOf (ms : List Message) : List RouteUpdatesRow := ms.flatMap recordsOf

/-- What a message makes of the tables of the routers: every message is a sign of life. -/
def peersAfter (t : PeerTables) (m : Message) : PeerTables :=
  let t := t.updatePeerLastSeen m.router m.times.lastSeen
  match m.msgType with
  | .peerUpNotification => (handlePeerUp m.times.clock m.data m.router t).2
  | .peerDownNotification => (handlePeerDown m.times.clock m.data m.router t).2
  | _ => t

/-! ## The batch writer -/

/-- The routes a batch has place for: one when the size is zero. -/
def capacity (batchSize : Nat) : Nat := max 1 batchSize

theorem capacity_pos (batchSize : Nat) : 0 < capacity batchSize := Nat.le_max_left 1 batchSize

/-- What the COPY stores of a batch: all of it or nothing. -/
def copied (rows : List RouteUpdatesRow) : List RouteUpdatesRow :=
  if rows.all fitsColumns then rows else []

theorem copied_sublist (rows : List RouteUpdatesRow) : (copied rows).Sublist rows := by
  rw [copied]
  split
  · exact List.Sublist.refl rows
  · exact List.nil_sublist rows

/-- A flush that has records to write raises, after its COPY. -/
theorem flush_raises {w : Writer} (hbatch : w.batch ≠ []) (d : RunListener.Database) :
    flush pool w d = (.error .postgresError, w.clear,
      { d with routeUpdates := d.routeUpdates ++ copied (w.batch.map copyRow) }) := by
  by_cases hfits : (w.batch.map copyRow).all fitsColumns = true
  · have hcopy : pool.copyRecordsToTable (w.batch.map copyRow) d =
        (.ok (), { d with routeUpdates := d.routeUpdates ++ copied (w.batch.map copyRow) }) := by
      simp only [pool, copyRecords, committed, copied, if_pos hfits]
    obtain ⟨t, batch, hcons⟩ := List.exists_cons_of_ne_nil hbatch
    refine flush_not_updated hbatch rfl hcopy ?_
    rw [hcons, updateStates]
    simp only [pool, selectUpdateRouteState_raises, committed]
  · have hcopy : pool.copyRecordsToTable (w.batch.map copyRow) d = (.error .postgresError, d) := by
      simp only [pool, copyRecords, committed, if_neg hfits]
    rw [flush_not_copied hbatch rfl hcopy, copied, if_neg hfits, List.append_nil]

/-- The batch and the tables hold the batches: those taken have been copied, and nothing else of a
flush is left. -/
structure Holds (batchSize : Nat) (found : RunListener.Database) (b : Batches RouteUpdatesRow) (w : Writer)
    (d : RunListener.Database) : Prop where
  size : w.batchSize = batchSize
  waiting : w.batch.map copyRow = b.waiting
  routeUpdates : d.routeUpdates = found.routeUpdates ++ b.taken.flatMap copied
  routeState : d.routeState = found.routeState
  totals : w.totalRoutesWritten = 0 ∧ w.totalBatchesWritten = 0

variable {batchSize : Nat} {b : Batches RouteUpdatesRow} {w : Writer} {found d : RunListener.Database}

theorem Holds.batch_length (h : Holds batchSize found b w d) : w.batch.length = b.waiting.length := by
  rw [← h.waiting, List.length_map]

/-- A flush takes the batch. -/
theorem flush_holds (h : Holds batchSize found b w d) :
    Holds batchSize found b.take (flush pool w d).2.1 (flush pool w d).2.2 ∧
      (flush pool w d).2.1.isRunning = w.isRunning ∧ (flush pool w d).2.2.peerTables = d.peerTables := by
  by_cases hbatch : w.batch = []
  · have hwaiting : b.waiting = [] := by rw [← h.waiting, hbatch, List.map_nil]
    rw [flush_empty pool hbatch, Batches.take_of_nil hwaiting]
    exact ⟨h, rfl, rfl⟩
  · have hwaiting : b.waiting ≠ [] := by rw [← h.waiting, ne_eq, List.map_eq_nil_iff]; exact hbatch
    rw [flush_raises hbatch, Batches.take_of_ne_nil hwaiting]
    refine ⟨⟨h.size, rfl, ?_, h.routeState, h.totals⟩, rfl, rfl⟩
    simp only [h.routeUpdates, h.waiting, List.flatMap_append, List.flatMap_singleton, List.append_assoc]

/-- `add_route` offers the record; it raises when the record fills the batch. -/
theorem addRoute_holds (h : Holds batchSize found b w d) (hrunning : w.isRunning = true)
    (hroom : b.waiting.length < capacity batchSize) (route : RouteUpdate) (now : Timestamp) :
    let r := addRoute pool route now w d
    Holds batchSize found (b.offer (capacity batchSize) [record route]) r.2.1 r.2.2 ∧
      r.2.1.isRunning = true ∧ r.2.2.peerTables = d.peerTables ∧
      r.1 = if b.waiting.length + 1 < capacity batchSize then .ok () else .error .postgresError := by
  have happended : Holds batchSize found ⟨b.taken, b.waiting ++ [record route]⟩ (w.append route now) d := by
    refine ⟨h.size, ?_, h.routeUpdates, h.routeState, h.totals⟩
    rw [append_batch, List.map_append, h.waiting]
    rfl
  have hfull : (w.append route now).isFull = true ↔ ¬b.waiting.length + 1 < capacity batchSize := by
    have hlength := happended.batch_length
    rw [List.length_append, List.length_singleton] at hlength
    rw [Writer.isFull, decide_eq_true_iff, hlength, append_batchSize, h.size, capacity]
    omega
  rw [addRoute, if_neg (by rw [hrunning]; decide)]
  by_cases hlt : b.waiting.length + 1 < capacity batchSize
  · have hoffer : b.offer (capacity batchSize) [record route] = ⟨b.taken, b.waiting ++ [record route]⟩ :=
      Batches.offer_of_lt (by rw [List.length_singleton]; omega)
    simp only [if_neg (fun hf => hfull.mp hf hlt), if_pos hlt, hoffer]
    exact ⟨happended, hrunning, trivial, trivial⟩
  · have hlast : b.offer (capacity batchSize) [record route] =
        Batches.take ⟨b.taken, b.waiting ++ [record route]⟩ := by
      rw [Batches.offer_of_le (by rw [List.length_singleton]; omega), Batches.take_of_ne_nil (by simp),
        List.take_of_length_le (by rw [List.length_singleton]; omega)]
    obtain ⟨hholds, hkept, hpeers⟩ := flush_holds happended
    have hbatch : (w.append route now).batch ≠ [] := by rw [append_batch]; simp
    simp only [if_pos (hfull.mpr hlt), if_neg hlt, hlast]
    exact ⟨hholds, hkept.trans hrunning, hpeers, by rw [flush_raises hbatch]⟩

/-! ## The handlers -/

/-- The loops of the handler offer the records, as one offer, and count what does not fill the batch. They
raise when the batch is full. -/
structure Queued (batchSize : Nat) (found : RunListener.Database) (router : IpAddress)
    (b : Batches RouteUpdatesRow) (records : List RouteUpdatesRow) (l : BMPListener) (r : Except PyErr Unit × BMPListener × Nat) : Prop where
  holds : Holds batchSize found (b.offer (capacity batchSize) records) r.2.1.batchWriter r.2.1.database
  running : r.2.1.batchWriter.isRunning = true
  peers : r.2.1.database.peerTables = l.database.peerTables
  grown : l.statsCollector.Grown router 0 (b.accepted (capacity batchSize) records) 0 r.2.1.statsCollector
  outcome : r.1 =
    if records.length < capacity batchSize - b.waiting.length then .ok () else .error .postgresError

theorem queueRoutes_holds (times : Times) (router : IpAddress) (routes : List RouteUpdate)
    {b : Batches RouteUpdatesRow} {s : BMPListener × Nat}
    (h : Holds batchSize found b s.1.batchWriter s.1.database)
    (hrunning : s.1.batchWriter.isRunning = true)
    (hroom : b.waiting.length < capacity batchSize) :
    Queued batchSize found router b (routes.map record) s.1
      (queueRoutes (routeServices times) router routes s) := by
  induction routes generalizing b s with
  | nil =>
    refine ⟨?_, hrunning, rfl, ?_, ?_⟩
    · rw [List.map_nil, Batches.offer_nil hroom]
      exact h
    · rw [List.map_nil, Batches.accepted_nil]
      exact .refl _ _
    · rw [List.map_nil, List.length_nil, if_pos (Nat.sub_pos_of_lt hroom)]
      rfl
  | cons route routes ih =>
    obtain ⟨hholds, hkept, hpeers, houtcome⟩ := addRoute_holds h hrunning hroom route (times.loop s.2)
    rw [queueRoutes, List.map_cons]
    cases hadd : (routeServices times).addRoute route s with
    | mk outcome s' =>
      have hs' : s' = ((routeServices times).addRoute route s).2 := (congrArg Prod.snd hadd).symm
      have hone : Holds batchSize found (b.offer (capacity batchSize) [record route]) s'.1.batchWriter
            s'.1.database ∧
          s'.1.batchWriter.isRunning = true ∧ s'.1.database.peerTables = s.1.database.peerTables ∧
            s'.1.statsCollector = s.1.statsCollector := by
        rw [hs']
        exact ⟨hholds, hkept, hpeers, rfl⟩
      obtain ⟨hholds, hkept, hpeers, hstats⟩ := hone
      have hresult : outcome =
          if b.waiting.length + 1 < capacity batchSize then .ok () else .error .postgresError :=
        (congrArg Prod.fst hadd).symm.trans houtcome
      by_cases hlt : b.waiting.length + 1 < capacity batchSize
      · rw [if_pos hlt] at hresult
        rw [hresult]
        have hone : b.offer (capacity batchSize) [record route] = ⟨b.taken, b.waiting ++ [record route]⟩ :=
          Batches.offer_of_lt (by rw [List.length_singleton]; omega)
        have hwaiting : (b.offer (capacity batchSize) [record route]).waiting.length = b.waiting.length + 1 := by
          rw [hone, List.length_append, List.length_singleton]
        obtain ⟨hrest, hlast, hsame, hgrown, hraised⟩ := ih
          (s := (routeServices times).incrementProcessed router route.family s') hholds hkept
          (by rw [hwaiting]; exact hlt)
        have hnow := grown_processed router route.family.text s'.1.statsCollector
        refine ⟨?_, hlast, hsame.trans hpeers, ?_, ?_⟩
        · rw [Batches.offer_cons_room hlt]
          exact hrest
        · rw [Batches.accepted_cons_room hlt, ← hstats, Nat.add_comm]
          exact hnow.trans hgrown
        · rw [hwaiting] at hraised
          refine hraised.trans ?_
          rw [List.length_cons]
          congr 1
          rw [eq_iff_iff]
          omega
      · rw [if_neg hlt] at hresult
        rw [hresult]
        refine ⟨?_, hkept, hpeers, ?_, ?_⟩
        · rw [Batches.offer_cons_full (by omega)]
          exact hholds
        · rw [Batches.accepted_cons_full (by omega), ← hstats]
          exact .refl _ _
        · rw [List.length_cons, if_neg (by omega)]

/-- What the messages so far have done to the listener. -/
structure Represents (batchSize : Nat) (found : RunListener.Database) (ms : List Message)
    (b : Batches RouteUpdatesRow) (l : BMPListener) : Prop where
  running : l.batchWriter.isRunning = true
  batched : Batched (capacity batchSize) (ms.map recordsOf) b
  holds : Holds batchSize found b l.batchWriter l.database
  peers : l.database.peerTables = ms.foldl peersAfter found.peerTables

theorem Represents.room {ms : List Message} {l : BMPListener} (h : Represents batchSize found ms b l) :
    b.waiting.length < capacity batchSize :=
  h.batched.waiting_lt (capacity_pos batchSize)

/-- Two listeners that differ in their statistics. -/
structure SameTables (l l' : BMPListener) : Prop where
  writer : l'.batchWriter = l.batchWriter
  database : l'.database = l.database

theorem Represents.same {ms : List Message} {l l' : BMPListener} (h : Represents batchSize found ms b l)
    (hsame : SameTables l l') : Represents batchSize found ms b l' := by
  obtain ⟨hwriter, hdatabase⟩ := hsame
  exact ⟨by rw [hwriter]; exact h.running, h.batched, by rw [hwriter, hdatabase]; exact h.holds,
    by rw [hdatabase]; exact h.peers⟩

/-- What the connection does with a message before it is handed to its handler. -/
def noted (times : Times) (router : IpAddress) (l : BMPListener) : BMPListener :=
  (services times).incrementReceived router ((services times).updatePeerLastSeen router l).2

/-- A message offers its records, and does its part to the tables of the routers. -/
theorem handle_represents {ms : List Message} {l : BMPListener} (h : Represents batchSize found ms b l)
    (m : Message) :
    Represents batchSize found (ms ++ [m]) (b.offer (capacity batchSize) (recordsOf m))
      ((services m.times).handleBmpMessage m.msgType m.data m.router (noted m.times m.router l)).2 := by
  obtain ⟨router, times, msgType, data⟩ := m
  have hbatched := h.batched.offer (recordsOf ⟨router, times, msgType, data⟩)
  rw [← List.map_singleton, ← List.map_append] at hbatched
  have hpeers : ∀ l' : BMPListener,
      l'.database.peerTables = peersAfter l.database.peerTables ⟨router, times, msgType, data⟩ →
        l'.database.peerTables =
          (ms ++ [(⟨router, times, msgType, data⟩ : Message)]).foldl peersAfter found.peerTables := by
    intro l' hl'
    rw [hl', List.foldl_append, h.peers]
    rfl
  have hnone : ∀ d : RunListener.Database, d.routeUpdates = l.database.routeUpdates →
      d.routeState = l.database.routeState →
        Holds batchSize found (b.offer (capacity batchSize) []) l.batchWriter d := by
    intro d hupdates hstate
    rw [Batches.offer_nil h.room]
    exact ⟨h.holds.size, h.holds.waiting, hupdates.trans h.holds.routeUpdates,
      hstate.trans h.holds.routeState, h.holds.totals⟩
  cases msgType with
  | routeMonitoring =>
    have hnoted : Holds batchSize found b (noted times router l).batchWriter (noted times router l).database :=
      ⟨h.holds.size, h.holds.waiting, h.holds.routeUpdates, h.holds.routeState, h.holds.totals⟩
    have hqueued := queueRoutes_holds times router
      (Records.routesOf times.clock data router) (s := (noted times router l, 0)) hnoted h.running
      h.room
    have hhandled : ((services times).handleRouteMonitoring data router (noted times router l)).2 =
        (queueRoutes (routeServices times) router (Records.routesOf times.clock data router)
          (noted times router l, 0)).2.1 := by
      simp only [services, handleRouteMonitoring_routes]
    rw [Services.handleBmpMessage, hhandled]
    exact ⟨hqueued.running, hbatched, hqueued.holds, hpeers _ hqueued.peers⟩
  | peerUpNotification => exact ⟨h.running, hbatched, hnone _ rfl rfl, hpeers _ rfl⟩
  | peerDownNotification => exact ⟨h.running, hbatched, hnone _ rfl rfl, hpeers _ rfl⟩
  | initiation => exact ⟨h.running, hbatched, hnone _ rfl rfl, hpeers _ rfl⟩
  | termination => exact ⟨h.running, hbatched, hnone _ rfl rfl, hpeers _ rfl⟩
  | statisticsReport => exact ⟨h.running, hbatched, hnone _ rfl rfl, hpeers _ rfl⟩

/-! ## One round of a connection -/

/-- What a round reads: the message it hands on, if any, and what is left of the stream. A body that is
cut short is gone. -/
def readMessage (d : Bytes) : Option (Option (BMPMessageType × Bytes) × Bytes) :=
  if d.length < BMP_HEADER_SIZE then none
  else
    match parseBmpHeader (d.take BMP_HEADER_SIZE) with
    | .error _ => some (none, d.drop BMP_HEADER_SIZE)
    | .ok header =>
        let bodyLength := header.length - BMP_HEADER_SIZE
        if (d.drop BMP_HEADER_SIZE).length < bodyLength then some (none, [])
        else some (some (header.msgType,
          d.take BMP_HEADER_SIZE ++ (d.drop BMP_HEADER_SIZE).take bodyLength),
            (d.drop BMP_HEADER_SIZE).drop bodyLength)

def isErrored : Event → Bool
  | .errored _ => true
  | _ => false

/-- The end of a round: an error is counted and logged, or there was none. -/
def Settled (times : Times) (router : IpAddress) (raised : Bool) (l : BMPListener)
    (c : ConnectionState BMPListener) : Prop :=
  c.services = (if raised then (services times).incrementError router l else l) ∧
    c.events.countP isErrored = raised.toNat

section

variable {times : Times} {router : IpAddress} {raised : Bool} {l : BMPListener}
  {c : ConnectionState BMPListener}

theorem Settled.sameTables (h : Settled times router raised l c) : SameTables l c.services := by
  rw [h.1]
  cases raised <;> exact ⟨rfl, rfl⟩

theorem Settled.grown (h : Settled times router raised l c) :
    l.statsCollector.Grown router 0 0 (c.events.countP isErrored) c.services.statsCollector := by
  rw [h.1, h.2]
  cases raised with
  | false => exact .refl _ _
  | true => exact grown_error router l.statsCollector

end

theorem exceptClauses_settled (times : Times) (router : IpAddress)
    (r : Except PyErr Unit × ConnectionState BMPListener) (h : r.2.events.countP isErrored = 0) :
    Settled times router (!r.1.isOk) r.2.services (exceptClauses (services times) router r) ∧
      handledFrames (exceptClauses (services times) router r).events = handledFrames r.2.events := by
  obtain ⟨e | u, c⟩ := r
  · refine ⟨⟨rfl, ?_⟩, by simp [exceptClauses, handledFrames, handledFrame?]⟩
    rw [exceptClauses, List.countP_append, h]
    rfl
  · exact ⟨⟨rfl, h⟩, rfl⟩

/-- A message that is read whole is handed to its handler. -/
theorem handleMessage_ran (times : Times) (router : IpAddress) (header : BMPHeader) (fullMessage : Bytes)
    (c : ConnectionState BMPListener) :
    let r := Segments.handleMessage (services times) router header fullMessage c
    r.2.reader = c.reader ∧
      r.2.events = c.events ++ [.lastSeenUpdated, .received, .handled header.msgType fullMessage] ∧
      r.2.services = ((services times).handleBmpMessage header.msgType fullMessage router
        (noted times router c.services)).2 ∧
      r.1.isOk = ((services times).handleBmpMessage header.msgType fullMessage router
        (noted times router c.services)).1.isOk := by
  have hseen : ((services times).updatePeerLastSeen router c.services).1 = .ok () := rfl
  rw [Segments.handleMessage, noted]
  cases hlast : (services times).updatePeerLastSeen router c.services with
  | mk outcome l =>
    rw [hlast] at hseen
    cases hseen
    simp only
    cases (services times).handleBmpMessage header.msgType fullMessage router
      ((services times).incrementReceived router l) with
    | mk outcome l' => cases outcome <;> exact ⟨rfl, rfl, rfl, rfl⟩

/-- All that a round can do: it reads a message and handles it, or reads something else. -/
theorem round_reads {times : Times} {router : IpAddress} {reader : StreamReader} {l : BMPListener}
    {c : ConnectionState BMPListener}
    (h : Connection.round (services times) router ⟨reader, [], l⟩ = some c) :
    (readMessage reader.rest = some (none, c.reader.rest) ∧ handledFrames c.events = [] ∧
        Settled times router true l c) ∨
      ∃ msgType data, readMessage reader.rest = some (some (msgType, data), c.reader.rest) ∧
        handledFrames c.events = [(msgType, data)] ∧
        Settled times router
          (!((services times).handleBmpMessage msgType data router (noted times router l)).1.isOk)
          ((services times).handleBmpMessage msgType data router (noted times router l)).2 c := by
  rw [Connection.round, StreamReader.readexactly] at h
  by_cases hlen : reader.rest.length < BMP_HEADER_SIZE
  · rw [if_pos hlen] at h
    cases h
  rw [if_neg hlen] at h
  simp only [Option.some_inj] at h
  have hsettled := exceptClauses_settled times router
    (processMessage (services times) router (reader.rest.take BMP_HEADER_SIZE)
      { reader := ⟨reader.rest.drop BMP_HEADER_SIZE, reader.position + BMP_HEADER_SIZE⟩
        events := [] ++ [.headerRead reader.position (reader.rest.take BMP_HEADER_SIZE)]
        services := l })
  rw [h] at hsettled
  have hreader := congrArg ConnectionState.reader h
  rw [exceptClauses_reader] at hreader
  rw [Segments.processMessage_eq] at hsettled hreader
  rw [readMessage, if_neg hlen]
  cases hparse : parseBmpHeader (reader.rest.take BMP_HEADER_SIZE) with
  | error e =>
    rw [hparse] at hsettled hreader
    obtain ⟨hend, hframes⟩ := hsettled rfl
    exact .inl ⟨by rw [← hreader], hframes, hend⟩
  | ok header =>
    rw [hparse] at hsettled hreader
    simp only [Segments.readBody, StreamReader.readexactly] at hsettled hreader ⊢
    by_cases hbody : (reader.rest.drop BMP_HEADER_SIZE).length < header.length - BMP_HEADER_SIZE
    · rw [if_pos hbody] at hsettled hreader
      rw [if_pos hbody]
      obtain ⟨hend, hframes⟩ := hsettled rfl
      exact .inl ⟨by rw [← hreader], hframes, hend⟩
    · rw [if_neg hbody] at hsettled hreader
      rw [if_neg hbody]
      obtain ⟨hrun, hevents, hservices, houtcome⟩ := handleMessage_ran times router header
        (reader.rest.take BMP_HEADER_SIZE ++
          (reader.rest.drop BMP_HEADER_SIZE).take (header.length - BMP_HEADER_SIZE))
        ⟨⟨(reader.rest.drop BMP_HEADER_SIZE).drop (header.length - BMP_HEADER_SIZE),
            reader.position + BMP_HEADER_SIZE + (header.length - BMP_HEADER_SIZE)⟩,
          [] ++ [.headerRead reader.position (reader.rest.take BMP_HEADER_SIZE)], l⟩
      simp only at hreader hsettled
      rw [hrun] at hreader
      rw [hevents, hservices, houtcome] at hsettled
      obtain ⟨hend, hframes⟩ := hsettled rfl
      exact .inr ⟨_, _, by rw [← hreader], hframes, hend⟩

/-! ## Whole runs -/

theorem messages_round (log : List Entry) (router : IpAddress) (times : Times) (events : List Event) :
    messages (log ++ events.map fun event => ⟨router, times, event⟩) =
      messages log ++ (handledFrames events).map fun m => ⟨router, times, m.1, m.2⟩ := by
  rw [messages, List.filterMap_append, ← messages, List.filterMap_map, handledFrames, List.map_filterMap]
  rfl

/-- The end of a connection that is reset, as that of a round. -/
theorem lose_settled (router : IpAddress) (times : Times) (c : Inbound) (w : World) :
    Settled times router c.awaitsBody w.listener
      ⟨c.reader, lostEvents c, (w.lose router times c).listener⟩ := by
  rw [Settled, World.lose, lostEvents]
  cases c.awaitsBody <;> exact ⟨rfl, rfl⟩

theorem handledFrames_lost (c : Inbound) : handledFrames (lostEvents c) = [] := by
  rw [lostEvents]
  split <;> rfl

theorem messages_lose (router : IpAddress) (times : Times) (c : Inbound) (w : World) :
    messages (w.lose router times c).log = messages w.log := by
  rw [World.lose, messages_round, handledFrames_lost, List.map_nil, List.append_nil]

/-- What every step keeps. -/
def Recorded (batchSize : Nat) (found : RunListener.Database) (w : World) : Prop :=
  ∃ b, Represents batchSize found (messages w.log) b w.listener

theorem recorded_step (w : World) (a : Label) (w' : World) (hstep : step w a = some w')
    (h : Recorded batchSize found w) : Recorded batchSize found w' := by
  obtain ⟨b, h⟩ := h
  rw [Recorded]
  rcases step_cases hstep with ⟨router, times, c, r, _, _, hround, rfl⟩ | ⟨now, _, rfl⟩ |
    ⟨throughput, _, rfl⟩ | ⟨router, _, rfl⟩ | ⟨router, times, c, _, rfl⟩ | ⟨router, c, rfl⟩
  · rw [messages_round]
    rcases round_reads hround with ⟨_, hframes, hend⟩ | ⟨msgType, data, _, hframes, hend⟩
    · rw [hframes, List.map_nil, List.append_nil]
      exact ⟨b, h.same hend.sameTables⟩
    · rw [hframes, List.map_singleton]
      exact ⟨_, (handle_represents h ⟨router, times, msgType, data⟩).same hend.sameTables⟩
  · rw [periodicRound]
    split
    · obtain ⟨hholds, hkept, hpeers⟩ := flush_holds h.holds
      exact ⟨b.take, hkept.trans h.running, h.batched.take, hholds, hpeers.trans h.peers⟩
    · exact ⟨b, h.running, h.batched, h.holds, h.peers⟩
  · exact ⟨b, h.same ⟨rfl, rfl⟩⟩
  · exact ⟨b, h.same ⟨rfl, rfl⟩⟩
  · rw [messages_lose]
    exact ⟨b, h.same (lose_settled router times c w).sameTables⟩
  · exact ⟨b, h.same ⟨rfl, rfl⟩⟩

theorem recorded_startedOn {batchTimeout : Timestamp} {labels : List Label} {w : World}
    (hrun : run step (.startedOn found batchSize batchTimeout) labels = some w) :
    Recorded batchSize found w := by
  have hstart : Recorded batchSize found (.startedOn found batchSize batchTimeout) :=
    ⟨.empty, rfl, .empty, ⟨rfl, rfl, (List.append_nil _).symm, rfl, rfl, rfl⟩, rfl⟩
  have hany : Throughout step (fun _ _ => True) (.startedOn found batchSize batchTimeout) labels :=
    throughout_of_always (fun _ _ => trivial) labels _
  exact run_keeps (fun w a w' _ => recorded_step w a w') hany hrun hstart

theorem recorded_run {batchTimeout : Timestamp} {labels : List Label} {w : World}
    (hrun : run step (.started batchSize batchTimeout) labels = some w) : Recorded batchSize .empty w :=
  recorded_startedOn hrun

/-- The tables after the last flush. -/
theorem Represents.stop {ms : List Message} {l : BMPListener} (h : Represents batchSize found ms b l) :
    l.stop = ⟨found.routeUpdates ++ b.taken.flatMap copied ++ copied b.waiting, found.routeState,
      ms.foldl peersAfter found.peerTables⟩ := by
  have hcopied : copied [] = [] := rfl
  rw [BMPListener.stop]
  by_cases hbatch : l.batchWriter.batch = []
  · rw [flush_empty pool (w := { l.batchWriter with isRunning := false }) hbatch, ← h.holds.waiting, hbatch,
      List.map_nil, hcopied, List.append_nil, ← h.holds.routeUpdates, ← h.holds.routeState, ← h.peers]
  · rw [flush_raises (w := { l.batchWriter with isRunning := false }) hbatch, ← h.holds.waiting,
      ← h.holds.routeUpdates, ← h.holds.routeState, ← h.peers]

/-- What is stored of the messages: the start of the records of each, in batches that are stored
whole or not at all. -/
structure StoredInBatches (batchSize : Nat) (ms : List Message) (parts taken : List (List RouteUpdatesRow))
    (l : BMPListener) : Prop where
  starts : List.Forall₂ (fun part records => part <+: records) parts (ms.map recordsOf)
  inOrder : parts.flatten = taken.flatten ++ l.batchWriter.batch.map copyRow
  sizes : ∀ batch ∈ taken, batch ≠ [] ∧ batch.length ≤ capacity batchSize
  waiting : l.batchWriter.batch.length < capacity batchSize
  cuts : cut parts (ms.map recordsOf) ≤ taken.countP fun batch => batch.length = capacity batchSize
  routeUpdates : l.database.routeUpdates = taken.flatMap copied
  stopped : l.stop.routeUpdates = (taken ++ [l.batchWriter.batch.map copyRow]).flatMap copied

/-- In every order in which routers connect, their bytes arrive, their messages are handled and the
periodic task wakes up: the records of the messages are queued in their order, each message's from its first on and to
its last but for one message for each full batch, and a batch is stored whole or not at all. Nothing
else is stored, and nothing twice. -/
theorem stored_in_batches (batchSize : Nat) (batchTimeout : Timestamp) {labels : List Label} {w : World}
    (hrun : run step (.started batchSize batchTimeout) labels = some w) :
    (∃ parts taken, StoredInBatches batchSize (messages w.log) parts taken w.listener) ∧
      w.listener.stop.routeUpdates.Sublist (rowsOf (messages w.log)) := by
  obtain ⟨b, h⟩ := recorded_run hrun
  have hstop : w.listener.stop.routeUpdates = b.taken.flatMap copied ++ copied b.waiting :=
    congrArg Database.routeUpdates h.stop
  constructor
  · obtain ⟨parts, hparts, hkept, hcut⟩ := h.batched.parts (capacity_pos batchSize)
    refine ⟨parts, b.taken, hparts, ?_, h.batched.sizes (capacity_pos batchSize), ?_, hcut,
      h.holds.routeUpdates, ?_⟩
    · rw [← hkept, Batches.kept, h.holds.waiting]
    · rw [h.holds.batch_length]
      exact h.room
    · rw [hstop, List.flatMap_append, List.flatMap_singleton, h.holds.waiting]
  · have hbatches : (b.taken.flatMap copied ++ copied b.waiting).Sublist b.kept := by
      rw [Batches.kept, ← List.flatMap_id]
      exact (List.Sublist.flatMap_right b.taken fun batch _ => copied_sublist batch).append
        (copied_sublist b.waiting)
    rw [hstop, rowsOf, List.flatMap_def]
    exact hbatches.trans (h.batched.kept_sublist (capacity_pos batchSize))

/-- The clocks from a time on. -/
def timesFrom (t : Timestamp) : Times := ⟨t, fun k => t + k, fun _ => t⟩

/-- 10.0.0.0/8, with a MED. -/
def sampleStream : Bytes :=
  encodeRouteMonitoring samplePeer (encodeUpdate [] [⟨0x80, 4, [0, 0, 0, 5]⟩] [8, 10])

/-- Two routers send the route, the one in two segments, and the periodic task wakes up between their
messages. -/
def wokenBetween : List Label :=
  [.connect routerA, .connect routerB, .receive routerA (sampleStream.take 20), .receive routerB sampleStream,
    .receive routerA (sampleStream.drop 20), .round routerA (timesFrom 100), .wake 700,
    .round routerB (timesFrom 800), .finish routerB, .finish routerA, .disconnect routerA,
    .disconnect routerB]

/-- 10.0.0.0/8, 11.0.0.0/8 and 12.0.0.0/8, with the MED. -/
def threePrefixes : Bytes :=
  encodeRouteMonitoring samplePeer (encodeUpdate [] [⟨0x80, 4, [0, 0, 0, 5]⟩] [8, 10, 8, 11, 8, 12])

/-- The second route of the one router fills the batch, so its third is lost; the route of the other waits. -/
def filledByFirst : List Label :=
  [.connect routerA, .connect routerB, .receive routerA threePrefixes, .round routerA (timesFrom 100),
    .receive routerB sampleStream, .round routerB (timesFrom 200)]

theorem stored_in_batches_two :
    let w := (run step (.started 2 500) filledByFirst).get (by decide +kernel)
    (∃ parts taken, StoredInBatches 2 (messages w.log) parts taken w.listener) ∧
      w.listener.stop.routeUpdates.Sublist (rowsOf (messages w.log)) :=
  stored_in_batches 2 500 (Option.some_get _).symm

/-- In every run no route reaches `route_state`, also not by the last flush, and the writer counts no
batch: a flush raises when it finds a route. -/
theorem route_state_unwritten (batchSize : Nat) (batchTimeout : Timestamp) {labels : List Label} {w : World}
    (hrun : run step (.started batchSize batchTimeout) labels = some w) :
    w.listener.database.routeState = [] ∧ w.listener.stop.routeState = [] ∧
      w.listener.batchWriter.totalRoutesWritten = 0 ∧ w.listener.batchWriter.totalBatchesWritten = 0 ∧
      ((flush pool w.listener.batchWriter w.listener.database).1 = .ok () ↔
        w.listener.batchWriter.batch = []) := by
  obtain ⟨b, h⟩ := recorded_run hrun
  have hstop : w.listener.stop.routeState = [] := congrArg Database.routeState h.stop
  refine ⟨h.holds.routeState, hstop, h.holds.totals.1, h.holds.totals.2, ?_⟩
  by_cases hbatch : w.listener.batchWriter.batch = []
  · rw [flush_empty pool hbatch]
    exact iff_of_true rfl hbatch
  · rw [flush_raises hbatch]
    exact iff_of_false (fun h => by cases h) hbatch

theorem route_state_unwritten_two :
    let w := (run step (.started 1001 500) wokenBetween).get (by decide +kernel)
    w.listener.database.routeState = [] ∧ w.listener.stop.routeState = [] ∧
      w.listener.batchWriter.totalRoutesWritten = 0 ∧ w.listener.batchWriter.totalBatchesWritten = 0 ∧
      ((flush pool w.listener.batchWriter w.listener.database).1 = .ok () ↔
        w.listener.batchWriter.batch = []) :=
  route_state_unwritten 1001 500 (Option.some_get _).symm

/-- What the tables hold when nothing is lost. -/
def ledger (ms : List Message) : RunListener.Database := ⟨rowsOf ms, [], ms.foldl peersAfter .empty⟩

/-- The same when the program has found something in them. -/
def ledgerOn (found : RunListener.Database) (ms : List Message) : RunListener.Database :=
  ⟨found.routeUpdates ++ rowsOf ms, found.routeState, ms.foldl peersAfter found.peerTables⟩

theorem ledgerOn_empty (ms : List Message) : ledgerOn .empty ms = ledger ms := rfl

/-- No message has two routes, and the records fit their columns. -/
structure Single (ms : List Message) : Prop where
  one : ∀ m ∈ ms, (recordsOf m).length ≤ 1
  fits : ∀ r ∈ rowsOf ms, fitsColumns r = true

theorem copied_of_fits {rows : List RouteUpdatesRow} (h : ∀ r ∈ rows, fitsColumns r = true) :
    copied rows = rows := by
  rw [copied, if_pos (List.all_eq_true.mpr h)]

theorem flatMap_copied {batches : List (List RouteUpdatesRow)}
    (h : ∀ r ∈ batches.flatten, fitsColumns r = true) : batches.flatMap copied = batches.flatten := by
  induction batches with
  | nil => rfl
  | cons batch batches ih =>
    rw [List.flatten_cons] at h ⊢
    rw [List.flatMap_cons, copied_of_fits fun r hr => h r (List.mem_append_left _ hr),
      ih fun r hr => h r (List.mem_append_right _ hr)]

theorem Represents.kept_fits {ms : List Message} {l : BMPListener} (h : Represents batchSize found ms b l)
    (hfits : ∀ r ∈ rowsOf ms, fitsColumns r = true) : ∀ r ∈ b.kept, fitsColumns r = true := by
  intro r hr
  apply hfits
  rw [rowsOf, List.flatMap_def]
  exact (h.batched.kept_sublist (capacity_pos batchSize)).subset hr

/-- When the records fit their columns every batch is stored. -/
theorem Represents.stored {ms : List Message} {l : BMPListener} (h : Represents batchSize found ms b l)
    (hfits : ∀ r ∈ rowsOf ms, fitsColumns r = true) :
    l.database.routeUpdates = found.routeUpdates ++ b.taken.flatten ∧
      l.stop.routeUpdates = found.routeUpdates ++ b.kept := by
  have hkept := h.kept_fits hfits
  have htaken : b.taken.flatMap copied = b.taken.flatten :=
    flatMap_copied fun r hr => hkept r (List.mem_append_left _ hr)
  constructor
  · rw [h.holds.routeUpdates, htaken]
  · rw [h.stop, htaken, copied_of_fits fun r hr => hkept r (List.mem_append_right _ hr), Batches.kept,
      List.append_assoc]

theorem Represents.single {ms : List Message} {l : BMPListener} (h : Represents batchSize found ms b l)
    (hsingle : Single ms) :
    l.database.routeUpdates ++ l.batchWriter.batch.map copyRow = found.routeUpdates ++ rowsOf ms ∧
      l.stop = ledgerOn found ms := by
  have hkept : b.kept = rowsOf ms := by
    rw [rowsOf, List.flatMap_def]
    refine h.batched.kept_all (capacity_pos batchSize) fun xs hxs => ?_
    obtain ⟨m, hm, rfl⟩ := List.mem_map.mp hxs
    exact hsingle.one m hm
  obtain ⟨hwritten, hstored⟩ := h.stored hsingle.fits
  rw [h.stop] at hstored
  constructor
  · rw [hwritten, h.holds.waiting, List.append_assoc, ← Batches.kept, hkept]
  · rw [h.stop, ledgerOn, ← hkept, ← hstored]

/-- When no message has two routes and the records fit their columns, nothing is lost, whenever and in
batches of whatever size the records are written: what the messages say is in the tables or in the
batch, and after the last flush the tables hold it all but for `route_state`. -/
theorem single_routes_stored (batchSize : Nat) (batchTimeout : Timestamp) {labels : List Label} {w : World}
    (hrun : run step (.started batchSize batchTimeout) labels = some w)
    (hsingle : Single (messages w.log)) :
    w.listener.database.routeUpdates ++ w.listener.batchWriter.batch.map copyRow =
        rowsOf (messages w.log) ∧
      w.listener.stop = ledger (messages w.log) := by
  obtain ⟨b, h⟩ := recorded_run hrun
  exact h.single hsingle

theorem single_routes_stored_two :
    let w := (run step (.started 1002 500) wokenBetween).get (by decide +kernel)
    w.listener.database.routeUpdates ++ w.listener.batchWriter.batch.map copyRow =
        rowsOf (messages w.log) ∧
      w.listener.stop = ledger (messages w.log) :=
  single_routes_stored 1002 500 (Option.some_get _).symm ⟨by decide +kernel, by decide +kernel⟩

end Pybmpmon.Listener.Ledger
