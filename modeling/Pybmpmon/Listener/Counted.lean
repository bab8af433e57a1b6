import Pybmpmon.Listener.Ledger

/-!
# What the statistics of a router count

A pass of the report logs the counters of a router and sets them to zero. The statistics
of a router are removed when its connection ends with its stream; a reset leaves them.
Until they are removed, whatever the other routers do, what has been logged and what is
counted add up to its messages, its errors, and its records that are queued, except the
record that fills a batch: the flush raises before the route is counted. So
`route_updates` gains as many routes of a router as it has processed, or more, but not
more than it has had errors.
-/
namespace Pybmpmon.Listener.Counted

open Pybmpmon.Lib.Batching Pybmpmon.Lib.Outcome Pybmpmon.Lib.Transition Pybmpmon.Python Pybmpmon.Models.Route
open Pybmpmon.Protocol.DecoderErrors (Caught)
open Pybmpmon.Database.BatchWriter
open Pybmpmon.Monitoring.Reports (Reporter grown_received total_report total_removePeer)
open Pybmpmon.Listener.RouteMonitoring Pybmpmon.Listener.Connection Pybmpmon.Listener.Framing
open Pybmpmon.Listener.RunListener Pybmpmon.Listener.Ledger
open Pybmpmon.Listener.Records (record routerA routerB handleRouteMonitoring_routes handleRouteMonitoring_ok)

variable {batchSize : Nat} {b : Batches RouteUpdatesRow}

/-- The record is of a route of the router. -/
def isOf (router : IpAddress) (r : RouteUpdatesRow) : Bool := r.bmpPeerIp = router

def isFrom (router : IpAddress) (m : Message) : Bool := m.router = router

/-- The entry is of an error in a round of the router. -/
def isErrorOf (router : IpAddress) (e : Entry) : Bool := e.router = router && isErrored e.event

theorem recordsOf_isOf (m : Message) (router : IpAddress) :
    ∀ r ∈ recordsOf m, isOf router r = isFrom router m := by
  obtain ⟨peer, times, msgType, data⟩ := m
  intro r hr
  obtain ⟨route, hroute, rfl⟩ := List.mem_map.mp hr
  cases msgType with
  | routeMonitoring =>
    have hpeer : (record route).bmpPeerIp = peer := Records.routesOf_peer hroute
    rw [isOf, isFrom, hpeer]
  | _ => cases hroute

/-! ## One round -/

theorem outcome_isOk {α : Type} {x : Except PyErr α} {h : Raises Caught x} (hok : (outcome x h).isOk = true) :
    ∃ a, x = .ok a := by
  cases x with
  | error e => cases hok
  | ok a => exact ⟨a, rfl⟩

/-- A message is received, and of its records those are counted that do not fill the batch. When the
handler does not raise there is room for all of them. -/
theorem handle_grown {ms : List Message} {l : BMPListener} (h : Represents batchSize .empty ms b l)
    (m : Message) :
    let r := (services m.times).handleBmpMessage m.msgType m.data m.router (noted m.times m.router l)
    l.statsCollector.Grown m.router 1 (b.accepted (capacity batchSize) (recordsOf m)) 0 r.2.statsCollector ∧
      (r.1.isOk = true → (recordsOf m).length < capacity batchSize - b.waiting.length) := by
  obtain ⟨router, times, msgType, data⟩ := m
  have hnoted : l.statsCollector.Grown router 1 0 0 (noted times router l).statsCollector :=
    grown_received router l.statsCollector
  have hnone : b.accepted (capacity batchSize) [] = 0 := Batches.accepted_nil _ b
  have hroom : ([] : List RouteUpdatesRow).length < capacity batchSize - b.waiting.length :=
    Nat.sub_pos_of_lt h.room
  cases msgType with
  | routeMonitoring =>
    have hqueued := queueRoutes_holds times router
      (Records.routesOf times.clock data router) (s := (noted times router l, 0))
      ⟨h.holds.size, h.holds.waiting, h.holds.routeUpdates, h.holds.routeState, h.holds.totals⟩ h.running
      h.room
    have hhandled : ((services times).handleRouteMonitoring data router (noted times router l)).2 =
        (queueRoutes (routeServices times) router (Records.routesOf times.clock data router)
          (noted times router l, 0)).2.1 := by
      simp only [services, handleRouteMonitoring_routes]
    have hgrown := hnoted.trans hqueued.grown
    rw [Nat.zero_add] at hgrown
    simp only [Services.handleBmpMessage, hhandled]
    refine ⟨hgrown, fun hok => ?_⟩
    obtain ⟨_, hok⟩ := outcome_isOk hok
    have hroutes := handleRouteMonitoring_ok hok
    rw [hqueued.outcome] at hroutes
    by_contra hfull
    rw [recordsOf, routesOf] at hfull
    rw [if_neg hfull] at hroutes
    cases hroutes
  | peerUpNotification =>
    simp only [recordsOf, routesOf, List.map_nil, hnone]
    exact ⟨hnoted, fun _ => hroom⟩
  | peerDownNotification =>
    simp only [recordsOf, routesOf, List.map_nil, hnone]
    exact ⟨hnoted, fun _ => hroom⟩
  | initiation =>
    simp only [recordsOf, routesOf, List.map_nil, hnone]
    exact ⟨hnoted, fun _ => hroom⟩
  | termination =>
    simp only [recordsOf, routesOf, List.map_nil, hnone]
    exact ⟨hnoted, fun _ => hroom⟩
  | statisticsReport =>
    simp only [recordsOf, routesOf, List.map_nil, hnone]
    exact ⟨hnoted, fun _ => hroom⟩

/-- A message of another router offers nothing of the router's. -/
theorem offer_counts (router : IpAddress) (m : Message) (hroom : b.waiting.length < capacity batchSize) :
    (b.offer (capacity batchSize) (recordsOf m)).kept.countP (isOf router) +
        b.filled (capacity batchSize) (isOf router) =
      b.kept.countP (isOf router) +
        (b.offer (capacity batchSize) (recordsOf m)).filled (capacity batchSize) (isOf router) +
        if m.router = router then b.accepted (capacity batchSize) (recordsOf m) else 0 := by
  by_cases hm : m.router = router
  · rw [if_pos hm]
    exact Batches.accepted_offer hroom fun r hr => by rw [recordsOf_isOf m router r hr, isFrom, hm]; simp
  · obtain ⟨hkept, hfilled⟩ := Batches.other_offer (p := isOf router) hroom fun r hr => by
      rw [recordsOf_isOf m router r hr, isFrom, decide_eq_false hm]
    rw [if_neg hm, hkept, hfilled, Nat.add_zero]

/-- A batch is filled by a record of the router only when a message of the router raises an error. -/
theorem offer_filled (router : IpAddress) (m : Message) (hroom : b.waiting.length < capacity batchSize)
    {events : List Event} {ok : Bool} (herrors : events.countP isErrored = (!ok).toNat)
    (hok : ok = true → (recordsOf m).length < capacity batchSize - b.waiting.length) :
    (b.offer (capacity batchSize) (recordsOf m)).filled (capacity batchSize) (isOf router) ≤
      b.filled (capacity batchSize) (isOf router) +
        if m.router = router then events.countP isErrored else 0 := by
  by_cases hm : m.router = router
  · rw [if_pos hm, herrors]
    refine Nat.le_trans (Batches.offer_filled ..) (Nat.add_le_add_left ?_ _)
    cases ok with
    | false => split <;> decide
    | true => rw [if_pos (hok rfl)]; exact Nat.zero_le _
  · rw [(Batches.other_offer (p := isOf router) hroom fun r hr => by
      rw [recordsOf_isOf m router r hr, isFrom, decide_eq_false hm]).2]
    exact Nat.le_add_right _ _

/-- What a round of one router leaves of the totals of another, or of its own. -/
theorem total_grown {peer : IpAddress} {m n e : Nat} {r r' : Reporter IpAddress} (h : r.Grown peer m n e r')
    (router : IpAddress) :
    r'.total router .received = r.total router .received + (if peer = router then m else 0) ∧
      r'.total router .processed = r.total router .processed + (if peer = router then n else 0) ∧
      r'.total router .errors = r.total router .errors + if peer = router then e else 0 := by
  by_cases hpeer : peer = router
  · subst hpeer
    simp only [if_true]
    exact ⟨h.received, h.processed, h.errors⟩
  · simp only [if_neg hpeer, h.others router (Ne.symm hpeer), Nat.add_zero, and_self]

theorem errors_round (router peer : IpAddress) (times : Times) (events : List Event) :
    (events.map fun event => (⟨peer, times, event⟩ : Entry)).countP (isErrorOf router) =
      if peer = router then events.countP isErrored else 0 := by
  rw [List.countP_map]
  by_cases hpeer : peer = router
  · rw [if_pos hpeer]
    exact List.countP_congr fun event _ => by simp [isErrorOf, hpeer]
  · rw [if_neg hpeer, List.countP_eq_zero]
    intro event _
    simp [isErrorOf, hpeer]

/-! ## While the statistics are kept -/

/-- The label ends the connection of the router. -/
def disconnects (router : IpAddress) : Label → Bool
  | .disconnect peer => peer = router
  | _ => false

/-- What has been handled and queued since, and what the statistics have counted of it. -/
structure Since (batchSize : Nat) (router : IpAddress) (before : World) (b₀ : Batches RouteUpdatesRow)
    (log : List Entry) (parts : List (List RouteUpdatesRow)) (b : Batches RouteUpdatesRow) (w : World) :
    Prop where
  logged : w.log = before.log ++ log
  represents : Represents batchSize .empty (messages w.log) b w.listener
  starts : List.Forall₂ (fun part records => part <+: records) parts ((messages log).map recordsOf)
  kept : b.kept = b₀.kept ++ parts.flatten
  taken : b₀.taken <+: b.taken
  received : w.listener.statsCollector.total router .received =
    before.listener.statsCollector.total router .received + (messages log).countP (isFrom router)
  processed : w.listener.statsCollector.total router .processed +
      b.filled (capacity batchSize) (isOf router) + b₀.kept.countP (isOf router) =
    before.listener.statsCollector.total router .processed + b.kept.countP (isOf router) +
      b₀.filled (capacity batchSize) (isOf router)
  errors : w.listener.statsCollector.total router .errors =
    before.listener.statsCollector.total router .errors + log.countP (isErrorOf router)
  filled : b.filled (capacity batchSize) (isOf router) ≤
    b₀.filled (capacity batchSize) (isOf router) + log.countP (isErrorOf router)

variable {router : IpAddress} {before : World} {b₀ : Batches RouteUpdatesRow} {log : List Entry}
  {parts : List (List RouteUpdatesRow)}

/-- A step that queues nothing and counts nothing. -/
theorem Since.same {w w' : World} (h : Since batchSize router before b₀ log parts b w) (hlog : w'.log = w.log)
    (htables : SameTables w.listener w'.listener)
    (hstats : ∀ counter, w'.listener.statsCollector.total router counter =
      w.listener.statsCollector.total router counter) :
    Since batchSize router before b₀ log parts b w' := by
  exact ⟨hlog.trans h.logged, by rw [hlog]; exact h.represents.same htables, h.starts, h.kept, h.taken,
    by rw [hstats, h.received], by rw [hstats, h.processed], by rw [hstats, h.errors], h.filled⟩

/-- A round in which no message is handled, or what is left of it when the connection is reset. -/
theorem Since.unhandled {w : World} {times : Times} {peer : IpAddress} {raised : Bool}
    {c : ConnectionState BMPListener} {connections : IpAddress → Option Inbound}
    (h : Since batchSize router before b₀ log parts b w)
    (hframes : handledFrames c.events = []) (hend : Settled times peer raised w.listener c) :
    Since batchSize router before b₀ (log ++ c.events.map fun event => ⟨peer, times, event⟩) parts b
      ⟨c.services, connections, w.log ++ c.events.map fun event => ⟨peer, times, event⟩⟩ := by
  obtain ⟨hreceived, hprocessed, herrors⟩ := total_grown hend.grown router
  have hmessages : ∀ entries : List Entry,
      messages (entries ++ c.events.map fun event => ⟨peer, times, event⟩) = messages entries := by
    intro entries
    rw [messages_round, hframes, List.map_nil, List.append_nil]
  refine ⟨by rw [h.logged, List.append_assoc], ?_, ?_, h.kept, h.taken, ?_, ?_, ?_, ?_⟩
  · rw [hmessages]
    exact h.represents.same hend.sameTables
  · rw [hmessages]
    exact h.starts
  · rw [hmessages, hreceived, h.received, ite_self, Nat.add_zero]
  · rw [hprocessed, ite_self, Nat.add_zero]
    exact h.processed
  · rw [herrors, h.errors, List.countP_append, errors_round, Nat.add_assoc]
  · rw [List.countP_append, ← Nat.add_assoc]
    exact Nat.le_trans h.filled (Nat.le_add_right _ _)

/-- A round in which a message is handled. -/
theorem Since.handled {w : World} {m : Message} {c : ConnectionState BMPListener}
    {connections : IpAddress → Option Inbound} (h : Since batchSize router before b₀ log parts b w)
    (hframes : handledFrames c.events = [(m.msgType, m.data)])
    (hend : Settled m.times m.router
      (!((services m.times).handleBmpMessage m.msgType m.data m.router
        (noted m.times m.router w.listener)).1.isOk)
      ((services m.times).handleBmpMessage m.msgType m.data m.router (noted m.times m.router w.listener)).2
      c) :
    Since batchSize router before b₀ (log ++ c.events.map fun event => ⟨m.router, m.times, event⟩)
      (parts ++ [(recordsOf m).take (capacity batchSize - b.waiting.length)])
      (b.offer (capacity batchSize) (recordsOf m))
      ⟨c.services, connections, w.log ++ c.events.map fun event => ⟨m.router, m.times, event⟩⟩ := by
  obtain ⟨hhandled, hfits⟩ := handle_grown h.represents m
  have hgrown := hhandled.trans hend.grown
  obtain ⟨hreceived, hprocessed, herrors⟩ := total_grown hgrown router
  have hmessages : ∀ entries : List Entry,
      messages (entries ++ c.events.map fun event => ⟨m.router, m.times, event⟩) =
        messages entries ++ [m] := by
    intro entries
    rw [messages_round, hframes]
    rfl
  have hoffer := offer_counts router m h.represents.room
  have hqueued := h.processed
  refine ⟨by rw [h.logged, List.append_assoc], ?_, ?_, ?_, ?_, ?_, ?_, ?_, ?_⟩
  · rw [hmessages]
    exact (handle_represents h.represents m).same hend.sameTables
  · rw [hmessages, List.map_append]
    exact List.rel_append h.starts (.cons (List.take_prefix _ _) .nil)
  · rw [Batches.offer_kept, h.kept, List.append_assoc, List.flatten_append, List.flatten_singleton]
  · exact h.taken.trans (Batches.offer_taken _ _ b)
  · rw [hmessages, hreceived, h.received, List.countP_append, List.countP_singleton, Nat.add_assoc]
    simp [isFrom]
  · rw [hprocessed, Nat.add_zero]
    omega
  · rw [herrors, h.errors, List.countP_append, errors_round, Nat.zero_add, Nat.add_assoc]
  · rw [List.countP_append, ← Nat.add_assoc, errors_round]
    exact Nat.le_trans (offer_filled router m h.represents.room hend.2 hfits) (Nat.add_le_add_right h.filled _)

theorem since_step {w w' : World} {a : Label} (hopen : disconnects router a = false) (hstep : step w a = some w')
    (h : Since batchSize router before b₀ log parts b w) :
    ∃ log parts b, Since batchSize router before b₀ log parts b w' := by
  rcases step_cases hstep with ⟨peer, times, c, r, _, _, hround, rfl⟩ | ⟨now, _, rfl⟩ |
    ⟨throughput, _, rfl⟩ | ⟨peer, rfl, rfl⟩ | ⟨peer, times, c, _, rfl⟩ | ⟨peer, c, rfl⟩
  · rcases round_reads hround with ⟨_, hframes, hend⟩ | ⟨msgType, data, _, hframes, hend⟩
    · exact ⟨_, _, _, h.unhandled hframes hend⟩
    · exact ⟨_, _, _, h.handled (m := ⟨peer, times, msgType, data⟩) hframes hend⟩
  · rw [periodicRound]
    split
    · obtain ⟨hholds, hkept, hpeers⟩ := flush_holds h.represents.holds
      refine ⟨log, parts, b.take, h.logged, ?_, h.starts, ?_, ?_, h.received, ?_, h.errors, ?_⟩
      · exact ⟨hkept.trans h.represents.running, h.represents.batched.take, hholds,
          hpeers.trans h.represents.peers⟩
      · rw [Batches.take_kept, h.kept]
      · exact h.taken.trans (Batches.take_taken b)
      · rw [Batches.take_kept, Batches.take_filled h.represents.room]
        exact h.processed
      · rw [Batches.take_filled h.represents.room]
        exact h.filled
    · exact ⟨log, parts, b, h.same rfl ⟨rfl, rfl⟩ fun _ => rfl⟩
  · exact ⟨log, parts, b, h.same rfl ⟨rfl, rfl⟩ fun counter => total_report throughput _ _ router counter⟩
  · have hpeer : router ≠ peer := by
      rintro rfl
      simp [disconnects] at hopen
    exact ⟨log, parts, b, h.same rfl ⟨rfl, rfl⟩ fun counter => total_removePeer hpeer _ counter⟩
  · exact ⟨_, parts, b, h.unhandled (handledFrames_lost c) (lose_settled peer times c w)⟩
  · exact ⟨log, parts, b, h.same rfl ⟨rfl, rfl⟩ fun _ => rfl⟩

/-! ## Whole runs -/

theorem since_run {labels : List Label} {w : World}
    (h₀ : Represents batchSize .empty (messages before.log) b₀ before.listener)
    (hopen : ∀ a ∈ labels, disconnects router a = false) (hrun : run step before labels = some w) :
    ∃ log parts b, Since batchSize router before b₀ log parts b w := by
  have hstart : Since batchSize router before b₀ [] [] b₀ before :=
    ⟨(List.append_nil _).symm, h₀, .nil, (List.append_nil _).symm, List.prefix_rfl, rfl,
      Nat.add_right_comm .., rfl, Nat.le_add_right _ _⟩
  have hstep : ∀ w a w', disconnects router a = false → step w a = some w' →
      (∃ log parts b, Since batchSize router before b₀ log parts b w) →
        ∃ log parts b, Since batchSize router before b₀ log parts b w' := by
    intro w a w' hopen hstep h
    obtain ⟨log, parts, b, h⟩ := h
    exact since_step hopen hstep h
  exact run_keeps hstep (throughout_of_forall hopen before) hrun ⟨_, _, _, hstart⟩

/-- What the statistics say, against what has been queued and written since. -/
structure RoutesCounted (batchSize : Nat) (router : IpAddress) (before w : World) (log : List Entry)
    (parts taken : List (List RouteUpdatesRow)) : Prop where
  logged : w.log = before.log ++ log
  starts : List.Forall₂ (fun part records => part <+: records) parts ((messages log).map recordsOf)
  inOrder : before.listener.batchWriter.batch.map copyRow ++ parts.flatten =
    taken.flatten ++ w.listener.batchWriter.batch.map copyRow
  routeUpdates : w.listener.database.routeUpdates =
    before.listener.database.routeUpdates ++ taken.flatMap copied
  received : w.listener.statsCollector.total router .received =
    before.listener.statsCollector.total router .received + (messages log).countP (isFrom router)
  processed : w.listener.statsCollector.total router .processed +
      (taken.countP fun batch => batch.length = capacity batchSize && batch.getLast?.any (isOf router)) =
    before.listener.statsCollector.total router .processed + parts.flatten.countP (isOf router)
  errors : w.listener.statsCollector.total router .errors =
    before.listener.statsCollector.total router .errors + log.countP (isErrorOf router)

/-- In every order in which the routers connect, are heard and are lost: until a connection of a router
next ends with its stream, what its statistics log and count grows by the messages it sends, by its errors,
and by its routes that are queued but for the last route of each full batch, however often the counters are
logged and set to zero. -/
theorem routes_counted (batchSize : Nat) (batchTimeout : Timestamp) {labels later : List Label}
    {before w : World} {router : IpAddress}
    (hbefore : run step (.started batchSize batchTimeout) labels = some before)
    (hopen : ∀ a ∈ later, disconnects router a = false) (hrun : run step before later = some w) :
    ∃ log parts taken, RoutesCounted batchSize router before w log parts taken := by
  obtain ⟨b₀, h₀⟩ := recorded_run hbefore
  obtain ⟨log, parts, b, h⟩ := since_run h₀ hopen hrun
  obtain ⟨taken, htaken⟩ := h.taken
  have hkept := h.kept
  rw [Batches.kept, Batches.kept, ← htaken, List.flatten_append, List.append_assoc, List.append_assoc,
    List.append_cancel_left_eq] at hkept
  have hprocessed := h.processed
  rw [h.kept, List.countP_append, Batches.filled, Batches.filled, ← htaken, List.countP_append] at hprocessed
  refine ⟨log, parts, taken, h.logged, h.starts, ?_, ?_, h.received, ?_, h.errors⟩
  · rw [h₀.holds.waiting, h.represents.holds.waiting, hkept]
  · rw [h.represents.holds.routeUpdates, h₀.holds.routeUpdates, ← htaken, List.flatMap_append,
      List.append_assoc]
  · omega

/-- A router sends a route, is reset in the middle of a message, and sends the route again, after a pass of
the report. -/
def lostAndBack : List Label :=
  [.connect routerA, .receive routerA (sampleStream ++ sampleStream.take 10), .round routerA (timesFrom 200),
    .reset routerA (timesFrom 300), .report fun processed => some (processed / 10), .connect routerA,
    .receive routerA sampleStream, .round routerA (timesFrom 400), .wake 900]

theorem routes_counted_one :
    let before := (run step (.started 1 500)
      [.connect routerB, .receive routerB sampleStream, .round routerB (timesFrom 100)]).get
        (by decide +kernel)
    let w := (run step before lostAndBack).get (by decide +kernel)
    ∃ log parts taken, RoutesCounted 1 routerA before w log parts taken :=
  routes_counted 1 500 (Option.some_get _).symm (by decide) (Option.some_get _).symm

/-- `SELECT COUNT(*)` over `route_updates`, of one router. -/
def getRouteCountByPeer (d : RunListener.Database) (peerIp : IpAddress) : Nat :=
  d.routeUpdates.countP (isOf peerIp)

/-- When the records fit their columns: until a connection of a router next ends with its stream,
`route_updates` gains as many of its routes as the statistics have logged and count as processed, or more,
but not more than it has had errors. This is what the query counts after the last flush, whenever that is. -/
theorem route_count_by_peer (batchSize : Nat) (batchTimeout : Timestamp) {labels later : List Label}
    {before w : World} {router : IpAddress}
    (hbefore : run step (.started batchSize batchTimeout) labels = some before)
    (hopen : ∀ a ∈ later, disconnects router a = false) (hrun : run step before later = some w)
    (hfits : ∀ r ∈ rowsOf (messages w.log), fitsColumns r = true) :
    let stored (w : World) := getRouteCountByPeer w.listener.stop router
    let stats (w : World) := w.listener.statsCollector.total router
    stored before + stats w .processed ≤ stored w + stats before .processed ∧
      stored w + stats before .processed + stats before .errors ≤
        stored before + stats w .processed + stats w .errors := by
  obtain ⟨b₀, h₀⟩ := recorded_run hbefore
  obtain ⟨log, parts, b, h⟩ := since_run h₀ hopen hrun
  obtain ⟨taken, htaken⟩ := h.taken
  have hfits₀ : ∀ r ∈ rowsOf (messages before.log), fitsColumns r = true := by
    intro r hr
    apply hfits
    rw [h.logged, messages, List.filterMap_append, rowsOf, List.flatMap_append]
    exact List.mem_append_left _ hr
  have hprocessed := h.processed
  have hfilled := h.filled
  have herrors := h.errors
  have hgrown : b₀.filled (capacity batchSize) (isOf router) ≤ b.filled (capacity batchSize) (isOf router) := by
    rw [Batches.filled, Batches.filled, ← htaken, List.countP_append]
    exact Nat.le_add_right _ _
  have hstored₀ : before.listener.stop.routeUpdates = b₀.kept := (h₀.stored hfits₀).2
  have hstored : w.listener.stop.routeUpdates = b.kept := (h.represents.stored hfits).2
  simp only [getRouteCountByPeer, hstored₀, hstored]
  omega

theorem route_count_by_peer_one :
    let before := (run step (.started 1 501)
      [.connect routerB, .receive routerB sampleStream, .round routerB (timesFrom 100)]).get
        (by decide +kernel)
    let w := (run step before lostAndBack).get (by decide +kernel)
    let stored (w : World) := getRouteCountByPeer w.listener.stop routerA
    let stats (w : World) := w.listener.statsCollector.total routerA
    stored before + stats w .processed ≤ stored w + stats before .processed ∧
      stored w + stats before .processed + stats before .errors ≤
        stored before + stats w .processed + stats w .errors :=
  route_count_by_peer 1 501 (Option.some_get _).symm (by decide) (Option.some_get _).symm (by decide +kernel)

end Pybmpmon.Listener.Counted
