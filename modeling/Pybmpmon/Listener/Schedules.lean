import Pybmpmon.Database.Timeless
import Pybmpmon.Listener.Statements

/-!
# The order of different routers' messages

What the tables hold of a router depends on the router's own messages. So two runs in
which every router sends the same bytes leave the same of each router in `bmp_peers` and
`peer_events`, up to the times: in whichever order the messages are handled, and whatever
becomes of the routes. Of `route_updates` this holds while no message has two routes.
-/
namespace Pybmpmon.Listener.Schedules

open Pybmpmon.Lib.ByteString Pybmpmon.Lib.Transition Pybmpmon.Python Pybmpmon.Models.Route
open Pybmpmon.Protocol.Bmp Pybmpmon.Protocol.BmpParser Pybmpmon.Protocol.BgpParser
open Pybmpmon.Database.RouteState Pybmpmon.Database.Timeless
open Pybmpmon.Database.BatchWriter Pybmpmon.Database.BmpPeers
open Pybmpmon.Listener.RouteMonitoring Pybmpmon.Listener.Connection Pybmpmon.Listener.Framing
open Pybmpmon.Listener.RunListener Pybmpmon.Listener.Ledger Pybmpmon.Listener.Statements
open Pybmpmon.Listener.Records (record timeless routerA routerB)
open Pybmpmon.Listener.PeerActivity (handlePeerUp handlePeerDown)

/-! ## Tables apart from their times -/

def peerTimeless (r : BMPPeer) : BMPPeer := { r with firstSeen := 0, lastSeen := 0 }

def eventTimeless (e : PeerEvent) : PeerEvent := { e with time := 0 }

def peersTimeless (t : PeerTables) : PeerTables :=
  ⟨fun router => (t.bmpPeers router).map peerTimeless, t.peerEvents.map eventTimeless⟩

def databaseTimeless (d : RunListener.Database) : RunListener.Database :=
  ⟨d.routeUpdates.map timeless, d.routeState.map rowTimeless, peersTimeless d.peerTables⟩

/-- The message when every clock shows zero. -/
def untimed (m : Message) : Message := { m with times := ⟨0, fun _ => 0, fun _ => 0⟩ }

theorem recordsOf_untimed (m : Message) : recordsOf (untimed m) = (recordsOf m).map timeless := by
  obtain ⟨router, times, msgType, data⟩ := m
  cases msgType with
  | routeMonitoring => exact Records.routesOf_untimed times.clock data router
  | _ => rfl

theorem rowsOf_untimed (ms : List Message) : rowsOf (ms.map untimed) = (rowsOf ms).map timeless := by
  rw [rowsOf, rowsOf, List.flatMap_map, List.map_flatMap]
  exact congrArg (fun f => ms.flatMap f) (funext recordsOf_untimed)

theorem updateBmpPeer_untimed {set set' : BMPPeer → BMPPeer} (router : IpAddress) (t : PeerTables)
    (h : ∀ r, peerTimeless (set r) = set' (peerTimeless r)) :
    (peersTimeless t).updateBmpPeer router set' = peersTimeless (t.updateBmpPeer router set) := by
  unfold peersTimeless PeerTables.updateBmpPeer
  congr 1
  funext x
  by_cases hx : x = router
  · subst hx
    rw [Function.update_self]
    simp only [Function.update_self, Option.map_map]
    congr 1
    funext r
    exact (h r).symm
  · rw [Function.update_of_ne hx]
    simp only [Function.update_of_ne hx]

theorem insertPeerEvent_untimed (event : PeerEvent) (t : PeerTables) :
    (peersTimeless t).insertPeerEvent (eventTimeless event) = peersTimeless (t.insertPeerEvent event) := by
  simp [peersTimeless, PeerTables.insertPeerEvent]

theorem upsertBmpPeer_untimed (peer : BMPPeer) (t : PeerTables) :
    (peersTimeless t).upsertBmpPeer (peerTimeless peer) = peersTimeless (t.upsertBmpPeer peer) := by
  unfold peersTimeless PeerTables.upsertBmpPeer
  dsimp only
  congr 1
  funext x
  by_cases hx : x = peer.peerIp
  · subst hx
    simp only [peerTimeless, Function.update_self]
    cases t.bmpPeers peer.peerIp <;> rfl
  · have hx' : x ≠ (peerTimeless peer).peerIp := hx
    rw [Function.update_of_ne hx']
    simp only [Function.update_of_ne hx]

theorem peersAfter_untimed (t : PeerTables) (m : Message) :
    peersAfter (peersTimeless t) (untimed m) = peersTimeless (peersAfter t m) := by
  obtain ⟨router, times, msgType, data⟩ := m
  have hseen : (peersTimeless t).updatePeerLastSeen router 0 =
      peersTimeless (t.updatePeerLastSeen router times.lastSeen) :=
    updateBmpPeer_untimed router t fun _ => rfl
  cases msgType with
  | peerUpNotification =>
    simp only [peersAfter, untimed, hseen, handlePeerUp]
    cases parsePeerUpMessage data with
    | error e => rfl
    | ok parsed =>
      simp only
      rw [← insertPeerEvent_untimed, ← upsertBmpPeer_untimed]
      rfl
  | peerDownNotification =>
    simp only [peersAfter, untimed, hseen, handlePeerDown]
    cases parsePeerDownMessage data with
    | error e => rfl
    | ok parsed =>
      simp only
      rw [← insertPeerEvent_untimed]
      congr 1
      exact updateBmpPeer_untimed router _ fun _ => rfl
  | _ => exact hseen

theorem foldl_peersAfter_untimed (ms : List Message) (t : PeerTables) :
    (ms.map untimed).foldl peersAfter (peersTimeless t) = peersTimeless (ms.foldl peersAfter t) := by
  induction ms generalizing t with
  | nil => rfl
  | cons m ms ih => rw [List.map_cons, List.foldl_cons, List.foldl_cons, peersAfter_untimed, ih]

theorem foldl_empty_untimed (ms : List Message) :
    (ms.map untimed).foldl peersAfter .empty = peersTimeless (ms.foldl peersAfter .empty) :=
  foldl_peersAfter_untimed ms .empty

/-! ## The messages of one router -/

theorem rowsOf_router (router : IpAddress) (ms : List Message) :
    (rowsOf ms).filter (fun r => r.bmpPeerIp = router) = rowsOf (messagesFrom router ms) := by
  refine Lib.Owners.filter_flatMap (fun m r hr => ?_) router ms
  obtain ⟨route, hroute, rfl⟩ := List.mem_map.mp hr
  obtain ⟨router', times, msgType, data⟩ := m
  cases msgType with
  | routeMonitoring => exact Records.routesOf_peer hroute
  | _ => cases hroute

/-- The tables of the routers hold the same of each: its row, and its events in their order. -/
structure PeersAgree (t t' : PeerTables) : Prop where
  bmpPeers : t.bmpPeers = t'.bmpPeers
  peerEvents : ∀ router, t.peerEvents.filter (fun e => e.peerIp = router) =
    t'.peerEvents.filter fun e => e.peerIp = router

/-- The tables hold the same of each router: also its records in their order. -/
structure Agree (d d' : RunListener.Database) : Prop where
  routeUpdates : ∀ router, d.routeUpdates.filter (fun r => r.bmpPeerIp = router) =
    d'.routeUpdates.filter fun r => r.bmpPeerIp = router
  routeState : d.routeState = d'.routeState
  peers : PeersAgree d.peerTables d'.peerTables

/-- Messages in two orders that are the same for each router say the same of the routers. -/
theorem peers_of_routers {ms ms' : List Message}
    (h : ∀ router, messagesFrom router ms = messagesFrom router ms') :
    PeersAgree (ms.foldl peersAfter .empty) (ms'.foldl peersAfter .empty) where
  bmpPeers := funext fun router => congrArg Prod.fst (peerPart_router (h router) .empty)
  peerEvents := fun router => congrArg Prod.snd (peerPart_router (h router) .empty)

/-! ## What the routers send -/

theorem readMessage_shrinks {d rest : Bytes} {m : Option (BMPMessageType × Bytes)}
    (h : readMessage d = some (m, rest)) : rest.length < d.length := by
  rw [readMessage] at h
  by_cases hlen : d.length < BMP_HEADER_SIZE
  · rw [if_pos hlen] at h
    cases h
  rw [if_neg hlen] at h
  have hdrop : (d.drop BMP_HEADER_SIZE).length < d.length := by
    rw [List.length_drop]
    simp only [BMP_HEADER_SIZE] at hlen ⊢
    omega
  split at h
  · cases h
    exact hdrop
  · simp only at h
    split at h
    · cases h
      exact Nat.lt_of_le_of_lt (Nat.zero_le _) hdrop
    · cases h
      exact Nat.lt_of_le_of_lt (by rw [List.length_drop]; exact Nat.sub_le _ _) hdrop

/-- The messages a connection finds in a stream. -/
def messagesIn (d : Bytes) : List (BMPMessageType × Bytes) :=
  match _h : readMessage d with
  | none => []
  | some (m, rest) => m.toList ++ messagesIn rest
termination_by d.length
decreasing_by exact readMessage_shrinks _h

theorem messagesIn_end {d : Bytes} (h : readMessage d = none) : messagesIn d = [] := by
  rw [messagesIn]
  split
  · rfl
  · rename_i hsome
    rw [h] at hsome
    cases hsome

theorem messagesIn_next {d rest : Bytes} {m : Option (BMPMessageType × Bytes)}
    (h : readMessage d = some (m, rest)) : messagesIn d = m.toList ++ messagesIn rest := by
  rw [messagesIn]
  split
  · rename_i hnone
    rw [h] at hnone
    cases hnone
  · rename_i hsome
    rw [h] at hsome
    cases hsome
    rfl

/-- What comes later is no part of a message that has arrived. -/
theorem readMessage_append {c : Inbound} (hready : c.ready = true) {m : Option (BMPMessageType × Bytes)}
    {rest future : Bytes} (hfuture : c.ended = true → future = [])
    (h : readMessage c.reader.rest = some (m, rest)) :
    readMessage (c.reader.rest ++ future) = some (m, rest ++ future) := by
  cases hended : c.ended with
  | true => rw [hfuture hended, List.append_nil, List.append_nil, h]
  | false =>
    rw [Inbound.ready, hended, Bool.false_or, Bool.and_eq_true, decide_eq_true_iff] at hready
    obtain ⟨hlen, hbody⟩ := hready
    have hlonger : ¬(c.reader.rest ++ future).length < BMP_HEADER_SIZE := by
      rw [List.length_append]
      omega
    rw [readMessage, if_neg (Nat.not_lt.mpr hlen)] at h
    rw [readMessage, if_neg hlonger, List.take_append_of_le_length hlen, List.drop_append_of_le_length hlen]
    cases hparse : parseBmpHeader (c.reader.rest.take BMP_HEADER_SIZE) with
    | error e =>
      rw [hparse] at h
      cases h
      rfl
    | ok header =>
      rw [hparse] at h hbody
      have hfits := of_decide_eq_true hbody
      have hmore : ¬(c.reader.rest.drop BMP_HEADER_SIZE ++ future).length <
          header.length - BMP_HEADER_SIZE := by
        rw [List.length_append]
        omega
      simp only [if_neg (Nat.not_lt.mpr hfits), Option.some_inj, Prod.mk.injEq] at h
      simp only [if_neg hmore]
      rw [List.take_append_of_le_length hfits, List.drop_append_of_le_length hfits, h.1, h.2]

/-- The bytes of the connections of a router that have ended, and of the one that has not. -/
structure Sent where
  closed : List Bytes
  current : Option Bytes
  deriving DecidableEq, Repr

def Sent.after (router : IpAddress) (s : Sent) : Label → Sent
  | .connect peer => if peer = router then { s with current := some [] } else s
  | .receive peer segment =>
      if peer = router then { s with current := s.current.map (· ++ segment) } else s
  | .disconnect peer => if peer = router then ⟨s.closed ++ s.current.toList, none⟩ else s
  | .reset peer _ => if peer = router then ⟨s.closed ++ s.current.toList, none⟩ else s
  | .finish _ | .round _ _ | .wake _ | .report _ => s

/-- What a router sends over its connections, one after the other. -/
def sentBy (router : IpAddress) (labels : List Label) : Sent := labels.foldl (Sent.after router) ⟨[], none⟩

def sentMessage (router : IpAddress) (m : BMPMessageType × Bytes) : Message :=
  untimed ⟨router, ⟨0, fun _ => 0, fun _ => 0⟩, m.1, m.2⟩

def sentMessages (router : IpAddress) (streams : List Bytes) : List Message :=
  (streams.flatMap messagesIn).map (sentMessage router)

theorem sentMessages_concat (router : IpAddress) (streams : List Bytes) (stream : Bytes) :
    sentMessages router (streams ++ [stream]) =
      sentMessages router streams ++ (messagesIn stream).map (sentMessage router) := by
  rw [sentMessages, List.flatMap_append, List.map_append, List.flatMap_singleton]
  rfl

/-- The messages of a router that have been handled. -/
def handledFrom (router : IpAddress) (w : World) : List Message :=
  messagesFrom router ((messages w.log).map untimed)

/-- What is in the streams of a router has been handled or is unread, whatever comes after what has
arrived. -/
def Tracked (router : IpAddress) (s : Sent) (w : World) : Prop :=
  match w.connections router with
  | none => s.current = none ∧ handledFrom router w = sentMessages router s.closed
  | some c => ∃ current, s.current = some current ∧ ∀ future, (c.ended = true → future = []) →
      handledFrom router w ++ (messagesIn (c.reader.rest ++ future)).map (sentMessage router) =
        sentMessages router (s.closed ++ [current ++ future])

theorem tracked_closed {router : IpAddress} {s : Sent} {w : World} (hnone : w.connections router = none) :
    Tracked router s w ↔ s.current = none ∧ handledFrom router w = sentMessages router s.closed := by
  rw [Tracked, hnone]

theorem tracked_open {router : IpAddress} {s : Sent} {w : World} {c : Inbound}
    (hsome : w.connections router = some c) :
    Tracked router s w ↔ ∃ current, s.current = some current ∧ ∀ future, (c.ended = true → future = []) →
      handledFrom router w ++ (messagesIn (c.reader.rest ++ future)).map (sentMessage router) =
        sentMessages router (s.closed ++ [current ++ future]) := by
  rw [Tracked, hsome]

/-- What does not concern a router. -/
theorem Tracked.same {router : IpAddress} {s : Sent} {w w' : World} (h : Tracked router s w)
    (hconnection : w'.connections router = w.connections router)
    (hhandled : handledFrom router w' = handledFrom router w) : Tracked router s w' := by
  rw [Tracked, hconnection, hhandled]
  exact h

theorem handledFrom_round (router : IpAddress) {w w' : World} {peer : IpAddress} {times : Times}
    {events : List Event} (hlog : w'.log = w.log ++ events.map fun event => ⟨peer, times, event⟩) :
    handledFrom router w' = handledFrom router w ++
      if peer = router then (handledFrames events).map (sentMessage router) else [] := by
  rw [handledFrom, hlog, messages_round, List.map_append, messagesFrom, List.filter_append, ← messagesFrom,
    ← handledFrom, List.map_map]
  congr 1
  by_cases h : peer = router
  · subst h
    rw [if_pos rfl, List.filter_eq_self.mpr]
    · rfl
    · intro m hm
      obtain ⟨x, _, rfl⟩ := List.mem_map.mp hm
      exact decide_eq_true rfl
  · rw [if_neg h, List.filter_eq_nil_iff]
    intro m hm
    obtain ⟨x, _, rfl⟩ := List.mem_map.mp hm
    rw [decide_eq_true_iff]
    exact h

def isReset : Label → Bool
  | .reset _ _ => true
  | _ => false

theorem tracked_connect {router : IpAddress} {s : Sent} {w : World} (hnone : w.connections router = none)
    (h : Tracked router s w) :
    Tracked router { s with current := some [] } (w.setConnection router (some .new)) := by
  obtain ⟨_, hhandled⟩ := (tracked_closed hnone).mp h
  rw [tracked_open (World.setConnection_own router _ w)]
  refine ⟨[], rfl, fun future _ => ?_⟩
  rw [List.nil_append, sentMessages_concat, ← hhandled]
  rfl

theorem tracked_receive {router : IpAddress} {s : Sent} {w : World} {c : Inbound} {segment : Bytes}
    (hc : w.connections router = some c) (hended : ¬c.ended = true) (h : Tracked router s w) :
    Tracked router { s with current := s.current.map (· ++ segment) }
      (w.setConnection router (some (c.receive segment))) := by
  obtain ⟨current, hcurrent, hfuture⟩ := (tracked_open hc).mp h
  rw [tracked_open (World.setConnection_own router _ w)]
  refine ⟨current ++ segment, by rw [hcurrent, Option.map_some], fun future _ => ?_⟩
  have hlater := hfuture (segment ++ future) fun h => absurd h hended
  rw [← List.append_assoc, ← List.append_assoc] at hlater
  exact hlater

theorem tracked_finish {router : IpAddress} {s : Sent} {w : World} {c : Inbound}
    (hc : w.connections router = some c) (hended : ¬c.ended = true) (h : Tracked router s w) :
    Tracked router s (w.setConnection router (some { c with ended := true })) := by
  obtain ⟨current, hcurrent, hfuture⟩ := (tracked_open hc).mp h
  rw [tracked_open (World.setConnection_own router _ w)]
  exact ⟨current, hcurrent, fun future _ => hfuture future fun h => absurd h hended⟩

theorem tracked_round {router : IpAddress} {s : Sent} {w : World} {c : Inbound} {times : Times}
    {r : ConnectionState BMPListener} (hc : w.connections router = some c) (hready : c.ready = true)
    (hround : Connection.round (services times) router ⟨c.reader, [], w.listener⟩ = some r)
    (h : Tracked router s w) :
    Tracked router s { w.setConnection router (some { c with reader := r.reader }) with
      listener := r.services
      log := w.log ++ r.events.map fun event => ⟨router, times, event⟩ } := by
  obtain ⟨current, hcurrent, hfuture⟩ := (tracked_open hc).mp h
  rw [tracked_open (Function.update_self ..)]
  refine ⟨current, hcurrent, fun future hend => ?_⟩
  rw [← hfuture future hend, handledFrom_round router rfl, if_pos rfl, List.append_assoc]
  congr 1
  rcases round_reads hround with ⟨hread, hframes, _⟩ | ⟨msgType, data, hread, hframes, _⟩
  · rw [hframes, messagesIn_next (readMessage_append hready hend hread)]
    simp
  · rw [hframes, messagesIn_next (readMessage_append hready hend hread)]
    simp

/-- A connection that has nothing more to read. -/
theorem tracked_disconnect {router : IpAddress} {s : Sent} {w : World} {c : Inbound}
    (hc : w.connections router = some c) (hshort : c.reader.rest.length < BMP_HEADER_SIZE)
    (h : Tracked router s w) : Tracked router ⟨s.closed ++ s.current.toList, none⟩ (w.close router) := by
  obtain ⟨current, hcurrent, hfuture⟩ := (tracked_open hc).mp h
  have hnothing : messagesIn c.reader.rest = [] := by
    refine messagesIn_end ?_
    rw [readMessage, if_pos hshort]
  have hall := hfuture [] fun _ => rfl
  rw [List.append_nil, List.append_nil, hnothing, List.map_nil, List.append_nil] at hall
  rw [tracked_closed (Function.update_self ..), hcurrent]
  exact ⟨rfl, hall⟩

/-- The step lemma. What is done for another router does not concern this one. -/
theorem tracked_step {router : IpAddress} {s : Sent} {w w' : World} {a : Label} (ha : isReset a = false)
    (hstep : step w a = some w') (h : Tracked router s w) : Tracked router (s.after router a) w' := by
  cases a with
  | connect peer =>
    rw [step] at hstep
    split at hstep
    · cases hstep
    · rename_i hnone
      rw [Option.not_isSome_iff_eq_none] at hnone
      cases hstep
      rw [Sent.after]
      split
      case isTrue hpeer =>
        subst hpeer
        exact tracked_connect hnone h
      case isFalse hpeer => exact h.same (World.setConnection_other hpeer _ w) rfl
  | receive peer segment =>
    obtain ⟨c, hc, hstep⟩ := Option.bind_eq_some_iff.mp hstep
    split at hstep
    · cases hstep
    · rename_i hended
      cases hstep
      rw [Sent.after]
      split
      case isTrue hpeer =>
        subst hpeer
        exact tracked_receive hc hended h
      case isFalse hpeer => exact h.same (World.setConnection_other hpeer _ w) rfl
  | finish peer =>
    obtain ⟨c, hc, hstep⟩ := Option.bind_eq_some_iff.mp hstep
    split at hstep
    · cases hstep
    · rename_i hended
      cases hstep
      by_cases hpeer : peer = router
      · subst hpeer
        exact tracked_finish hc hended h
      · exact h.same (World.setConnection_other hpeer _ w) rfl
  | round peer times =>
    obtain ⟨c, hc, hstep⟩ := Option.bind_eq_some_iff.mp hstep
    split at hstep
    · rename_i hready
      obtain ⟨r, hround, rfl⟩ := Option.map_eq_some_iff.mp hstep
      by_cases hpeer : peer = router
      · subst hpeer
        exact tracked_round hc hready hround h
      · refine h.same (Function.update_of_ne (Ne.symm hpeer) ..) ?_
        rw [handledFrom_round router rfl, if_neg hpeer, List.append_nil]
    · cases hstep
  | disconnect peer =>
    obtain ⟨c, hc, hstep⟩ := Option.bind_eq_some_iff.mp hstep
    split at hstep
    · rename_i hend
      rw [Bool.and_eq_true, decide_eq_true_iff] at hend
      cases hstep
      rw [Sent.after]
      split
      case isTrue hpeer =>
        subst hpeer
        exact tracked_disconnect hc hend.2 h
      case isFalse hpeer => exact h.same (Function.update_of_ne (Ne.symm hpeer) ..) rfl
    · cases hstep
  | reset peer times => cases ha
  | wake now =>
    cases hstep
    exact h.same rfl rfl
  | report throughput =>
    cases hstep
    exact h.same rfl rfl

theorem tracked_run {router : IpAddress} {labels : List Label} (hlabels : ∀ a ∈ labels, isReset a = false)
    {s : Sent} {w w' : World} (hrun : run step w labels = some w') (h : Tracked router s w) :
    Tracked router (labels.foldl (Sent.after router) s) w' := by
  induction labels generalizing s w with
  | nil =>
    cases hrun
    exact h
  | cons a labels ih =>
    obtain ⟨t, hstep, hrun⟩ := run_cons_some.mp hrun
    exact ih (fun b hb => hlabels b (List.mem_cons_of_mem a hb)) hrun
      (tracked_step (hlabels a List.mem_cons_self) hstep h)

/-- The routers that connect. -/
def routersOf (labels : List Label) : List IpAddress :=
  labels.filterMap fun
    | .connect router => some router
    | _ => none

/-- A step other than its connecting leaves a router without a connection. -/
theorem unconnected_step {w w' : World} {a : Label} (hstep : step w a = some w') {router : IpAddress}
    (ha : a ≠ .connect router) (hnone : w.connections router = none) : w'.connections router = none := by
  have hother : ∀ {peer : IpAddress} {c : Option Inbound}, peer ≠ router →
      Function.update w.connections peer c router = none := fun h => by
    rw [Function.update_of_ne (Ne.symm h), hnone]
  have hconnected : ∀ {peer : IpAddress} {c : Inbound}, w.connections peer = some c → peer ≠ router := by
    rintro peer c hc rfl
    rw [hnone] at hc
    cases hc
  cases a with
  | connect peer =>
    rw [step] at hstep
    split at hstep
    · cases hstep
    · cases hstep
      exact hother fun h => ha (by rw [h])
  | receive peer segment =>
    obtain ⟨c, hc, hstep⟩ := Option.bind_eq_some_iff.mp hstep
    split at hstep
    · cases hstep
    · cases hstep
      exact hother (hconnected hc)
  | finish peer =>
    obtain ⟨c, hc, hstep⟩ := Option.bind_eq_some_iff.mp hstep
    split at hstep
    · cases hstep
    · cases hstep
      exact hother (hconnected hc)
  | round peer times =>
    obtain ⟨c, hc, hstep⟩ := Option.bind_eq_some_iff.mp hstep
    split at hstep
    · obtain ⟨r, _, rfl⟩ := Option.map_eq_some_iff.mp hstep
      exact hother (hconnected hc)
    · cases hstep
  | disconnect peer =>
    obtain ⟨c, hc, hstep⟩ := Option.bind_eq_some_iff.mp hstep
    split at hstep
    · cases hstep
      exact hother (hconnected hc)
    · cases hstep
  | reset peer times =>
    obtain ⟨c, hc, rfl⟩ := Option.map_eq_some_iff.mp hstep
    exact hother (hconnected hc)
  | wake now =>
    cases hstep
    exact hnone
  | report throughput =>
    cases hstep
    exact hnone

theorem unconnected_run {labels : List Label} {w w' : World} (hrun : run step w labels = some w')
    {router : IpAddress} (hlabels : router ∉ routersOf labels) (hnone : w.connections router = none) :
    w'.connections router = none := by
  have hnever : ∀ a ∈ labels, a ≠ .connect router := by
    rintro a ha rfl
    exact hlabels (List.mem_filterMap.mpr ⟨_, ha, rfl⟩)
  exact run_keeps (fun w a w' ha hstep => unconnected_step hstep ha) (throughout_of_forall hnever w) hrun
    hnone

/-- A run in which every connection that was made has ended with its stream. -/
structure AllEnded (labels : List Label) (w : World) : Prop where
  closed : ∀ router ∈ routersOf labels, w.connections router = none
  noReset : ∀ a ∈ labels, isReset a = false

/-- When all connections have ended, every message that was sent has been handled. -/
theorem handled_all {batchSize : Nat} {batchTimeout : Timestamp} {labels : List Label} {w : World}
    (hrun : run step (.started batchSize batchTimeout) labels = some w) (hended : AllEnded labels w)
    (router : IpAddress) :
    messagesFrom router ((messages w.log).map untimed) = sentMessages router (sentBy router labels).closed := by
  have hnone : w.connections router = none := by
    by_cases hlabels : router ∈ routersOf labels
    · exact hended.closed router hlabels
    · exact unconnected_run hrun hlabels rfl
  have hstart : Tracked router ⟨[], none⟩ (.started batchSize batchTimeout) := ⟨rfl, rfl⟩
  exact ((tracked_closed hnone).mp (tracked_run hended.noReset hrun hstart)).2

/-- Two runs in which each router sends the same have handled the same messages of each router. -/
theorem handled_same {batchSize batchSize' : Nat} {batchTimeout batchTimeout' : Timestamp}
    {labels labels' : List Label} {w w' : World}
    (hrun : run step (.started batchSize batchTimeout) labels = some w)
    (hrun' : run step (.started batchSize' batchTimeout') labels' = some w')
    (hended : AllEnded labels w) (hended' : AllEnded labels' w')
    (hsent : ∀ router, (sentBy router labels).closed = (sentBy router labels').closed) (router : IpAddress) :
    messagesFrom router ((messages w.log).map untimed) =
      messagesFrom router ((messages w'.log).map untimed) := by
  rw [handled_all hrun hended, handled_all hrun' hended', hsent]

/-- A message of the one order is a message of the other, up to its times. -/
theorem mem_of_routers {ms ms' : List Message}
    (h : ∀ router, messagesFrom router (ms.map untimed) = messagesFrom router (ms'.map untimed))
    {m : Message} (hm : m ∈ ms') : ∃ m₀ ∈ ms, untimed m₀ = untimed m := by
  have hmem : untimed m ∈ messagesFrom m.router (ms'.map untimed) :=
    List.mem_filter.mpr ⟨List.mem_map_of_mem hm, decide_eq_true rfl⟩
  rw [← h] at hmem
  exact List.mem_map.mp (List.mem_of_mem_filter hmem)

theorem single_of_routers {ms ms' : List Message}
    (h : ∀ router, messagesFrom router (ms.map untimed) = messagesFrom router (ms'.map untimed))
    (hsingle : Single ms) : Single ms' := by
  have hrecords : ∀ m ∈ ms', ∃ m₀ ∈ ms, (recordsOf m₀).map timeless = (recordsOf m).map timeless := by
    intro m hm
    obtain ⟨m₀, hm₀, hsame⟩ := mem_of_routers h hm
    exact ⟨m₀, hm₀, by rw [← recordsOf_untimed, hsame, recordsOf_untimed]⟩
  constructor
  · intro m hm
    obtain ⟨m₀, hm₀, hsame⟩ := hrecords m hm
    have hlength := congrArg List.length hsame
    rw [List.length_map, List.length_map] at hlength
    rw [← hlength]
    exact hsingle.one m₀ hm₀
  · intro r hr
    obtain ⟨m, hm, hr⟩ := List.mem_flatMap.mp hr
    obtain ⟨m₀, hm₀, hsame⟩ := hrecords m hm
    have hmem : timeless r ∈ (recordsOf m₀).map timeless := by
      rw [hsame]
      exact List.mem_map_of_mem hr
    obtain ⟨r₀, hr₀, htimeless⟩ := List.mem_map.mp hmem
    rw [← Records.fitsColumns_timeless, ← htimeless]
    exact hsingle.fits r₀ (List.mem_flatMap.mpr ⟨m₀, hm₀, hr₀⟩)

/-- The same routes in another order, the one in other segments. -/
def oneAtATime : List Label :=
  [.connect routerB, .receive routerB sampleStream, .round routerB (timesFrom 100), .connect routerA,
    .finish routerB, .disconnect routerB, .receive routerA (sampleStream.take 3),
    .receive routerA (sampleStream.drop 3), .finish routerA, .round routerA (timesFrom 900),
    .disconnect routerA]

theorem sent_same (router : IpAddress) :
    (sentBy router wokenBetween).closed = (sentBy router oneAtATime).closed := by
  by_cases hA : routerA = router
  · subst hA
    decide +kernel
  · by_cases hB : routerB = router
    · subst hB
      decide +kernel
    · simp only [sentBy, wokenBetween, oneAtATime, List.foldl_cons, List.foldl_nil, Sent.after, if_neg hA, if_neg hB]

section TwoRuns

variable {batchSize batchSize' : Nat} {batchTimeout batchTimeout' : Timestamp}
  {labels labels' : List Label} {w w' : World}

/-- Two runs in which each router sends the same over its connections, all of which have ended: with
any sizes of the batch and any times, in whatever segments the bytes arrive, in any order of the arrivals,
rounds, connections and flushes, and whatever flushes fail, the tables hold the same row of each router
and the same events in their order, up to the times. -/
theorem peers_agree (hrun : run step (.started batchSize batchTimeout) labels = some w)
    (hrun' : run step (.started batchSize' batchTimeout') labels' = some w')
    (hended : AllEnded labels w) (hended' : AllEnded labels' w')
    (hsent : ∀ router, (sentBy router labels).closed = (sentBy router labels').closed) :
    PeersAgree (peersTimeless w.listener.database.peerTables)
      (peersTimeless w'.listener.database.peerTables) := by
  obtain ⟨b, h⟩ := recorded_run hrun
  obtain ⟨b', h'⟩ := recorded_run hrun'
  have hpeers : w.listener.database.peerTables = (messages w.log).foldl peersAfter .empty := h.peers
  have hpeers' : w'.listener.database.peerTables = (messages w'.log).foldl peersAfter .empty := h'.peers
  rw [hpeers, hpeers', ← foldl_empty_untimed, ← foldl_empty_untimed]
  exact peers_of_routers (handled_same hrun hrun' hended hended' hsent)

theorem peers_agree_two :
    let w := (run step (.started 99 500) wokenBetween).get (by decide +kernel)
    let w' := (run step (.started 1 501) oneAtATime).get (by decide +kernel)
    PeersAgree (peersTimeless w.listener.database.peerTables)
      (peersTimeless w'.listener.database.peerTables) :=
  peers_agree (Option.some_get _).symm (Option.some_get _).symm ⟨by decide +kernel, by decide⟩
    ⟨by decide +kernel, by decide⟩ sent_same

/-- When besides no message has two routes and the records fit their columns, the last flush leaves
the same of each router in all the tables. -/
theorem schedules_agree (hrun : run step (.started batchSize batchTimeout) labels = some w)
    (hrun' : run step (.started batchSize' batchTimeout') labels' = some w')
    (hended : AllEnded labels w) (hended' : AllEnded labels' w')
    (hsent : ∀ router, (sentBy router labels).closed = (sentBy router labels').closed)
    (hsingle : Single (messages w.log)) :
    Agree (databaseTimeless w.listener.stop) (databaseTimeless w'.listener.stop) := by
  have hsame := handled_same hrun hrun' hended hended' hsent
  obtain ⟨b, h⟩ := recorded_run hrun
  obtain ⟨b', h'⟩ := recorded_run hrun'
  rw [(h.single hsingle).2, (h'.single (single_of_routers hsame hsingle)).2, ledgerOn_empty, ledgerOn_empty]
  refine ⟨fun router => ?_, rfl, ?_⟩
  · simp only [ledger, databaseTimeless]
    rw [← rowsOf_untimed, ← rowsOf_untimed, rowsOf_router, rowsOf_router, hsame]
  · simp only [ledger, databaseTimeless]
    rw [← foldl_empty_untimed, ← foldl_empty_untimed]
    exact peers_of_routers hsame

theorem schedules_agree_two :
    let w := (run step (.started 100 500) wokenBetween).get (by decide +kernel)
    let w' := (run step (.started 1 500) oneAtATime).get (by decide +kernel)
    Agree (databaseTimeless w.listener.stop) (databaseTimeless w'.listener.stop) :=
  schedules_agree (Option.some_get _).symm (Option.some_get _).symm ⟨by decide +kernel, by decide⟩
    ⟨by decide +kernel, by decide⟩ sent_same ⟨by decide +kernel, by decide +kernel⟩

end TwoRuns

end Pybmpmon.Listener.Schedules
