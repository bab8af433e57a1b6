import Pybmpmon.Lib.Owners
import Pybmpmon.Listener.Ledger

/-!
# The statements of the handlers

What a message makes of the tables of the routers is done by single statements, and other
connections run while a handler waits for one. Each statement is about one router: its row
and its events.
-/
namespace Pybmpmon.Listener.Statements

open Pybmpmon.Lib.Batching Pybmpmon.Lib.Owners Pybmpmon.Lib.Transition
open Pybmpmon.Python Pybmpmon.Models.Route
open Pybmpmon.Protocol.Bmp Pybmpmon.Protocol.BmpParser Pybmpmon.Database.BmpPeers
open Pybmpmon.Listener.Ledger
open Pybmpmon.Listener.Records (routerA routerB)
open Pybmpmon.Listener.PeerActivity (handlePeerUp handlePeerDown firstUp firstDown)

inductive Statement where
  | updatePeerLastSeen (peerIp : IpAddress) (now : Timestamp)
  | upsertBmpPeer (peer : BMPPeer)
  | markPeerInactive (peerIp : IpAddress) (now : Timestamp)
  | insertPeerEvent (event : PeerEvent)

namespace Statement

def peerIp : Statement → IpAddress
  | .updatePeerLastSeen peerIp _ => peerIp
  | .upsertBmpPeer peer => peer.peerIp
  | .markPeerInactive peerIp _ => peerIp
  | .insertPeerEvent event => event.peerIp

def execute : Statement → PeerTables → PeerTables
  | .updatePeerLastSeen peerIp now, t => t.updatePeerLastSeen peerIp now
  | .upsertBmpPeer peer, t => t.upsertBmpPeer peer
  | .markPeerInactive peerIp now, t => t.markPeerInactive peerIp now
  | .insertPeerEvent event, t => t.insertPeerEvent event

end Statement

/-- The statements of the connection and of the handler it hands a message to. -/
def statementsOf (m : Message) : List Statement :=
  .updatePeerLastSeen m.router m.times.lastSeen ::
    match m.msgType with
    | .peerUpNotification =>
        match parsePeerUpMessage m.data with
        | .error _ => []
        | .ok _ =>
            [.upsertBmpPeer ⟨m.router, none, m.times.clock 0, m.times.clock 1, true⟩,
              .insertPeerEvent ⟨m.times.clock 2, m.router, .peerUp, none⟩]
    | .peerDownNotification =>
        match parsePeerDownMessage m.data with
        | .error _ => []
        | .ok parsed =>
            [.markPeerInactive m.router (m.times.clock 0),
              .insertPeerEvent ⟨m.times.clock 1, m.router, .peerDown, some parsed.reason⟩]
    | _ => []

theorem statementsOf_router {m : Message} {s : Statement} (h : s ∈ statementsOf m) : s.peerIp = m.router := by
  obtain ⟨router, times, msgType, data⟩ := m
  rcases List.mem_cons.mp h with rfl | h
  · rfl
  cases msgType with
  | peerUpNotification =>
    simp only at h
    cases hparse : parsePeerUpMessage data with
    | error e => rw [hparse] at h; cases h
    | ok parsed =>
      rw [hparse] at h
      simp only [List.mem_cons, List.not_mem_nil, or_false] at h
      rcases h with rfl | rfl
      · rfl
      · rfl
  | peerDownNotification =>
    simp only at h
    cases hparse : parsePeerDownMessage data with
    | error e => rw [hparse] at h; cases h
    | ok parsed =>
      rw [hparse] at h
      simp only [List.mem_cons, List.not_mem_nil, or_false] at h
      rcases h with rfl | rfl
      · rfl
      · rfl
  | _ => cases h

def messagesFrom (router : IpAddress) (ms : List Message) : List Message :=
  ms.filter fun m => m.router = router

/-- What the tables hold of a router. -/
def peerPart (router : IpAddress) (t : PeerTables) : Option BMPPeer × List PeerEvent :=
  (t.bmpPeers router, t.peerEvents.filter fun e => e.peerIp = router)

theorem updateBmpPeer_own {router : IpAddress} {t t' : PeerTables} (set : BMPPeer → BMPPeer)
    (h : peerPart router t = peerPart router t') :
    peerPart router (t.updateBmpPeer router set) = peerPart router (t'.updateBmpPeer router set) := by
  have hrow : t.bmpPeers router = t'.bmpPeers router := congrArg Prod.fst h
  have hevents := congrArg Prod.snd h
  simp only [peerPart, PeerTables.updateBmpPeer, Function.update_self, hrow] at hevents ⊢
  rw [hevents]

theorem updateBmpPeer_others {router peerIp : IpAddress} (hne : peerIp ≠ router) (set : BMPPeer → BMPPeer)
    (t : PeerTables) : peerPart router (t.updateBmpPeer peerIp set) = peerPart router t := by
  rw [peerPart, peerPart, PeerTables.updateBmpPeer]
  simp only [Function.update_of_ne (Ne.symm hne)]

theorem execute_own (s : Statement) {t t' : PeerTables} (h : peerPart s.peerIp t = peerPart s.peerIp t') :
    peerPart s.peerIp (s.execute t) = peerPart s.peerIp (s.execute t') := by
  cases s with
  | updatePeerLastSeen peerIp now => exact updateBmpPeer_own _ h
  | upsertBmpPeer peer =>
    have hrow : t.bmpPeers peer.peerIp = t'.bmpPeers peer.peerIp := congrArg Prod.fst h
    have hevents := congrArg Prod.snd h
    simp only [peerPart, Statement.peerIp, Statement.execute, PeerTables.upsertBmpPeer,
      Function.update_self, hrow] at hevents ⊢
    rw [hevents]
  | markPeerInactive peerIp now => exact updateBmpPeer_own _ h
  | insertPeerEvent event =>
    have hrow : t.bmpPeers event.peerIp = t'.bmpPeers event.peerIp := congrArg Prod.fst h
    have hevents := congrArg Prod.snd h
    simp only [peerPart, Statement.peerIp, Statement.execute, PeerTables.insertPeerEvent,
      List.filter_append, hrow] at hevents ⊢
    rw [hevents]

theorem execute_others (s : Statement) {router : IpAddress} (t : PeerTables) (hne : s.peerIp ≠ router) :
    peerPart router (s.execute t) = peerPart router t := by
  cases s with
  | updatePeerLastSeen peerIp now => exact updateBmpPeer_others hne _ t
  | upsertBmpPeer peer =>
    have hpeer : router ≠ peer.peerIp := Ne.symm hne
    simp only [peerPart, Statement.execute, PeerTables.upsertBmpPeer, Function.update_of_ne hpeer]
  | markPeerInactive peerIp now => exact updateBmpPeer_others hne _ t
  | insertPeerEvent event =>
    have hevent : ¬event.peerIp = router := hne
    simp [peerPart, Statement.execute, PeerTables.insertPeerEvent, hevent]

/-- The messages as tasks of their routers. -/
def peerTasks : Tasks IpAddress PeerTables Statement (Option BMPPeer × List PeerEvent) Message where
  owner := Statement.peerIp
  act := Statement.execute
  part := peerPart
  own := execute_own
  others := execute_others
  taskOwner := Message.router
  ops := statementsOf
  owned := statementsOf_router

/-- A handler is its statements. -/
theorem peersAfter_statements (t : PeerTables) (m : Message) :
    peersAfter t m = peerTasks.acts (statementsOf m) t := by
  obtain ⟨router, times, msgType, data⟩ := m
  cases msgType with
  | peerUpNotification =>
    simp only [peersAfter, statementsOf, handlePeerUp]
    cases parsePeerUpMessage data <;> rfl
  | peerDownNotification =>
    simp only [peersAfter, statementsOf, handlePeerDown]
    cases parsePeerDownMessage data <;> rfl
  | _ => rfl

theorem serial_peersAfter (ms : List Message) (t : PeerTables) :
    peerTasks.serial ms t = ms.foldl peersAfter t := by
  induction ms generalizing t with
  | nil => rfl
  | cons m ms ih =>
    rw [List.foldl_cons, ← ih, peersAfter_statements]
    rfl

/-- Two orders of messages that are the same for a router make the same of the tables of it. -/
theorem peerPart_router {router : IpAddress} {ms ms' : List Message}
    (h : messagesFrom router ms = messagesFrom router ms') (t : PeerTables) :
    peerPart router (ms.foldl peersAfter t) = peerPart router (ms'.foldl peersAfter t) := by
  rw [← serial_peersAfter, ← serial_peersAfter]
  calc peerPart router (peerTasks.serial ms t)
      = peerPart router (peerTasks.serial (messagesFrom router ms) t) := Tasks.serial_filter (p := peerTasks) router ms t
    _ = peerPart router (peerTasks.serial (messagesFrom router ms') t) := by rw [h]
    _ = peerPart router (peerTasks.serial ms' t) := (Tasks.serial_filter (p := peerTasks) router ms' t).symm

/-- However the statements of different routers' handlers are interleaved, and whichever of them fail: what
the tables hold of a router is what its messages make of them one after the other, each up to where its
handler failed. Without a failure, and with none of its statements to come, this is what the messages make
of the tables when each is handled at one stroke. -/
theorem statements_interleaved {labels : List (Label IpAddress Message)}
    {t : State IpAddress PeerTables Statement Message}
    (hrun : run peerTasks.step (.new .empty) labels = some t) (router : IpAddress) :
    (∃ parts, Idle (t.failed router + if (t.pending router).isEmpty then 0 else 1) parts
        (peerTasks.tasksOf router t.started) ∧
      peerPart router t.state = peerPart router (peerTasks.acts parts.flatten .empty)) ∧
    (t.failed router = 0 → t.pending router = [] →
      peerPart router t.state = peerPart router (t.started.foldl peersAfter .empty)) := by
  refine ⟨Tasks.interleaved hrun router, fun hfailed hpending => ?_⟩
  rw [← serial_peersAfter]
  exact Tasks.interleaved_serial hrun hfailed hpending

/-- Two routers report the same peer; the statements take turns, and an event of the one is not inserted. -/
def takingTurns : List (Label IpAddress Message) :=
  let up (router : IpAddress) : Message :=
    ⟨router, timesFrom 100, .peerUpNotification, firstUp.encode⟩
  [.start (up routerA), .start (up routerB), .next routerA, .next routerB, .next routerB, .next routerA,
    .fail routerB, .next routerA, .start ⟨routerB, timesFrom 200, .peerDownNotification, firstDown.encode⟩,
    .next routerB]

theorem statements_interleaved_turns :
    let t := (run peerTasks.step (.new .empty) takingTurns).get (by decide +kernel)
    (∃ parts, Idle (t.failed routerB + if (t.pending routerB).isEmpty then 0 else 1) parts
        (peerTasks.tasksOf routerB t.started) ∧
      peerPart routerB t.state = peerPart routerB (peerTasks.acts parts.flatten .empty)) ∧
    (t.failed routerB = 0 → t.pending routerB = [] →
      peerPart routerB t.state = peerPart routerB (t.started.foldl peersAfter .empty)) :=
  statements_interleaved (Option.some_get _).symm routerB

end Pybmpmon.Listener.Statements
