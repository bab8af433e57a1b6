import Pybmpmon.Listener.Restarts
import Pybmpmon.Listener.Statements

/-!
# The tables of the routers as a summary of their messages

What the row of a router in `bmp_peers` and its events say of the messages the router has
sent. A router has a row from its first Peer Up on; the flag is about the last Peer Up or
Peer Down, of whichever BGP peer, and every message is a sign of life.
-/
namespace Pybmpmon.Listener.PeerHistory

open Pybmpmon.Lib.Transition Pybmpmon.Python Pybmpmon.Models.Route
open Pybmpmon.Protocol.Bmp Pybmpmon.Protocol.BmpParser Pybmpmon.Database.BmpPeers
open Pybmpmon.Listener.RunListener Pybmpmon.Listener.Ledger Pybmpmon.Listener.Statements
open Pybmpmon.Listener.Restarts
open Pybmpmon.Listener.Records (routerA)
open Pybmpmon.Listener.PeerActivity (handlePeerUp handlePeerDown firstUp firstDown)

/-! ## Notifications -/

/-- A notification that is read, with the clock of its handler. -/
inductive Notice where
  | up (clock : Nat → Timestamp)
  | down (clock : Nat → Timestamp) (reason : BMPPeerDownReason)

namespace Notice

def isUp : Notice → Bool
  | .up _ => true
  | .down _ _ => false

/-- When the handler first looks at the clock. -/
def begun : Notice → Timestamp
  | .up clock => clock 0
  | .down clock _ => clock 0

def event (router : IpAddress) : Notice → PeerEvent
  | .up clock => ⟨clock 2, router, .peerUp, none⟩
  | .down clock reason => ⟨clock 1, router, .peerDown, some reason⟩

end Notice

def noticeOf (m : Message) : Option Notice :=
  match m.msgType with
  | .peerUpNotification =>
      match parsePeerUpMessage m.data with
      | .error _ => none
      | .ok _ => some (.up m.times.clock)
  | .peerDownNotification =>
      match parsePeerDownMessage m.data with
      | .error _ => none
      | .ok parsed => some (.down m.times.clock parsed.reason)
  | _ => none

def notices (ms : List Message) : List Notice := ms.filterMap noticeOf

/-- The last time a message is noted in the row of its router. -/
def seenAt (m : Message) : Timestamp :=
  match noticeOf m with
  | none => m.times.lastSeen
  | some (.up clock) => clock 1
  | some (.down clock _) => clock 0

/-- What a row says of the messages of its router. -/
structure Summarises (router : IpAddress) (ms : List Message) (r : BMPPeer) : Prop where
  peerIp : r.peerIp = router
  routerId : r.routerId = none
  firstSeen : ((notices ms).find? Notice.isUp).map Notice.begun = some r.firstSeen
  lastSeen : ms.getLast?.map seenAt = some r.lastSeen
  isActive : (notices ms).getLast?.map Notice.isUp = some r.isActive

/-! ## One message -/

/-- What a message makes of the row of its router. -/
def rowAfter (router : IpAddress) (row : Option BMPPeer) (m : Message) : Option BMPPeer :=
  match noticeOf m with
  | none => row.map fun r => { r with lastSeen := m.times.lastSeen }
  | some (.down clock _) => row.map fun r => { r with isActive := false, lastSeen := clock 0 }
  | some (.up clock) =>
      match row with
      | none => some ⟨router, none, clock 0, clock 1, true⟩
      | some r => some { r with routerId := none, lastSeen := clock 1, isActive := true }

theorem peersAfter_own (t : PeerTables) (m : Message) :
    (peersAfter t m).bmpPeers m.router = rowAfter m.router (t.bmpPeers m.router) m := by
  have hseen : (t.updatePeerLastSeen m.router m.times.lastSeen).bmpPeers m.router =
      (t.bmpPeers m.router).map fun r => { r with lastSeen := m.times.lastSeen } :=
    Function.update_self ..
  obtain ⟨router, times, msgType, data⟩ := m
  simp only at hseen
  cases msgType with
  | peerUpNotification =>
    simp only [peersAfter, rowAfter, noticeOf, handlePeerUp]
    cases parsePeerUpMessage data with
    | error e => exact hseen
    | ok parsed =>
      simp only [PeerTables.insertPeerEvent, PeerTables.upsertBmpPeer, Function.update_self, hseen]
      cases t.bmpPeers router <;> rfl
  | peerDownNotification =>
    simp only [peersAfter, rowAfter, noticeOf, handlePeerDown]
    cases parsePeerDownMessage data with
    | error e => exact hseen
    | ok parsed =>
      simp only [PeerTables.insertPeerEvent, PeerTables.markPeerInactive, PeerTables.updateBmpPeer,
        Function.update_self, hseen]
      cases t.bmpPeers router <;> rfl
  | _ => exact hseen

/-- The events a message inserts. -/
def eventsOf (m : Message) : List PeerEvent := (peersAfter .empty m).peerEvents

theorem peersAfter_events (t : PeerTables) (m : Message) :
    (peersAfter t m).peerEvents = t.peerEvents ++ eventsOf m := by
  obtain ⟨router, times, msgType, data⟩ := m
  cases msgType with
  | peerUpNotification =>
    simp only [eventsOf, peersAfter, handlePeerUp]
    cases parsePeerUpMessage data with
    | error e => exact (List.append_nil _).symm
    | ok parsed => rfl
  | peerDownNotification =>
    simp only [eventsOf, peersAfter, handlePeerDown]
    cases parsePeerDownMessage data with
    | error e => exact (List.append_nil _).symm
    | ok parsed => rfl
  | _ => exact (List.append_nil _).symm

theorem eventsOf_router (m : Message) : ∀ e ∈ eventsOf m, e.peerIp = m.router := by
  obtain ⟨router, times, msgType, data⟩ := m
  intro e he
  cases msgType with
  | peerUpNotification =>
    simp only [eventsOf, peersAfter, handlePeerUp] at he
    cases hparse : parsePeerUpMessage data with
    | error e => rw [hparse] at he; cases he
    | ok parsed =>
      rw [hparse] at he
      rw [List.mem_singleton.mp he]
  | peerDownNotification =>
    simp only [eventsOf, peersAfter, handlePeerDown] at he
    cases hparse : parsePeerDownMessage data with
    | error e => rw [hparse] at he; cases he
    | ok parsed =>
      rw [hparse] at he
      rw [List.mem_singleton.mp he]
  | _ => cases he

theorem foldl_events (ms : List Message) (t : PeerTables) :
    (ms.foldl peersAfter t).peerEvents = t.peerEvents ++ ms.flatMap eventsOf := by
  induction ms generalizing t with
  | nil => exact (List.append_nil _).symm
  | cons m ms ih => rw [List.foldl_cons, ih, peersAfter_events, List.flatMap_cons, List.append_assoc]

theorem eventsOf_notice (m : Message) : eventsOf m = (noticeOf m).toList.map (Notice.event m.router) := by
  obtain ⟨router, times, msgType, data⟩ := m
  cases msgType with
  | peerUpNotification =>
    simp only [eventsOf, peersAfter, handlePeerUp, noticeOf]
    cases parsePeerUpMessage data <;> rfl
  | peerDownNotification =>
    simp only [eventsOf, peersAfter, handlePeerDown, noticeOf]
    cases parsePeerDownMessage data <;> rfl
  | _ => rfl

theorem notices_concat (ms : List Message) (m : Message) :
    notices (ms ++ [m]) = notices ms ++ (noticeOf m).toList := by
  rw [notices, List.filterMap_append, ← notices, List.filterMap_cons, List.filterMap_nil]
  cases noticeOf m <;> rfl

/-- The first message that gives a row is the router's first Peer Up. -/
theorem summarises_first {router : IpAddress} {ms : List Message} {m : Message} {clock : Nat → Timestamp}
    (hnone : ∀ n ∈ notices ms, n.isUp = false) (hup : noticeOf m = some (.up clock)) :
    Summarises router (ms ++ [m]) ⟨router, none, clock 0, clock 1, true⟩ := by
  have hbefore : (notices ms).find? Notice.isUp = none :=
    List.find?_eq_none.mpr fun n hn => by rw [hnone n hn]; decide
  refine ⟨rfl, rfl, ?_, ?_, ?_⟩
  · rw [notices_concat, List.find?_append, hbefore, hup]
    rfl
  · rw [List.getLast?_concat, Option.map_some, seenAt, hup]
  · rw [notices_concat, hup, Option.toList_some, List.getLast?_concat]
    rfl

/-- One more message keeps the summary. -/
theorem summarises_concat {router : IpAddress} {ms : List Message} {r : BMPPeer}
    (h : Summarises router ms r) (m : Message) :
    ∃ r', rowAfter router (some r) m = some r' ∧ Summarises router (ms ++ [m]) r' := by
  obtain ⟨hpeerIp, hrouterId, hfirst, _, hactive⟩ := h
  obtain ⟨n, hn⟩ : ∃ n, (notices ms).find? Notice.isUp = some n := by
    cases hfind : (notices ms).find? Notice.isUp with
    | none =>
      rw [hfind] at hfirst
      cases hfirst
    | some n => exact ⟨n, rfl⟩
  have hfirst' : ((notices (ms ++ [m])).find? Notice.isUp).map Notice.begun = some r.firstSeen := by
    rw [notices_concat, List.find?_append, hn, Option.some_or, ← hn]
    exact hfirst
  have hseen : (ms ++ [m]).getLast?.map seenAt = some (seenAt m) := by
    rw [List.getLast?_concat, Option.map_some]
  have hlast : ∀ n, noticeOf m = some n →
      (notices (ms ++ [m])).getLast?.map Notice.isUp = some n.isUp := fun n hm => by
    rw [notices_concat, hm, Option.toList_some, List.getLast?_concat, Option.map_some]
  cases hm : noticeOf m with
  | none =>
    refine ⟨{ r with lastSeen := m.times.lastSeen }, by rw [rowAfter, hm]; rfl, hpeerIp, hrouterId, hfirst',
      ?_, ?_⟩
    · rw [hseen, seenAt, hm]
    · rw [notices_concat, hm, Option.toList_none, List.append_nil]
      exact hactive
  | some notice =>
    have hflag := hlast notice hm
    cases notice with
    | up clock =>
      exact ⟨{ r with routerId := none, lastSeen := clock 1, isActive := true }, by rw [rowAfter, hm],
        hpeerIp, rfl, hfirst', by rw [hseen, seenAt, hm], hflag⟩
    | down clock reason =>
      exact ⟨{ r with isActive := false, lastSeen := clock 0 }, by rw [rowAfter, hm]; rfl, hpeerIp, hrouterId,
        hfirst', by rw [hseen, seenAt, hm], hflag⟩

/-! ## All the messages of a router -/

/-- A row is the summary of the messages, and there is none before the first Peer Up. -/
theorem foldl_rowAfter (router : IpAddress) (ms : List Message) :
    (ms.foldl (rowAfter router) none = none ∧ ∀ n ∈ notices ms, n.isUp = false) ∨
      ∃ r, ms.foldl (rowAfter router) none = some r ∧ Summarises router ms r := by
  induction ms using List.reverseRecOn with
  | nil => exact .inl ⟨rfl, fun n hn => absurd hn List.not_mem_nil⟩
  | append_singleton ms m ih =>
    rw [List.foldl_concat]
    rcases ih with ⟨hrow, hnone⟩ | ⟨r, hrow, hsum⟩
    · rw [hrow, rowAfter]
      have hstill : (∀ clock, noticeOf m ≠ some (.up clock)) → ∀ n ∈ notices (ms ++ [m]), n.isUp = false := by
        intro hup n hn
        rw [notices_concat, List.mem_append, Option.mem_toList] at hn
        rcases hn with hn | hn
        · exact hnone n hn
        · cases n with
          | up clock => exact absurd hn (hup clock)
          | down clock reason => rfl
      cases hm : noticeOf m with
      | none => exact .inl ⟨rfl, hstill fun clock h => by rw [hm] at h; cases h⟩
      | some notice =>
        cases notice with
        | up clock => exact .inr ⟨_, rfl, summarises_first hnone hm⟩
        | down clock reason => exact .inl ⟨rfl, hstill fun clock h => by rw [hm] at h; cases h⟩
    · rw [hrow]
      exact .inr (summarises_concat hsum m)

theorem foldl_own {router : IpAddress} {ms : List Message} (h : ∀ m ∈ ms, m.router = router)
    (t : PeerTables) :
    (ms.foldl peersAfter t).bmpPeers router = ms.foldl (rowAfter router) (t.bmpPeers router) := by
  induction ms generalizing t with
  | nil => rfl
  | cons m ms ih =>
    have hown := peersAfter_own t m
    rw [h m List.mem_cons_self] at hown
    rw [List.foldl_cons, ih (fun x hx => h x (List.mem_cons_of_mem m hx)), hown, List.foldl_cons]

theorem flatMap_eventsOf {router : IpAddress} {ms : List Message} (h : ∀ m ∈ ms, m.router = router) :
    ms.flatMap eventsOf = (notices ms).map (Notice.event router) := by
  induction ms with
  | nil => rfl
  | cons m ms ih =>
    have hcons : notices (m :: ms) = (noticeOf m).toList ++ notices ms := by
      rw [notices, List.filterMap_cons, ← notices]
      cases noticeOf m <;> rfl
    rw [List.flatMap_cons, ih (fun x hx => h x (List.mem_cons_of_mem m hx)), eventsOf_notice,
      h m List.mem_cons_self, hcons, List.map_append]

/-- The tables that messages make of empty ones, as a summary of those of a router. -/
theorem foldl_summarise (router : IpAddress) (ms : List Message) :
    let sent := messagesFrom router ms
    let tables := ms.foldl peersAfter .empty
    (tables.bmpPeers router = none ↔ ∀ n ∈ notices sent, n.isUp = false) ∧
      (∀ r, tables.bmpPeers router = some r → Summarises router sent r) ∧
      tables.peerEvents.filter (fun e => e.peerIp = router) = (notices sent).map (Notice.event router) := by
  have hsent : ∀ m ∈ messagesFrom router ms, m.router = router := fun m hm =>
    of_decide_eq_true (List.mem_filter.mp hm).2
  have hown : messagesFrom router ms = messagesFrom router (messagesFrom router ms) :=
    (List.filter_eq_self.mpr fun m hm => by simpa using hsent m hm).symm
  have hpart := peerPart_router hown .empty
  have hrow : (ms.foldl peersAfter .empty).bmpPeers router =
      (messagesFrom router ms).foldl (rowAfter router) none :=
    (congrArg Prod.fst hpart).trans (foldl_own hsent .empty)
  refine ⟨?_, ?_, ?_⟩
  · rw [hrow]
    rcases foldl_rowAfter router (messagesFrom router ms) with ⟨hnone, hups⟩ | ⟨r, hr, hsum⟩
    · exact iff_of_true hnone hups
    · rw [hr]
      refine iff_of_false (Option.some_ne_none r) fun hups => ?_
      have hfirst := hsum.firstSeen
      rw [List.find?_eq_none.mpr fun n hn => by rw [hups n hn]; decide] at hfirst
      cases hfirst
  · intro r hr
    rw [hrow] at hr
    rcases foldl_rowAfter router (messagesFrom router ms) with ⟨hnone, _⟩ | ⟨r', hr', hsum⟩
    · rw [hnone] at hr
      cases hr
    · rw [hr', Option.some_inj] at hr
      rw [← hr]
      exact hsum
  · rw [foldl_events, List.filter_append, Lib.Owners.filter_flatMap eventsOf_router, ← messagesFrom,
      flatMap_eventsOf hsent]
    rfl

/-- However often the program is started again, and whatever becomes of the routes: a router has a row
exactly when it has sent a Peer Up that is read. The row tells when the first one came, when the last
message of any type did, and whether the last Peer Up or Peer Down that is read was a Peer Up; and the
events are these notifications, in their order, with the reasons. -/
theorem peers_summarise {history : List Life} {d : RunListener.Database} {lived : List (Life × World)}
    (h : lives .empty history = some (d, lived)) (router : IpAddress) :
    let sent := messagesFrom router (handled lived)
    (d.peerTables.bmpPeers router = none ↔ ∀ n ∈ notices sent, n.isUp = false) ∧
      (∀ r, d.peerTables.bmpPeers router = some r → Summarises router sent r) ∧
      d.peerTables.peerEvents.filter (fun e => e.peerIp = router) =
        (notices sent).map (Notice.event router) := by
  obtain ⟨_, hpeers, _⟩ := lives_lived h
  rw [hpeers]
  exact foldl_summarise router (handled lived)

/-- A BGP peer of a router comes up, and goes down after the program has been killed and started again. -/
def upAndDown : List Life :=
  [⟨1000, 500, [.connect routerA, .receive routerA firstUp.encode, .round routerA (timesFrom 100)], .kill⟩,
    ⟨1000, 500, [.connect routerA, .receive routerA firstDown.encode, .round routerA (timesFrom 200)], .kill⟩]

theorem peers_summarise_down :
    let r := (lives .empty upAndDown).get (by decide +kernel)
    let sent := messagesFrom routerA (handled r.2)
    (r.1.peerTables.bmpPeers routerA = none ↔ ∀ n ∈ notices sent, n.isUp = false) ∧
      (∀ p, r.1.peerTables.bmpPeers routerA = some p → Summarises routerA sent p) ∧
      r.1.peerTables.peerEvents.filter (fun e => e.peerIp = routerA) =
        (notices sent).map (Notice.event routerA) := by
  intro r
  have hr : lives .empty upAndDown = some r := (Option.some_get _).symm
  clear_value r
  exact peers_summarise hr routerA

end Pybmpmon.Listener.PeerHistory
