import Pybmpmon.Lib.Transition
import Pybmpmon.Models.Route
import Pybmpmon.Monitoring.Stats

/-!
# Connections that share an address

Any number of connections of `_handle_connection`, each between two of its awaits. The
start times and the counters are kept per address: an open writes the start time of its
address, a message counts there, and the clean-up of `finally` removes both. A
connection is open until its clean-up, or until `wait_closed` raises before it.
-/
namespace Pybmpmon.Listener.Sessions

open Pybmpmon.Lib.Transition Pybmpmon.Python Pybmpmon.Models.Route Pybmpmon.Monitoring.Stats

/-- The locals of the handler of one connection. -/
structure Connection where
  peerIp : IpAddress
  connectionStartTime : Timestamp
  deriving DecidableEq, Repr

/-- The log line `peer_connection_closed`. -/
structure ClosedLine where
  peer : IpAddress
  durationSeconds : Int
  deriving DecidableEq, Repr

/-- What all connections share. -/
structure Tables where
  connectionStartTimes : IpAddress → Option Timestamp
  collector : StatisticsCollector IpAddress
  closedLines : List ClosedLine

/-- `int(now - start)`, of times in microseconds. -/
def durationSeconds (start now : Timestamp) : Int := (now - start).tdiv 1000000

/-- The counters a message raises. -/
inductive Count where
  | received
  | processed (family : Family)
  | error
  deriving DecidableEq, Repr

namespace Tables

def opened (peerIp : IpAddress) (now : Timestamp) (t : Tables) : Tables :=
  { t with connectionStartTimes := Function.update t.connectionStartTimes peerIp (some now) }

def counted (count : Count) (peerIp : IpAddress) (t : Tables) : Tables :=
  { t with
    collector :=
      match count with
      | .received => t.collector.incrementReceived peerIp
      | .processed family => t.collector.incrementProcessed peerIp family.text
      | .error => t.collector.incrementError peerIp }

/-- The clean-up of `finally`, after `wait_closed`. -/
def cleanedUp (peerIp : IpAddress) (now : Timestamp) (t : Tables) : Tables :=
  let (duration, startTimes) :=
    match t.connectionStartTimes peerIp with
    | some start =>
        (durationSeconds start now, Function.update t.connectionStartTimes peerIp none)
    | none => (0, t.connectionStartTimes)
  { connectionStartTimes := startTimes
    collector := t.collector.removePeer peerIp
    closedLines := t.closedLines ++ [⟨peerIp, duration⟩] }

/-- The end of a connection: where `wait_closed` raises, nothing of `finally` follows. -/
def closed (peerIp : IpAddress) (now : Timestamp) (waitClosed : Bool) (t : Tables) : Tables :=
  if waitClosed then t.cleanedUp peerIp now else t

end Tables

/-- The tables, and the connections that are open, in the order they were opened. -/
abbrev ListenerState := System Tables Connection

def initial : ListenerState := ⟨⟨fun _ => none, ⟨fun _ => none⟩, []⟩, []⟩

/-- `waitClosed` is false when `wait_closed` raises, as it does after a reset. -/
inductive Label where
  | opened (peerIp : IpAddress) (now : Timestamp)
  | message (k : Nat) (count : Count)
  | closed (k : Nat) (now : Timestamp) (waitClosed : Bool)
  deriving DecidableEq, Repr

def step (s : ListenerState) : Label → Option ListenerState
  | .opened peerIp now => some (System.spawn ⟨peerIp, now⟩ ⟨s.shared.opened peerIp now, s.suspended⟩)
  | .message k count => s.go (fun t c => some (t.counted count c.peerIp, some c)) k
  | .closed k now waitClosed =>
      s.go (fun t c => some (t.closed c.peerIp now waitClosed, none)) k

/-! ## What a close may do to the others -/

/-- Every open connection has an entry for its address. -/
def HaveEntries (s : ListenerState) : Prop :=
  ∀ c ∈ s.suspended, s.shared.connectionStartTimes c.peerIp ≠ none

/-- A close takes nothing from the connections that stay open, leaves nothing after the last one
of its address, and what it logs is its own lifetime. -/
structure ClosesOwn (c : Connection) (others : List Connection) (now : Timestamp) (t t' : Tables) :
    Prop where
  kept : ∀ o ∈ others, t'.collector.stats o.peerIp = t.collector.stats o.peerIp
  removed : (∀ o ∈ others, o.peerIp ≠ c.peerIp) →
    t'.connectionStartTimes c.peerIp = none ∧ t'.collector.stats c.peerIp = none
  lifetime : ∃ lines, t'.closedLines = t.closedLines ++ lines ∧
    ∀ line ∈ lines, line = ⟨c.peerIp, durationSeconds c.connectionStartTime now⟩

/-- What is asked of a step: the connections open after it have their entries, and a close is as it
should be. -/
def KeepsApart (s : ListenerState) (a : Label) : Prop :=
  ∀ s', step s a = some s' → HaveEntries s' ∧
    match a with
    | .closed k now _ =>
        ∀ c, s.suspended[k]? = some c → ClosesOwn c (s.suspended.eraseIdx k) now s.shared s'.shared
    | _ => True

/-- Where `wait_closed` returns, no other connection from the address is open, and the start time that
is kept for the address is as many seconds ago as its own; where it raises, another is open. -/
def ClosedInTurn (s : ListenerState) : Label → Prop
  | .closed k now waitClosed =>
      ∀ c, s.suspended[k]? = some c →
        if waitClosed then
          (∀ o ∈ s.suspended.eraseIdx k, o.peerIp ≠ c.peerIp) ∧
            ∀ start, s.shared.connectionStartTimes c.peerIp = some start →
              durationSeconds start now = durationSeconds c.connectionStartTime now
        else ∃ o ∈ s.suspended.eraseIdx k, o.peerIp = c.peerIp
  | _ => True

/-! ## The tables -/

theorem cleanedUp_startTimes (peerIp : IpAddress) (now : Timestamp) (t : Tables) :
    (t.cleanedUp peerIp now).connectionStartTimes =
      Function.update t.connectionStartTimes peerIp none := by
  unfold Tables.cleanedUp
  cases h : t.connectionStartTimes peerIp with
  | some start => rfl
  | none =>
    show t.connectionStartTimes = _
    rw [← h, Function.update_eq_self]

theorem cleanedUp_stats (peerIp : IpAddress) (now : Timestamp) (t : Tables) :
    (t.cleanedUp peerIp now).collector.stats = Function.update t.collector.stats peerIp none := by
  rw [← StatisticsCollector.removePeer_stats]
  rfl

theorem cleanedUp_closedLines {peerIp : IpAddress} {start : Timestamp} {t : Tables}
    (h : t.connectionStartTimes peerIp = some start) (now : Timestamp) :
    (t.cleanedUp peerIp now).closedLines = t.closedLines ++ [⟨peerIp, durationSeconds start now⟩] := by
  unfold Tables.cleanedUp
  rw [h]

theorem opened_startTimes (peerIp : IpAddress) (now : Timestamp) (t : Tables) :
    (t.opened peerIp now).connectionStartTimes =
      Function.update t.connectionStartTimes peerIp (some now) := rfl

/-! ## One step -/

theorem step_opened (s : ListenerState) (peerIp : IpAddress) (now : Timestamp) :
    step s (.opened peerIp now) =
      some ⟨s.shared.opened peerIp now, s.suspended ++ [⟨peerIp, now⟩]⟩ := rfl

/-- A message changes no start time and no connection. -/
theorem step_message {s s' : ListenerState} {k : Nat} {count : Count}
    (h : step s (.message k count) = some s') :
    s'.suspended = s.suspended ∧
      s'.shared.connectionStartTimes = s.shared.connectionStartTimes := by
  rw [step] at h
  obtain ⟨before, c, after, shared, next, hs, _, hnext, rfl⟩ := go_split h
  cases hnext
  exact ⟨hs.symm, rfl⟩

theorem step_closed (s : ListenerState) (k : Nat) (now : Timestamp) (waitClosed : Bool) :
    step s (.closed k now waitClosed) = (s.suspended[k]?).map fun c =>
      ⟨s.shared.closed c.peerIp now waitClosed, s.suspended.eraseIdx k⟩ := by
  rw [step]
  exact go_ends (fun _ _ => rfl) k s

theorem haveEntries_opened {s : ListenerState} (h : HaveEntries s) (peerIp : IpAddress) (now : Timestamp) :
    HaveEntries ⟨s.shared.opened peerIp now, s.suspended ++ [⟨peerIp, now⟩]⟩ := by
  intro c hc
  rw [opened_startTimes]
  by_cases hip : c.peerIp = peerIp
  · rw [hip, Function.update_self]
    exact Option.some_ne_none now
  · rw [Function.update_of_ne hip]
    rcases List.mem_append.mp hc with hc | hc
    · exact h c hc
    · rw [List.mem_singleton.mp hc] at hip
      exact absurd rfl hip

/-- The step lemma. -/
theorem haveEntries_step (s : ListenerState) (a : Label) (s' : ListenerState) (hok : ClosedInTurn s a)
    (hstep : step s a = some s') (h : HaveEntries s) : HaveEntries s' := by
  cases a with
  | opened peerIp now =>
    rw [step_opened, Option.some_inj] at hstep
    rw [← hstep]
    exact haveEntries_opened h peerIp now
  | message k count =>
    obtain ⟨hsuspended, hstart⟩ := step_message hstep
    intro c hc
    rw [hsuspended] at hc
    rw [hstart]
    exact h c hc
  | closed k now waitClosed =>
    rw [step_closed, Option.map_eq_some_iff] at hstep
    obtain ⟨c, hc, rfl⟩ := hstep
    intro o ho
    have hopen := h o (List.mem_of_mem_eraseIdx ho)
    cases waitClosed with
    | false => exact hopen
    | true =>
      have halone := (hok c hc).1
      show (s.shared.cleanedUp c.peerIp now).connectionStartTimes o.peerIp ≠ none
      rw [cleanedUp_startTimes, Function.update_of_ne (halone o ho)]
      exact hopen

/-- A close that comes to its clean-up. -/
theorem closesOwn_iff {c : Connection} {others : List Connection} {start now : Timestamp} {t : Tables}
    (hstart : t.connectionStartTimes c.peerIp = some start) (halone : ∀ o ∈ others, o.peerIp ≠ c.peerIp) :
    ClosesOwn c others now t (t.cleanedUp c.peerIp now) ↔
      durationSeconds start now = durationSeconds c.connectionStartTime now := by
  constructor
  · intro h
    obtain ⟨lines, hlines, hall⟩ := h.lifetime
    rw [cleanedUp_closedLines hstart, List.append_cancel_left_eq] at hlines
    have hline := hall ⟨c.peerIp, durationSeconds start now⟩ (by rw [← hlines]; exact List.mem_singleton_self _)
    exact congrArg ClosedLine.durationSeconds hline
  · intro hsame
    constructor
    · intro o ho
      rw [cleanedUp_stats, Function.update_of_ne (halone o ho)]
    · intro _
      rw [cleanedUp_startTimes, cleanedUp_stats, Function.update_self, Function.update_self]
      exact ⟨rfl, rfl⟩
    · refine ⟨_, cleanedUp_closedLines hstart now, fun line hline => ?_⟩
      rw [List.mem_singleton.mp hline, hsame]

/-- With the entries in place, a step keeps the connections apart exactly when it closes none beside
another of its address, or by another's start time, and does not miss the clean-up after the last. -/
theorem keepsApart_iff (s : ListenerState) (a : Label) (h : HaveEntries s) :
    KeepsApart s a ↔ ClosedInTurn s a := by
  constructor
  · intro hkeeps
    cases a with
    | opened peerIp now => trivial
    | message k count => trivial
    | closed k now waitClosed =>
      intro c hc
      obtain ⟨hentries, hcloses⟩ := hkeeps _ (by rw [step_closed, hc]; rfl)
      have hown := hcloses c hc
      have hopen := h c (List.mem_of_getElem? hc)
      cases waitClosed with
      | false =>
        -- nothing is removed, so the connection is not the last
        by_contra hlast
        exact hopen (hown.removed fun o ho hsame => hlast ⟨o, ho, hsame⟩).1
      | true =>
        have halone : ∀ o ∈ s.suspended.eraseIdx k, o.peerIp ≠ c.peerIp := by
          intro o ho hsame
          have hgone := hentries o ho
          rw [hsame] at hgone
          apply hgone
          show (s.shared.cleanedUp c.peerIp now).connectionStartTimes c.peerIp = none
          rw [cleanedUp_startTimes, Function.update_self]
        exact ⟨halone, fun start hstart => (closesOwn_iff hstart halone).mp hown⟩
  · intro hturn s' hstep
    refine ⟨haveEntries_step s a s' hturn hstep h, ?_⟩
    cases a with
    | opened peerIp now => trivial
    | message k count => trivial
    | closed k now waitClosed =>
      intro c hc
      rw [step_closed, hc, Option.map_some, Option.some_inj] at hstep
      have hclose := hturn c hc
      cases waitClosed with
      | false =>
        obtain ⟨o, ho, hsame⟩ := hclose
        rw [← hstep]
        exact ⟨fun _ _ => rfl, fun halone => absurd hsame (halone o ho), [], (List.append_nil _).symm,
          fun _ hline => absurd hline List.not_mem_nil⟩
      | true =>
        obtain ⟨start, hstart⟩ := Option.ne_none_iff_exists'.mp (h c (List.mem_of_getElem? hc))
        rw [← hstep]
        exact (closesOwn_iff hstart hclose.1).mpr (hclose.2 start hstart)

theorem haveEntries_initial : HaveEntries initial := by
  intro c hc
  cases hc

/-- Connections are kept apart throughout a run exactly when each whose `wait_closed` returns is closed
while no other from its address is open, and with a start time for the address that says as much as its
own, and each whose `wait_closed` raises while another is open. -/
theorem keptApart_iff (labels : List Label) :
    Throughout step KeepsApart initial labels ↔ Throughout step ClosedInTurn initial labels :=
  throughout_iff keepsApart_iff haveEntries_step haveEntries_initial labels

/-- A router that reconnects before its old connection is closed. -/
def reconnected : List Label :=
  [.opened (.v4 (.ofOctets 192 0 2 1)) 0, .opened (.v4 (.ofOctets 192 0 2 1)) 5000000,
    .closed 0 6000000 true]

/-- The close of the old connection removes the entry of the new one. -/
theorem reconnected_not_keptApart : ¬ Throughout step KeepsApart initial reconnected := by
  rintro ⟨_, hsecond⟩
  have hthird := (hsecond _ rfl).2 _ rfl
  have hentries := (hthird.1 _ rfl).1
  exact hentries _ (List.mem_singleton_self _) rfl

end Pybmpmon.Listener.Sessions
