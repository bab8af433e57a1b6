import Mathlib.Algebra.GroupWithZero.Nat
import Mathlib.Data.List.Induction
import Pybmpmon.Monitoring.Stats

/-!
# The periodic report

`_periodic_logging` of `monitoring/stats.py`. A pass has no await in it: it logs every peer
with activity, in the order in which `_stats` got its keys, and resets it. The throughput is
a quotient of floats, of which the model takes only that it may raise.
-/
namespace Pybmpmon.Monitoring.Reports

open Pybmpmon.Monitoring.Stats

variable {κ : Type}

/-- The log line `route_stats`. -/
structure RouteStatsLine (κ : Type) where
  peer : κ
  received : Nat
  processed : Nat
  ipv4 : Nat
  ipv6 : Nat
  evpn : Nat
  errors : Nat
  throughputPerSec : Int
  deriving DecidableEq, Repr

def routeStatsLine (peer : κ) (s : PeerStats κ) (throughputPerSec : Int) : RouteStatsLine κ where
  peer := peer
  received := s.routesReceived
  processed := s.routesProcessed
  ipv4 := s.ipv4Routes
  ipv6 := s.ipv6Routes
  evpn := s.evpnRoutes
  errors := s.errors
  throughputPerSec := throughputPerSec

/-- The test before a peer is logged. -/
def hasActivity (s : PeerStats κ) : Bool :=
  s.routesReceived > 0 || s.routesProcessed > 0 || s.errors > 0

/-! ## The six counters -/

inductive Counter where
  | received
  | processed
  | ipv4
  | ipv6
  | evpn
  | errors
  deriving DecidableEq, Repr

def Counter.current (counter : Counter) (s : PeerStats κ) : Nat :=
  match counter with
  | .received => s.routesReceived
  | .processed => s.routesProcessed
  | .ipv4 => s.ipv4Routes
  | .ipv6 => s.ipv6Routes
  | .evpn => s.evpnRoutes
  | .errors => s.errors

def Counter.logged (counter : Counter) (line : RouteStatsLine κ) : Nat :=
  match counter with
  | .received => line.received
  | .processed => line.processed
  | .ipv4 => line.ipv4
  | .ipv6 => line.ipv6
  | .evpn => line.evpn
  | .errors => line.errors

/-- The family that a counter is for. -/
def Counter.family : Counter → Option String
  | .ipv4 => some "ipv4_unicast"
  | .ipv6 => some "ipv6_unicast"
  | .evpn => some "evpn"
  | .received | .processed | .errors => none

theorem current_incrementReceived (counter : Counter) (s : PeerStats κ) :
    counter.current s.incrementReceived =
      counter.current s + if counter = .received then 1 else 0 := by
  cases counter <;> rfl

theorem current_incrementProcessed (family : String) (counter : Counter) (s : PeerStats κ) :
    counter.current (s.incrementProcessed family) = counter.current s +
      if counter = .processed || counter.family = some family then 1 else 0 := by
  unfold PeerStats.incrementProcessed
  split_ifs <;> cases counter <;> simp_all [Counter.current, Counter.family]

theorem current_incrementError (counter : Counter) (s : PeerStats κ) :
    counter.current s.incrementError = counter.current s + if counter = .errors then 1 else 0 := by
  cases counter <;> rfl

theorem current_reset (counter : Counter) (s : PeerStats κ) : counter.current s.reset = 0 := by
  cases counter <;> rfl

theorem hasActivity_reset (s : PeerStats κ) : hasActivity s.reset = false := rfl

theorem logged_routeStatsLine (counter : Counter) (peer : κ) (s : PeerStats κ)
    (throughputPerSec : Int) :
    counter.logged (routeStatsLine peer s throughputPerSec) = counter.current s := by
  cases counter <;> rfl

/-! ## Passes -/

variable [DecidableEq κ]

def linesOf (peer : κ) (lines : List (RouteStatsLine κ)) : List (RouteStatsLine κ) :=
  lines.filter fun line => line.peer = peer

/-- The collector, the keys of `_stats` as they were inserted, and what has been logged. -/
structure Reporter (κ : Type) where
  collector : StatisticsCollector κ
  peers : List κ
  lines : List (RouteStatsLine κ)

namespace Reporter

def new : Reporter κ := ⟨⟨fun _ => none⟩, [], []⟩

/-- The first increment for a peer inserts its key. -/
def count (increment : κ → StatisticsCollector κ → StatisticsCollector κ) (peer : κ)
    (r : Reporter κ) : Reporter κ :=
  { r with
    collector := increment peer r.collector
    peers := if (r.collector.stats peer).isSome then r.peers else r.peers ++ [peer] }

def incrementReceived (peer : κ) (r : Reporter κ) : Reporter κ :=
  r.count StatisticsCollector.incrementReceived peer

def incrementProcessed (peer : κ) (family : String) (r : Reporter κ) : Reporter κ :=
  r.count (fun peer c => c.incrementProcessed peer family) peer

def incrementError (peer : κ) (r : Reporter κ) : Reporter κ :=
  r.count StatisticsCollector.incrementError peer

def removePeer (peer : κ) (r : Reporter κ) : Reporter κ :=
  { r with collector := r.collector.removePeer peer, peers := r.peers.erase peer }

/-- What has been logged of a counter of a peer, and what it holds. -/
def total (r : Reporter κ) (peer : κ) (counter : Counter) : Nat :=
  ((linesOf peer r.lines).map counter.logged).sum + counter.current (r.collector.counts peer)

/-- The peer is logged and its counters are reset. -/
def logPeer (peer : κ) (throughputPerSec : Int) (r : Reporter κ) : Reporter κ :=
  { r with
    collector := r.collector.increment PeerStats.reset peer
    lines := r.lines ++ [routeStatsLine peer (r.collector.counts peer) throughputPerSec] }

/-- The loop over the peers. An exception ends the pass: it is logged, and the rest of the peers
wait for the next pass. -/
def report (throughput : Nat → Option Int) : List κ → Reporter κ → Reporter κ
  | [], r => r
  | peer :: peers, r =>
      let s := r.collector.counts peer
      if hasActivity s then
        match throughput s.routesProcessed with
        | none => r
        | some throughputPerSec => report throughput peers (r.logPeer peer throughputPerSec)
      else report throughput peers r

end Reporter

inductive Event (κ : Type) where
  | received (peer : κ)
  | processed (peer : κ) (family : String)
  | error (peer : κ)
  | pass
  deriving DecidableEq, Repr

def step (throughput : Nat → Option Int) (r : Reporter κ) : Event κ → Reporter κ
  | .received peer => r.incrementReceived peer
  | .processed peer family => r.incrementProcessed peer family
  | .error peer => r.incrementError peer
  | .pass => r.report throughput r.peers

def run (throughput : Nat → Option Int) (events : List (Event κ)) : Reporter κ :=
  events.foldl (step throughput) .new

/-! ## Increments and periods -/

/-- The event is an increment of the counter of the peer. -/
def Event.increments (peer : κ) (counter : Counter) : Event κ → Bool
  | .received p => p = peer && counter = .received
  | .processed p family => p = peer && (counter = .processed || counter.family = some family)
  | .error p => p = peer && counter = .errors
  | .pass => false

/-- The event is an increment for a route of a family that has no counter. -/
def Event.ofOtherFamily (peer : κ) : Event κ → Bool
  | .processed p family =>
      p = peer && family ≠ "ipv4_unicast" && family ≠ "ipv6_unicast" && family ≠ "evpn"
  | .received _ | .error _ | .pass => false

/-- A run with the events since the last line of a peer. -/
def track (throughput : Nat → Option Int) (peer : κ) (t : Reporter κ × List (Event κ))
    (event : Event κ) : Reporter κ × List (Event κ) :=
  let r := step throughput t.1 event
  if (linesOf peer r.lines).length = (linesOf peer t.1.lines).length then (r, t.2 ++ [event])
  else (r, [])

/-- The current period of a peer: the events since its last line. -/
def period (throughput : Nat → Option Int) (peer : κ) (events : List (Event κ)) : List (Event κ) :=
  (events.foldl (track throughput peer) (.new, [])).2

/-! ## An increment -/

/-- An increment counts for its own peer only. -/
theorem current_increment {count : PeerStats κ → PeerStats κ} {counter : Counter} {n : Nat}
    (hcount : ∀ s, counter.current (count s) = counter.current s + n) (p peer : κ)
    (c : StatisticsCollector κ) :
    counter.current ((c.increment count p).counts peer) =
      counter.current (c.counts peer) + if p = peer then n else 0 := by
  by_cases hp : p = peer
  · rw [if_pos hp, ← hp, StatisticsCollector.counts_increment, hcount]
  · rw [if_neg hp, StatisticsCollector.counts_increment_of_ne _ (Ne.symm hp), Nat.add_zero]

theorem current_step (throughput : Nat → Option Int) (r : Reporter κ) {event : Event κ}
    (h : event ≠ .pass) (peer : κ) (counter : Counter) :
    counter.current ((step throughput r event).collector.counts peer) =
      counter.current (r.collector.counts peer) +
        if event.increments peer counter then 1 else 0 := by
  cases event with
  | received p =>
    apply (current_increment (current_incrementReceived counter) p peer r.collector).trans
    by_cases hp : p = peer <;> simp [Event.increments, hp]
  | processed p family =>
    apply (current_increment (current_incrementProcessed family counter) p peer r.collector).trans
    by_cases hp : p = peer <;> simp [Event.increments, hp]
  | error p =>
    apply (current_increment (current_incrementError counter) p peer r.collector).trans
    by_cases hp : p = peer <;> simp [Event.increments, hp]
  | pass => exact absurd rfl h

theorem lines_step (throughput : Nat → Option Int) (r : Reporter κ) {event : Event κ}
    (h : event ≠ .pass) : (step throughput r event).lines = r.lines := by
  cases event with
  | pass => exact absurd rfl h
  | _ => rfl

/-- An increment of the processed counter is one of a family counter, or of a family without. -/
theorem increments_processed (peer : κ) (event : Event κ) :
    (if event.increments peer .processed then 1 else 0) =
      (if event.increments peer .ipv4 then 1 else 0) +
        (if event.increments peer .ipv6 then 1 else 0) +
        (if event.increments peer .evpn then 1 else 0) +
        (if event.ofOtherFamily peer then 1 else 0) := by
  cases event with
  | processed p family =>
    by_cases hp : p = peer
    · by_cases h4 : family = "ipv4_unicast"
      · simp [Event.increments, Event.ofOtherFamily, Counter.family, hp, h4]
      · by_cases h6 : family = "ipv6_unicast"
        · simp [Event.increments, Event.ofOtherFamily, Counter.family, hp, h6]
        · by_cases he : family = "evpn"
          · simp [Event.increments, Event.ofOtherFamily, Counter.family, hp, he]
          · simp [Event.increments, Event.ofOtherFamily, Counter.family, hp, h4, h6, he,
              Ne.symm h4, Ne.symm h6, Ne.symm he]
    · simp [Event.increments, Event.ofOtherFamily, hp]
  | _ => simp [Event.increments, Event.ofOtherFamily]

theorem countP_processed (peer : κ) (events : List (Event κ)) :
    events.countP (Event.increments peer .processed) =
      events.countP (Event.increments peer .ipv4) + events.countP (Event.increments peer .ipv6) +
        events.countP (Event.increments peer .evpn) +
        events.countP (Event.ofOtherFamily peer) := by
  induction events with
  | nil => rfl
  | cons event events ih =>
    simp only [List.countP_cons, ih, increments_processed]
    omega

/-! ## A pass -/

theorem linesOf_cons (peer : κ) (line : RouteStatsLine κ) (lines : List (RouteStatsLine κ)) :
    linesOf peer (line :: lines) =
      if line.peer = peer then line :: linesOf peer lines else linesOf peer lines := by
  simp only [linesOf, List.filter_cons, decide_eq_true_iff]

theorem linesOf_append (peer : κ) (a b : List (RouteStatsLine κ)) :
    linesOf peer (a ++ b) = linesOf peer a ++ linesOf peer b := List.filter_append a b

/-- What a pass that logs `lines` does for a peer: nothing, or one line with its counters, which
are then zero. -/
inductive Passed (peer : κ) (r : Reporter κ) (lines : List (RouteStatsLine κ)) (r' : Reporter κ) :
    Prop where
  | skipped (hnone : linesOf peer lines = [])
      (hkept : r'.collector.counts peer = r.collector.counts peer)
  | logged (line : RouteStatsLine κ) (hone : linesOf peer lines = [line])
      (hactive : hasActivity (r.collector.counts peer) = true)
      (hlogged : ∀ counter : Counter, counter.logged line = counter.current (r.collector.counts peer))
      (hreset : ∀ counter : Counter, counter.current (r'.collector.counts peer) = 0)

theorem report_passed (throughput : Nat → Option Int) (peers : List κ) (r : Reporter κ) :
    ∃ lines, (r.report throughput peers).lines = r.lines ++ lines ∧
      ∀ peer, Passed peer r lines (r.report throughput peers) := by
  induction peers generalizing r with
  | nil => exact ⟨[], (List.append_nil _).symm, fun _ => .skipped rfl rfl⟩
  | cons head peers ih =>
    rw [Reporter.report]
    split_ifs with hactive
    · cases hthroughput : throughput (r.collector.counts head).routesProcessed with
      | none => exact ⟨[], (List.append_nil _).symm, fun _ => .skipped rfl rfl⟩
      | some throughputPerSec =>
        obtain ⟨lines, hlines, hpassed⟩ := ih (r.logPeer head throughputPerSec)
        refine ⟨routeStatsLine head (r.collector.counts head) throughputPerSec :: lines,
          hlines.trans (List.append_assoc _ _ _), fun peer => ?_⟩
        by_cases hpeer : head = peer
        · -- the peer is at zero now, so the rest of the pass skips it
          subst hpeer
          have hcounts : (r.logPeer head throughputPerSec).collector.counts head =
              (r.collector.counts head).reset := StatisticsCollector.counts_increment _ _ _
          cases hpassed head with
          | skipped hnone hkept =>
            refine .logged (routeStatsLine head (r.collector.counts head) throughputPerSec) ?_ hactive
              (fun counter => logged_routeStatsLine counter head _ throughputPerSec) ?_
            · rw [linesOf_cons, hnone]
              exact if_pos rfl
            · intro counter
              simp only
              rw [hkept, hcounts, current_reset]
          | logged line hone hactive' =>
            rw [hcounts, hasActivity_reset] at hactive'
            cases hactive'
        · have hcounts : (r.logPeer head throughputPerSec).collector.counts peer =
              r.collector.counts peer :=
            StatisticsCollector.counts_increment_of_ne _ (Ne.symm hpeer) _
          have hother : linesOf peer
              (routeStatsLine head (r.collector.counts head) throughputPerSec :: lines) =
              linesOf peer lines := by
            rw [linesOf_cons]
            exact if_neg hpeer
          cases hpassed peer with
          | skipped hnone hkept => exact .skipped (hother.trans hnone) (hkept.trans hcounts)
          | logged line hone hactive' hlogged hreset =>
            rw [hcounts] at hactive' hlogged
            exact .logged line (hother.trans hone) hactive' hlogged hreset
    · exact ih r

/-- Each line of a pass holds the counters its peer had before the pass. -/
theorem logged_of_passed {r r' : Reporter κ} {lines : List (RouteStatsLine κ)}
    (hpassed : ∀ peer, Passed peer r lines r') {line : RouteStatsLine κ} (hline : line ∈ lines)
    (counter : Counter) :
    counter.logged line = counter.current (r.collector.counts line.peer) := by
  have hmem : line ∈ linesOf line.peer lines :=
    List.mem_filter.mpr ⟨hline, decide_eq_true rfl⟩
  cases hpassed line.peer with
  | skipped hnone =>
    rw [hnone] at hmem
    cases hmem
  | logged line' hone _ hlogged =>
    rw [hone, List.mem_singleton] at hmem
    rw [hmem] at hlogged ⊢
    exact hlogged counter

/-! ## Totals -/

/-- A pass moves what a counter holds into the log. -/
theorem total_report (throughput : Nat → Option Int) (peers : List κ) (r : Reporter κ) (peer : κ)
    (counter : Counter) : (r.report throughput peers).total peer counter = r.total peer counter := by
  obtain ⟨lines, hlines, hpassed⟩ := report_passed throughput peers r
  rw [Reporter.total, Reporter.total, hlines, linesOf_append, List.map_append, List.sum_append]
  cases hpassed peer with
  | skipped hnone hkept =>
    rw [hkept, hnone]
    rfl
  | logged line hone _ hlogged hreset =>
    rw [hreset, hone, List.map_singleton, List.sum_singleton, hlogged]
    rfl

theorem total_count {count : PeerStats κ → PeerStats κ} {counter : Counter} {n : Nat}
    (hcount : ∀ s, counter.current (count s) = counter.current s + n) (p peer : κ) (r : Reporter κ) :
    (r.count (fun p c => c.increment count p) p).total peer counter =
      r.total peer counter + if p = peer then n else 0 := by
  rw [Reporter.total, Reporter.total, Reporter.count, current_increment hcount, Nat.add_assoc]

theorem total_removePeer {peer p : κ} (h : peer ≠ p) (r : Reporter κ) (counter : Counter) :
    (r.removePeer p).total peer counter = r.total peer counter := by
  rw [Reporter.total, Reporter.removePeer, StatisticsCollector.counts, StatisticsCollector.removePeer_stats,
    Function.update_of_ne h]
  rfl

/-- The totals of a peer have grown by so much, and those of the others are as they were. -/
structure Reporter.Grown (peer : κ) (received processed errors : Nat) (r r' : Reporter κ) : Prop where
  received : r'.total peer .received = r.total peer .received + received
  processed : r'.total peer .processed = r.total peer .processed + processed
  errors : r'.total peer .errors = r.total peer .errors + errors
  others : ∀ p, p ≠ peer → ∀ counter, r'.total p counter = r.total p counter

section Grown

variable {peer : κ} {r r' r'' : Reporter κ}

theorem Reporter.Grown.refl (peer : κ) (r : Reporter κ) : r.Grown peer 0 0 0 r :=
  ⟨rfl, rfl, rfl, fun _ _ _ => rfl⟩

theorem Reporter.Grown.trans {m n e m' n' e' : Nat} (h : r.Grown peer m n e r')
    (h' : r'.Grown peer m' n' e' r'') : r.Grown peer (m + m') (n + n') (e + e') r'' where
  received := by rw [h'.received, h.received, Nat.add_assoc]
  processed := by rw [h'.processed, h.processed, Nat.add_assoc]
  errors := by rw [h'.errors, h.errors, Nat.add_assoc]
  others := fun p hp counter => (h'.others p hp counter).trans (h.others p hp counter)

/-- An increment, by what it adds to each counter. -/
theorem grown_count {count : PeerStats κ → PeerStats κ} {n : Counter → Nat}
    (hcount : ∀ counter s, Counter.current counter (count s) = counter.current s + n counter) (peer : κ)
    (r : Reporter κ) :
    r.Grown peer (n .received) (n .processed) (n .errors) (r.count (fun p c => c.increment count p) peer) where
  received := by rw [total_count (hcount _), if_pos rfl]
  processed := by rw [total_count (hcount _), if_pos rfl]
  errors := by rw [total_count (hcount _), if_pos rfl]
  others := fun p hp counter => by rw [total_count (hcount _), if_neg (Ne.symm hp), Nat.add_zero]

theorem grown_received (peer : κ) (r : Reporter κ) : r.Grown peer 1 0 0 (r.incrementReceived peer) :=
  grown_count current_incrementReceived peer r

theorem grown_processed (peer : κ) (family : String) (r : Reporter κ) :
    r.Grown peer 0 1 0 (r.incrementProcessed peer family) :=
  grown_count (current_incrementProcessed family) peer r

theorem grown_error (peer : κ) (r : Reporter κ) : r.Grown peer 0 0 1 (r.incrementError peer) :=
  grown_count current_incrementError peer r

end Grown

/-! ## Periods -/

section Runs

variable (throughput : Nat → Option Int)

theorem run_append (events : List (Event κ)) (event : Event κ) :
    run throughput (events ++ [event]) = step throughput (run throughput events) event := by
  rw [run, List.foldl_append]
  rfl

/-- A pass is the end of a period when it logs the peer. -/
theorem period_append (peer : κ) (events : List (Event κ)) (event : Event κ) :
    period throughput peer (events ++ [event]) =
      if (linesOf peer (run throughput (events ++ [event])).lines).length =
          (linesOf peer (run throughput events).lines).length then
        period throughput peer events ++ [event]
      else [] := by
  have hrun : ∀ events : List (Event κ),
      (events.foldl (track throughput peer) (.new, [])).1 = run throughput events := by
    intro events
    induction events using List.reverseRecOn with
    | nil => rfl
    | append_singleton events event ih =>
      rw [run_append, ← ih, List.foldl_append, List.foldl_cons, List.foldl_nil, track]
      split <;> rfl
  rw [run_append, ← hrun, period, List.foldl_append, List.foldl_cons, List.foldl_nil, track]
  split <;> rfl

/-- Every counter holds the increments of the current period. -/
theorem current_eq_countP (peer : κ) (counter : Counter) (events : List (Event κ)) :
    counter.current ((run throughput events).collector.counts peer) =
      (period throughput peer events).countP (Event.increments peer counter) := by
  induction events using List.reverseRecOn with
  | nil => cases counter <;> rfl
  | append_singleton events event ih =>
    rw [period_append]
    by_cases hpass : event = .pass
    · subst hpass
      obtain ⟨lines, hlines, hpassed⟩ :=
        report_passed throughput (run throughput events).peers (run throughput events)
      rw [run_append, step, hlines, linesOf_append]
      cases hpassed peer with
      | skipped hnone hkept =>
        rw [hkept, hnone, List.append_nil, if_pos rfl, List.countP_append, ih]
        rfl
      | logged line hone _ _ hreset =>
        rw [hreset, hone, List.length_append, if_neg (by simp)]
        rfl
    · rw [run_append, lines_step throughput _ hpass, if_pos rfl, current_step throughput _ hpass, ih,
        List.countP_append, List.countP_singleton]

/-- No increment is lost and none is counted twice. -/
theorem sum_logged_add_current (peer : κ) (counter : Counter) (events : List (Event κ)) :
    ((linesOf peer (run throughput events).lines).map counter.logged).sum +
        counter.current ((run throughput events).collector.counts peer) =
      events.countP (Event.increments peer counter) := by
  induction events using List.reverseRecOn with
  | nil => cases counter <;> rfl
  | append_singleton events event ih =>
    rw [List.countP_append, ← ih]
    by_cases hpass : event = .pass
    · subst hpass
      rw [run_append]
      exact total_report throughput (run throughput events).peers (run throughput events) peer counter
    · rw [run_append, lines_step throughput _ hpass, current_step throughput _ hpass,
        List.countP_singleton, Nat.add_assoc]

/-- The counters of a period add up. -/
theorem processed_eq (peer : κ) (events : List (Event κ)) :
    let s := (run throughput events).collector.counts peer
    s.routesProcessed = s.ipv4Routes + s.ipv6Routes + s.evpnRoutes +
      (period throughput peer events).countP (Event.ofOtherFamily peer) := by
  have hcurrent := fun counter => current_eq_countP throughput peer counter events
  have hprocessed := countP_processed peer (period throughput peer events)
  rw [← hcurrent, ← hcurrent, ← hcurrent, ← hcurrent] at hprocessed
  exact hprocessed

/-- A peer that the test skips has nothing in any of its counters. -/
theorem current_of_not_hasActivity (peer : κ) (events : List (Event κ))
    (h : hasActivity ((run throughput events).collector.counts peer) = false) (counter : Counter) :
    counter.current ((run throughput events).collector.counts peer) = 0 := by
  have hprocessed := processed_eq throughput peer events
  simp only [hasActivity, Bool.or_eq_false_iff, decide_eq_false_iff_not, Nat.not_lt,
    Nat.le_zero] at h
  cases counter <;> simp only [Counter.current] <;> omega

/-- Every line was logged by some pass, for the period of its peer that ended there. -/
theorem line_processed_eq (events : List (Event κ)) {i : Nat} {line : RouteStatsLine κ}
    (hline : (run throughput events).lines[i]? = some line) :
    ∃ before after, events = before ++ .pass :: after ∧
      (run throughput before).lines.length ≤ i ∧
      i < (run throughput (before ++ [.pass])).lines.length ∧
      line.processed = line.ipv4 + line.ipv6 + line.evpn +
        (period throughput line.peer before).countP (Event.ofOtherFamily line.peer) := by
  induction events using List.reverseRecOn with
  | nil => cases hline
  | append_singleton events event ih =>
    by_cases hpass : event = .pass
    · subst hpass
      obtain ⟨lines, hlines, hpassed⟩ :=
        report_passed throughput (run throughput events).peers (run throughput events)
      rw [run_append, step, hlines] at hline
      rcases Nat.lt_or_ge i (run throughput events).lines.length with hi | hi
      · rw [List.getElem?_append_left hi] at hline
        obtain ⟨before, after, hsplit, hbefore, hafter, hprocessed⟩ := ih hline
        refine ⟨before, after ++ [.pass], ?_, hbefore, hafter, hprocessed⟩
        rw [hsplit, List.append_assoc, List.cons_append]
      · have hlength := (List.getElem?_eq_some_iff.mp hline).1
        rw [List.getElem?_append_right hi] at hline
        have hlogged := logged_of_passed hpassed (List.mem_of_getElem? hline)
        refine ⟨events, [], rfl, hi, ?_, ?_⟩
        · rw [run_append, step, hlines]
          exact hlength
        · have hprocessed := processed_eq throughput line.peer events
          rw [show line.processed = _ from hlogged .processed, show line.ipv4 = _ from hlogged .ipv4,
            show line.ipv6 = _ from hlogged .ipv6, show line.evpn = _ from hlogged .evpn]
          exact hprocessed
    · rw [run_append, lines_step throughput _ hpass] at hline
      obtain ⟨before, after, hsplit, hbefore, hafter, hprocessed⟩ := ih hline
      refine ⟨before, after ++ [event], ?_, hbefore, hafter, hprocessed⟩
      rw [hsplit, List.append_assoc, List.cons_append]

/-- What has been logged and what is counted add up to the increments, for each peer and counter;
the processed routes of a period are those of the three families and those of any other. -/
theorem reports_conserve (events : List (Event κ)) :
    (∀ peer counter,
      ((linesOf peer (run throughput events).lines).map counter.logged).sum +
          counter.current ((run throughput events).collector.counts peer) =
        events.countP (Event.increments peer counter)) ∧
    (∀ peer,
      ((run throughput events).collector.counts peer).routesProcessed =
        ((run throughput events).collector.counts peer).ipv4Routes +
          ((run throughput events).collector.counts peer).ipv6Routes +
          ((run throughput events).collector.counts peer).evpnRoutes +
          (period throughput peer events).countP (Event.ofOtherFamily peer)) ∧
    ∀ i line, (run throughput events).lines[i]? = some line →
      ∃ before after, events = before ++ .pass :: after ∧
        (run throughput before).lines.length ≤ i ∧
        i < (run throughput (before ++ [.pass])).lines.length ∧
        line.processed = line.ipv4 + line.ipv6 + line.evpn +
          (period throughput line.peer before).countP (Event.ofOtherFamily line.peer) :=
  ⟨fun peer counter => sum_logged_add_current throughput peer counter events,
    fun peer => processed_eq throughput peer events,
    fun _ _ => line_processed_eq throughput events⟩

/-! ## No peer is forgotten -/

theorem stats_increment {count : PeerStats κ → PeerStats κ} {p peer : κ}
    {c : StatisticsCollector κ} (h : ((c.increment count p).stats peer).isSome = true) :
    peer = p ∨ (c.stats peer).isSome = true := by
  by_cases hp : peer = p
  · exact .inl hp
  · rw [StatisticsCollector.increment_stats, Function.update_of_ne hp] at h
    exact .inr h

/-- The loop over `_stats` comes to every key. -/
def Listed (r : Reporter κ) : Prop :=
  ∀ peer, (r.collector.stats peer).isSome = true → peer ∈ r.peers

theorem listed_count {r : Reporter κ} (hr : Listed r) (count : PeerStats κ → PeerStats κ)
    (p : κ) : Listed (r.count (fun p c => c.increment count p) p) := by
  intro peer hpeer
  show peer ∈ if (r.collector.stats p).isSome then r.peers else r.peers ++ [p]
  split
  · rename_i hp
    rcases stats_increment hpeer with rfl | hold
    · exact hr _ hp
    · exact hr _ hold
  · rcases stats_increment hpeer with rfl | hold
    · exact List.mem_append_right _ (List.mem_singleton_self _)
    · exact List.mem_append_left _ (hr _ hold)

theorem listed_report {peers : List κ} {r : Reporter κ} (hpeers : ∀ peer ∈ peers, peer ∈ r.peers)
    (hr : Listed r) : Listed (r.report throughput peers) := by
  induction peers generalizing r with
  | nil => exact hr
  | cons head peers ih =>
    have hrest := fun peer hpeer => hpeers peer (List.mem_cons_of_mem head hpeer)
    rw [Reporter.report]
    split_ifs
    · cases throughput (r.collector.counts head).routesProcessed with
      | none => exact hr
      | some throughputPerSec =>
        refine ih hrest fun peer hpeer => ?_
        rcases stats_increment hpeer with rfl | hold
        · exact hpeers _ List.mem_cons_self
        · exact hr _ hold
    · exact ih hrest hr

theorem listed_run (events : List (Event κ)) : Listed (run throughput events) := by
  induction events using List.reverseRecOn with
  | nil => exact fun _ hpeer => absurd hpeer Bool.false_ne_true
  | append_singleton events event ih =>
    rw [run_append]
    cases event with
    | received p => exact listed_count ih _ p
    | processed p family => exact listed_count ih _ p
    | error p => exact listed_count ih _ p
    | pass => exact listed_report throughput (fun _ => id) ih

/-- A peer without activity has none after the pass. -/
theorem quiet_report (peers : List κ) {r : Reporter κ} {peer : κ}
    (h : hasActivity (r.collector.counts peer) = false) :
    hasActivity ((r.report throughput peers).collector.counts peer) = false := by
  obtain ⟨lines, -, hpassed⟩ := report_passed throughput peers r
  cases hpassed peer with
  | skipped _ hkept => rw [hkept, h]
  | logged _ _ hactive => exact absurd (h.symm.trans hactive) Bool.false_ne_true

theorem quiet_of_mem (hthroughput : ∀ n, (throughput n).isSome = true) {peers : List κ} {peer : κ}
    (hpeer : peer ∈ peers) (r : Reporter κ) :
    hasActivity ((r.report throughput peers).collector.counts peer) = false := by
  induction peers generalizing r with
  | nil => cases hpeer
  | cons head peers ih =>
    rw [Reporter.report]
    split_ifs with hactive
    · obtain ⟨throughputPerSec, hsome⟩ :=
        Option.isSome_iff_exists.mp (hthroughput (r.collector.counts head).routesProcessed)
      rw [hsome]
      rcases List.mem_cons.mp hpeer with rfl | hrest
      · refine quiet_report throughput peers ?_
        show hasActivity ((r.collector.increment PeerStats.reset peer).counts peer) = false
        rw [StatisticsCollector.counts_increment, hasActivity_reset]
      · exact ih hrest _
    · rcases List.mem_cons.mp hpeer with rfl | hrest
      · exact quiet_report throughput peers (Bool.eq_false_iff.mpr hactive)
      · exact ih hrest r

/-- After a pass that raises nothing, every counter of every peer has been logged. -/
theorem current_pass (hthroughput : ∀ n, (throughput n).isSome = true) (events : List (Event κ))
    (peer : κ) (counter : Counter) :
    counter.current ((run throughput (events ++ [.pass])).collector.counts peer) = 0 := by
  refine current_of_not_hasActivity throughput peer (events ++ [.pass]) ?_ counter
  rw [run_append]
  by_cases hpeer : peer ∈ (run throughput events).peers
  · exact quiet_of_mem throughput hthroughput hpeer _
  · refine quiet_report throughput _ ?_
    have hnone : (run throughput events).collector.stats peer = none :=
      Option.not_isSome_iff_eq_none.mp fun hsome =>
        hpeer (listed_run throughput events peer hsome)
    rw [StatisticsCollector.counts, hnone]
    rfl

end Runs

end Pybmpmon.Monitoring.Reports
