import Mathlib.Logic.Function.Basic
import Mathlib.Tactic.SplitIfs

/-!
# Statistics per BMP peer

`PeerStats` and `StatisticsCollector` of `monitoring/stats.py`. The dict `_stats` is a
map from addresses, of any type; an entry is made by the first count for its address.
-/
namespace Pybmpmon.Monitoring.Stats

variable {κ : Type}

structure PeerStats (κ : Type) where
  peerIp : κ
  routesReceived : Nat
  routesProcessed : Nat
  ipv4Routes : Nat
  ipv6Routes : Nat
  evpnRoutes : Nat
  errors : Nat
  deriving DecidableEq, Repr

namespace PeerStats

/-- `PeerStats(peer_ip=peer_ip)`. -/
def new (peerIp : κ) : PeerStats κ := ⟨peerIp, 0, 0, 0, 0, 0, 0⟩

def incrementReceived (s : PeerStats κ) : PeerStats κ :=
  { s with routesReceived := s.routesReceived + 1 }

def incrementProcessed (family : String) (s : PeerStats κ) : PeerStats κ :=
  let s := { s with routesProcessed := s.routesProcessed + 1 }
  if family = "ipv4_unicast" then { s with ipv4Routes := s.ipv4Routes + 1 }
  else if family = "ipv6_unicast" then { s with ipv6Routes := s.ipv6Routes + 1 }
  else if family = "evpn" then { s with evpnRoutes := s.evpnRoutes + 1 }
  else s

def incrementError (s : PeerStats κ) : PeerStats κ := { s with errors := s.errors + 1 }

def reset (s : PeerStats κ) : PeerStats κ :=
  { s with
    routesReceived := 0
    routesProcessed := 0
    ipv4Routes := 0
    ipv6Routes := 0
    evpnRoutes := 0
    errors := 0 }

@[simp] theorem incrementProcessed_routesReceived (family : String) (s : PeerStats κ) :
    (s.incrementProcessed family).routesReceived = s.routesReceived := by
  unfold incrementProcessed
  split_ifs <;> rfl

@[simp] theorem incrementProcessed_errors (family : String) (s : PeerStats κ) :
    (s.incrementProcessed family).errors = s.errors := by
  unfold incrementProcessed
  split_ifs <;> rfl

end PeerStats

structure StatisticsCollector (κ : Type) where
  stats : κ → Option (PeerStats κ)

namespace StatisticsCollector

variable [DecidableEq κ]

/-- The entry of a peer, and the collector that has it. -/
def getPeerStats (peerIp : κ) (c : StatisticsCollector κ) : PeerStats κ × StatisticsCollector κ :=
  match c.stats peerIp with
  | some s => (s, c)
  | none => (.new peerIp, ⟨Function.update c.stats peerIp (some (.new peerIp))⟩)

/-- An increment gets the entry and counts in it. -/
def increment (count : PeerStats κ → PeerStats κ) (peerIp : κ) (c : StatisticsCollector κ) :
    StatisticsCollector κ :=
  let (s, c) := c.getPeerStats peerIp
  ⟨Function.update c.stats peerIp (some (count s))⟩

def incrementReceived (peerIp : κ) (c : StatisticsCollector κ) : StatisticsCollector κ :=
  c.increment PeerStats.incrementReceived peerIp

def incrementProcessed (peerIp : κ) (family : String) (c : StatisticsCollector κ) :
    StatisticsCollector κ :=
  c.increment (PeerStats.incrementProcessed family) peerIp

def incrementError (peerIp : κ) (c : StatisticsCollector κ) : StatisticsCollector κ :=
  c.increment PeerStats.incrementError peerIp

def removePeer (peerIp : κ) (c : StatisticsCollector κ) : StatisticsCollector κ :=
  if (c.stats peerIp).isSome then ⟨Function.update c.stats peerIp none⟩ else c

/-- The counts of a peer, none of them before its first. -/
def counts (c : StatisticsCollector κ) (peerIp : κ) : PeerStats κ :=
  (c.stats peerIp).getD (.new peerIp)

theorem increment_stats (count : PeerStats κ → PeerStats κ) (peerIp : κ)
    (c : StatisticsCollector κ) :
    (c.increment count peerIp).stats =
      Function.update c.stats peerIp (some (count (c.counts peerIp))) := by
  unfold increment getPeerStats counts
  cases c.stats peerIp with
  | some s => rfl
  | none => exact Function.update_idem _ _ _

theorem counts_increment (count : PeerStats κ → PeerStats κ) (peerIp : κ)
    (c : StatisticsCollector κ) :
    (c.increment count peerIp).counts peerIp = count (c.counts peerIp) := by
  rw [counts, increment_stats, Function.update_self, Option.getD_some]

theorem counts_increment_of_ne (count : PeerStats κ → PeerStats κ) {peerIp peer : κ}
    (h : peer ≠ peerIp) (c : StatisticsCollector κ) :
    (c.increment count peerIp).counts peer = c.counts peer := by
  rw [counts, increment_stats, Function.update_of_ne h, counts]

@[simp] theorem counts_incrementReceived (peerIp : κ) (c : StatisticsCollector κ) :
    (c.incrementReceived peerIp).counts peerIp = (c.counts peerIp).incrementReceived :=
  counts_increment _ peerIp c

@[simp] theorem counts_incrementProcessed (peerIp : κ) (family : String)
    (c : StatisticsCollector κ) :
    (c.incrementProcessed peerIp family).counts peerIp =
      (c.counts peerIp).incrementProcessed family := counts_increment _ peerIp c

@[simp] theorem counts_incrementError (peerIp : κ) (c : StatisticsCollector κ) :
    (c.incrementError peerIp).counts peerIp = (c.counts peerIp).incrementError :=
  counts_increment _ peerIp c

theorem removePeer_stats (peerIp : κ) (c : StatisticsCollector κ) :
    (c.removePeer peerIp).stats = Function.update c.stats peerIp none := by
  unfold removePeer
  cases hs : c.stats peerIp with
  | some s => rfl
  | none =>
    show c.stats = _
    rw [← hs, Function.update_eq_self]

end StatisticsCollector

end Pybmpmon.Monitoring.Stats
