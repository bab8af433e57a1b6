import Mathlib.Logic.Function.Basic
import Pybmpmon.Models.Route
import Pybmpmon.Protocol.Bmp

/-!
# The tables of the BMP peers

`BMPPeer` and `PeerEvent` of `models/bmp_peer.py`, and what `database/operations.py` does
with them. `bmp_peers` has one row for each address at most, `peer_events` is written only.
-/
namespace Pybmpmon.Database.BmpPeers

open Pybmpmon.Python Pybmpmon.Models.Route Pybmpmon.Protocol.Bmp

structure BMPPeer where
  peerIp : IpAddress
  routerId : Option IpAddress
  firstSeen : Timestamp
  lastSeen : Timestamp
  isActive : Bool
  deriving DecidableEq, Repr

inductive EventType where
  | peerUp
  | peerDown
  deriving DecidableEq, Repr

structure PeerEvent where
  time : Timestamp
  peerIp : IpAddress
  eventType : EventType
  reasonCode : Option BMPPeerDownReason
  deriving DecidableEq, Repr

structure PeerTables where
  bmpPeers : IpAddress → Option BMPPeer
  peerEvents : List PeerEvent

namespace PeerTables

def empty : PeerTables := ⟨fun _ => none, []⟩

/-- `INSERT … ON CONFLICT (peer_ip) DO UPDATE SET`. -/
def upsertBmpPeer (peer : BMPPeer) (t : PeerTables) : PeerTables :=
  let row :=
    match t.bmpPeers peer.peerIp with
    | none => peer
    | some old =>
        { old with routerId := peer.routerId, lastSeen := peer.lastSeen, isActive := peer.isActive }
  { t with bmpPeers := Function.update t.bmpPeers peer.peerIp (some row) }

/-- `UPDATE bmp_peers SET … WHERE peer_ip = $1`. -/
def updateBmpPeer (peerIp : IpAddress) (set : BMPPeer → BMPPeer) (t : PeerTables) : PeerTables :=
  { t with bmpPeers := Function.update t.bmpPeers peerIp ((t.bmpPeers peerIp).map set) }

def markPeerInactive (peerIp : IpAddress) (now : Timestamp) (t : PeerTables) : PeerTables :=
  t.updateBmpPeer peerIp fun r => { r with isActive := false, lastSeen := now }

def updatePeerLastSeen (peerIp : IpAddress) (now : Timestamp) (t : PeerTables) : PeerTables :=
  t.updateBmpPeer peerIp fun r => { r with lastSeen := now }

def insertPeerEvent (event : PeerEvent) (t : PeerTables) : PeerTables :=
  { t with peerEvents := t.peerEvents ++ [event] }

/-- `is_active` of the row of an address, if it exists. -/
def active (t : PeerTables) (peerIp : IpAddress) : Option Bool :=
  (t.bmpPeers peerIp).map BMPPeer.isActive

@[simp] theorem active_upsert (peer : BMPPeer) (t : PeerTables) :
    (t.upsertBmpPeer peer).active peer.peerIp = some peer.isActive := by
  unfold active upsertBmpPeer
  dsimp only
  rw [Function.update_self]
  cases t.bmpPeers peer.peerIp <;> rfl

theorem active_update (peerIp : IpAddress) (set : BMPPeer → BMPPeer) (t : PeerTables) :
    (t.updateBmpPeer peerIp set).active peerIp =
      (t.bmpPeers peerIp).map fun r => (set r).isActive := by
  unfold active updateBmpPeer
  dsimp only
  rw [Function.update_self, Option.map_map]
  rfl

@[simp] theorem active_markPeerInactive (peerIp : IpAddress) (now : Timestamp) (t : PeerTables) :
    (t.markPeerInactive peerIp now).active peerIp = (t.active peerIp).map fun _ => false := by
  rw [markPeerInactive, active_update, active, Option.map_map]
  rfl

@[simp] theorem active_updatePeerLastSeen (peerIp : IpAddress) (now : Timestamp) (t : PeerTables) :
    (t.updatePeerLastSeen peerIp now).active peerIp = t.active peerIp := by
  rw [updatePeerLastSeen, active_update]
  rfl

@[simp] theorem active_insertPeerEvent (event : PeerEvent) (t : PeerTables) (peerIp : IpAddress) :
    (t.insertPeerEvent event).active peerIp = t.active peerIp := rfl

end PeerTables

end Pybmpmon.Database.BmpPeers
