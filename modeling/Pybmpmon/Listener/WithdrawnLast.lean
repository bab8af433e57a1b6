import Pybmpmon.Database.StateHistory
import Pybmpmon.Database.StateRows
import Pybmpmon.Protocol.AttributeEncoding

/-!
# A prefix in both lists of an UPDATE

The handler queues the announced prefixes first and the withdrawn ones after them, so
the withdrawal of a prefix in both lists is its last record, and the row of the route
is left withdrawn.
-/
namespace Pybmpmon.Listener.WithdrawnLast

open Pybmpmon.Lib.ByteString Pybmpmon.Lib.KeyedTable Pybmpmon.Python
open Pybmpmon.Protocol.Bmp Pybmpmon.Protocol.Bgp Pybmpmon.Protocol.BmpParser
open Pybmpmon.Protocol.BgpParser Pybmpmon.Protocol.BmpEncoding Pybmpmon.Protocol.UpdateEncoding
open Pybmpmon.Protocol.ValueEncoding Pybmpmon.Protocol.AttributeEncoding
open Pybmpmon.Protocol.UpdateWalk
open Pybmpmon.Models.Route Pybmpmon.Listener.RouteMonitoring Pybmpmon.Database.BatchWriter
open Pybmpmon.Database.RouteState Pybmpmon.Database.StateTable Pybmpmon.Database.StateHistory
open Pybmpmon.Database.StateRows

/-- Both lists have the prefix. An entry is of one family: that of its addresses, or EVPN. -/
def InBoth (update : ParsedBGPUpdate) (entry : PrefixEntry) : Prop :=
  entry ∈ update.prefixes ∧ entry ∈ update.withdrawnPrefixes

instance (update : ParsedBGPUpdate) (entry : PrefixEntry) : Decidable (InBoth update entry) :=
  inferInstanceAs (Decidable (_ ∧ _))

/-- The records queued for a prefix, in order. The two loops queue one for each entry. -/
def recordsFor (update : ParsedBGPUpdate) (entry : PrefixEntry) (queue : List RouteUpdate) :
    List RouteUpdate :=
  (((update.prefixes ++ update.withdrawnPrefixes).zip queue).filter fun p => p.1 = entry).map Prod.snd

/-- What the table says of the route of a record after some calls. -/
def recordedWithdrawn (calls : List StateCall) (route : RouteUpdate) : Option Bool :=
  (row rowKey (callKey (stateCall (routeTuple route))) (tableAfter calls)).map StateRow.isWithdrawn

/-- The queue is the records of the announced entries and then those of the withdrawn ones. -/
theorem routeUpdates_split (clock : Nat → Timestamp) (bmpPeerIp : IpAddress)
    (message : BMPRouteMonitoringMessage) (update : ParsedBGPUpdate) :
    ∃ announced withdrawn, routeUpdates clock bmpPeerIp message update = announced ++ withdrawn ∧
      announced.length = update.prefixes.length ∧
      withdrawn.length = update.withdrawnPrefixes.length ∧
      (∀ route ∈ announced, route.isWithdrawn = false) ∧
      ∀ route ∈ withdrawn, route.isWithdrawn = true := by
  rw [routeUpdates, built_append]
  refine ⟨_, _, rfl, ?_, ?_, ?_, ?_⟩
  · rw [built_length, List.length_map]
  · rw [built_length, List.length_map]
  · intro route hroute
    obtain ⟨build, hbuild, t, rfl⟩ := mem_built hroute
    obtain ⟨entry, _, rfl⟩ := List.mem_map.mp hbuild
    rfl
  · intro route hroute
    obtain ⟨build, hbuild, t, rfl⟩ := mem_built hroute
    obtain ⟨entry, _, rfl⟩ := List.mem_map.mp hbuild
    rfl

/-- The last record of a prefix in the withdrawn list is one of the second loop. -/
theorem last_recordsFor {update : ParsedBGPUpdate} {entry : PrefixEntry}
    {announced withdrawn : List RouteUpdate} (hannounced : announced.length = update.prefixes.length)
    (hwithdrawn : withdrawn.length = update.withdrawnPrefixes.length)
    (hentry : entry ∈ update.withdrawnPrefixes) :
    ∃ route ∈ withdrawn, (recordsFor update entry (announced ++ withdrawn)).getLast? = some route := by
  obtain ⟨k, hk, hat⟩ := List.mem_iff_getElem.mp hentry
  have hmem : (entry, withdrawn[k]) ∈
      (update.withdrawnPrefixes.zip withdrawn).filter fun p => p.1 = entry := by
    rw [List.mem_filter]
    refine ⟨?_, by simp⟩
    rw [List.mem_iff_getElem]
    exact ⟨k, by rw [List.length_zip]; omega, by rw [List.getElem_zip, hat]⟩
  obtain ⟨last, hlast⟩ := Option.isSome_iff_exists.mp
    (List.getLast?_isSome.mpr (List.ne_nil_of_mem hmem))
  have hzip := List.mem_of_mem_filter (List.mem_of_getLast? hlast)
  refine ⟨last.2, (List.of_mem_zip hzip).2, ?_⟩
  rw [recordsFor, List.zip_append hannounced.symm, List.filter_append, List.map_append,
    List.getLast?_append, List.getLast?_map, hlast]
  rfl

/-- The last call of a route is a withdrawal when the calls end with withdrawals, one of them of
the route. -/
theorem historyOf_last {before : List StateCall} {withdrawn : List RouteUpdate} {route : RouteUpdate}
    (hall : ∀ x ∈ withdrawn, x.isWithdrawn = true) (hroute : route ∈ withdrawn) :
    (historyOf (callKey (stateCall (routeTuple route))) (before ++ stateCalls withdrawn)).getLast?.map
      StateCall.isWithdrawn = some true := by
  have hmem : stateCall (routeTuple route) ∈
      historyOf (callKey (stateCall (routeTuple route))) (stateCalls withdrawn) :=
    List.mem_filter.mpr ⟨List.mem_map.mpr ⟨route, hroute, rfl⟩, by simp⟩
  obtain ⟨last, hlast⟩ := Option.isSome_iff_exists.mp
    (List.getLast?_isSome.mpr (List.ne_nil_of_mem hmem))
  obtain ⟨x, hx, rfl⟩ := List.mem_map.mp (List.mem_of_mem_filter (List.mem_of_getLast? hlast))
  rw [historyOf, List.filter_append, ← historyOf, ← historyOf, List.getLast?_append, hlast]
  exact congrArg some (hall x hx)

/-- The row of an indexed route says what the last call of the route said, while the counters
have room. -/
theorem recordedWithdrawn_last {calls : List StateCall} {route : RouteUpdate} {withdrawn : Bool}
    (hindexed : Indexed route.family route.prefixCidr)
    (hcount : Countable (historyOf (callKey (stateCall (routeTuple route))) calls))
    (hlast : (historyOf (callKey (stateCall (routeTuple route))) calls).getLast?.map
      StateCall.isWithdrawn = some withdrawn) :
    recordedWithdrawn calls route = some withdrawn := by
  have hne : historyOf (callKey (stateCall (routeTuple route))) calls ≠ [] := by
    intro hnil
    rw [hnil] at hlast
    cases hlast
  obtain ⟨r, hrow, hsum⟩ := track_summarises hne hcount
  rw [recordedWithdrawn, row_tableAfter_any calls hindexed]
  rw [historyOf] at hrow
  rw [hrow, Option.map_some, ← hsum.isWithdrawn, hlast]

/-- Whenever a prefix is in both lists of an accepted UPDATE, its last queued record is a withdrawal,
and the row of its route is withdrawn once the queue is written, whatever was written before. -/
theorem both_lists_withdrawn {data : Bytes} {message : BMPRouteMonitoringMessage}
    {update : ParsedBGPUpdate} {entry : PrefixEntry}
    (hmessage : parseRouteMonitoringMessage data = .ok message)
    (hupdate : parseBgpUpdate message.bgpUpdate = .ok update) (hboth : InBoth update entry)
    (clock : Nat → Timestamp) (bmpPeerIp : IpAddress) :
    let queue := (handleRouteMonitoring recorder clock data bmpPeerIp []).2
    ∃ route, (recordsFor update entry queue).getLast? = some route ∧ route.isWithdrawn = true ∧
      ∀ before, Indexed route.family route.prefixCidr →
        Countable (historyOf (callKey (stateCall (routeTuple route))) (before ++ stateCalls queue)) →
        recordedWithdrawn (before ++ stateCalls queue) route = some true := by
  obtain ⟨announced, withdrawn, hqueue, hannounced, hwithdrawn, -, hall⟩ :=
    routeUpdates_split clock bmpPeerIp message update
  obtain ⟨route, hroute, hlast⟩ := last_recordsFor hannounced hwithdrawn hboth.2
  rw [handleRouteMonitoring_recorder hmessage hupdate, hqueue]
  refine ⟨route, hlast, hall route hroute, fun before hindexed hcount => ?_⟩
  refine recordedWithdrawn_last hindexed hcount ?_
  rw [show stateCalls (announced ++ withdrawn) = stateCalls announced ++ stateCalls withdrawn from
    List.map_append, ← List.append_assoc]
  exact historyOf_last hall hroute

/-- 10.0.0.0/8 as it is sent. -/
def ten : WirePrefix 32 := ⟨8, [10], Nat.le_of_ble_eq_true rfl, rfl⟩

/-- An UPDATE that withdraws 10.0.0.0/8 and announces it. -/
def replacement : Bytes :=
  encodeUpdate (encodePrefixes [ten]) [] (encodePrefixes [ten])

theorem both_lists_withdrawn_replacement :
    let queue := (handleRouteMonitoring recorder (fun k => k)
      (encodeRouteMonitoring samplePeer replacement) samplePeer.peerAddress []).2
    ∃ route, (recordsFor (nlriWrites [ten] (walked [] { withdrawnPrefixes := [.cidr ten.ipv4] })).parsed
        (.cidr ten.ipv4) queue).getLast? = some route ∧ route.isWithdrawn = true ∧
      ∀ before, Indexed route.family route.prefixCidr →
        Countable (historyOf (callKey (stateCall (routeTuple route))) (before ++ stateCalls queue)) →
        recordedWithdrawn (before ++ stateCalls queue) route = some true :=
  both_lists_withdrawn (parseRouteMonitoringMessage_encode replacement samplePeer_fits (by decide))
    (parseBgpUpdate_encode [ten] [ten] ⟨by decide, by decide⟩) (by decide) _ _

/-- The announcement of 10.0.0.0/8 does not win: the row of the route is withdrawn. -/
theorem announcement_loses :
    ¬ ∀ (data : Bytes) (message : BMPRouteMonitoringMessage) (update : ParsedBGPUpdate)
      (entry : PrefixEntry) (clock : Nat → Timestamp) (bmpPeerIp : IpAddress),
      parseRouteMonitoringMessage data = .ok message →
      parseBgpUpdate message.bgpUpdate = .ok update → InBoth update entry →
      let queue := (handleRouteMonitoring recorder clock data bmpPeerIp []).2
      ∃ route, (recordsFor update entry queue).getLast? = some route ∧ route.isWithdrawn = false ∧
        recordedWithdrawn (stateCalls queue) route = some false := by
  intro h
  obtain ⟨route, hlast, hfalse, -⟩ := h (encodeRouteMonitoring samplePeer replacement) _ _
    (.cidr ten.ipv4) (fun k => k) samplePeer.peerAddress
    (parseRouteMonitoringMessage_encode replacement samplePeer_fits (by decide))
    (parseBgpUpdate_encode [ten] [ten] ⟨by decide, by decide⟩) (by decide)
  have hwithdrawn : (recordsFor
      (nlriWrites [ten] (walked [] { withdrawnPrefixes := [.cidr ten.ipv4] })).parsed (.cidr ten.ipv4)
      (handleRouteMonitoring recorder (fun k => k) (encodeRouteMonitoring samplePeer replacement)
        samplePeer.peerAddress []).2).getLast?.map RouteUpdate.isWithdrawn = some true := by decide
  have hannounced : some route.isWithdrawn = some true :=
    (congrArg (Option.map RouteUpdate.isWithdrawn) hlast).symm.trans hwithdrawn
  rw [hfalse] at hannounced
  cases hannounced

end Pybmpmon.Listener.WithdrawnLast
