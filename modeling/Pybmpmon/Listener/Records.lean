import Pybmpmon.Database.BatchWriter
import Pybmpmon.Listener.RouteMonitoring

/-!
# The records of a message

What the handler has built when it begins to queue, as rows of `route_updates`. A record
is the router's that sent the message, and its time is all it takes from the clock.
-/
namespace Pybmpmon.Listener.Records

open Pybmpmon.Lib.ByteString Pybmpmon.Python Pybmpmon.Models.Route
open Pybmpmon.Protocol.BmpParser Pybmpmon.Protocol.BgpParser
open Pybmpmon.Database.BatchWriter Pybmpmon.Listener.RouteMonitoring

def record (route : RouteUpdate) : RouteUpdatesRow := copyRow (routeTuple route)

def timeless (r : RouteUpdatesRow) : RouteUpdatesRow := { r with time := 0 }

/-- The columns a COPY looks at do not include the time. -/
theorem fitsColumns_timeless (r : RouteUpdatesRow) : fitsColumns (timeless r) = fitsColumns r := rfl

/-- A message that is not parsed has none. -/
def routesOf (clock : Nat → Timestamp) (data : Bytes) (bmpPeerIp : IpAddress) : List RouteUpdate :=
  match parseRouteMonitoringMessage data with
  | .error _ => []
  | .ok parsed =>
      match parseBgpUpdate parsed.bgpUpdate with
      | .error _ => []
      | .ok update => routeUpdates clock bmpPeerIp parsed update

/-- The handler queues the records of its message, and nothing else. -/
theorem handleRouteMonitoring_routes {σ : Type} (services : Services σ) (clock : Nat → Timestamp)
    (data : Bytes) (router : IpAddress) (s : σ) :
    (handleRouteMonitoring services clock data router s).2 =
      (queueRoutes services router (routesOf clock data router) s).2 := by
  rw [handleRouteMonitoring, routesOf]
  cases parseRouteMonitoringMessage data with
  | error e => rfl
  | ok parsed =>
    simp only
    cases parseBgpUpdate parsed.bgpUpdate with
    | error e => rfl
    | ok update => rfl

/-- The handler raises what the loops raise. -/
theorem handleRouteMonitoring_ok {σ : Type} {services : Services σ} {clock : Nat → Timestamp}
    {data : Bytes} {router : IpAddress} {s : σ}
    (h : (handleRouteMonitoring services clock data router s).1 = .ok ()) :
    (queueRoutes services router (routesOf clock data router) s).1 = .ok () := by
  rw [handleRouteMonitoring] at h
  rw [routesOf]
  cases hparse : parseRouteMonitoringMessage data with
  | error e =>
    rw [hparse] at h
    cases h
  | ok parsed =>
    rw [hparse] at h
    simp only at h ⊢
    cases hupdate : parseBgpUpdate parsed.bgpUpdate with
    | error e =>
      rw [hupdate] at h
      cases h
    | ok update =>
      rw [hupdate] at h
      exact h

/-- Each record is built for the router, and takes nothing but its time from the clock. -/
theorem routesOf_builders (data : Bytes) (router : IpAddress) :
    ∃ builders : List (Timestamp → RouteUpdate),
      (∀ clock, routesOf clock data router = built clock builders) ∧
      ∀ b ∈ builders, ∀ t, (b t).bmpPeerIp = router ∧ timeless (record (b t)) = record (b 0) := by
  cases hparsed : parseRouteMonitoringMessage data with
  | error e =>
    refine ⟨[], fun clock => ?_, fun _ hb => by cases hb⟩
    rw [routesOf, hparsed]
    rfl
  | ok parsed =>
    cases hupdate : parseBgpUpdate parsed.bgpUpdate with
    | error e =>
      refine ⟨[], fun clock => ?_, fun _ hb => by cases hb⟩
      rw [routesOf, hparsed]
      simp only [hupdate]
      rfl
    | ok update =>
      let family := determineFamily update.afi update.safi
      refine ⟨update.prefixes.map (announcedRoute router parsed.perPeerHeader update family) ++
        update.withdrawnPrefixes.map (withdrawnRoute router parsed.perPeerHeader family),
        fun clock => ?_, fun b hb t => ?_⟩
      · rw [routesOf, hparsed]
        simp only [hupdate]
        rfl
      · rcases List.mem_append.mp hb with hb | hb
        · obtain ⟨entry, _, rfl⟩ := List.mem_map.mp hb
          exact ⟨rfl, rfl⟩
        · obtain ⟨entry, _, rfl⟩ := List.mem_map.mp hb
          exact ⟨rfl, rfl⟩

theorem routesOf_peer {clock : Nat → Timestamp} {data : Bytes} {router : IpAddress} {route : RouteUpdate}
    (h : route ∈ routesOf clock data router) : route.bmpPeerIp = router := by
  obtain ⟨builders, hroutes, hbuilders⟩ := routesOf_builders data router
  rw [hroutes, built, List.mem_mapIdx] at h
  obtain ⟨k, hk, rfl⟩ := h
  exact (hbuilders _ (List.getElem_mem hk) _).1

/-- The records when every clock shows zero are those of any clock without their times. -/
theorem routesOf_untimed (clock : Nat → Timestamp) (data : Bytes) (router : IpAddress) :
    (routesOf (fun _ => 0) data router).map record =
      ((routesOf clock data router).map record).map timeless := by
  obtain ⟨builders, hroutes, hbuilders⟩ := routesOf_builders data router
  rw [hroutes, hroutes]
  apply List.ext_getElem
  · simp [built]
  · intro k hk hk'
    simp only [built, List.getElem_map, List.getElem_mapIdx]
    exact (hbuilders _ (List.getElem_mem _) _).2.symm

def routerA : IpAddress := .v4 (.ofOctets 192 0 2 1)

def routerB : IpAddress := .v4 (.ofOctets 192 0 2 2)

end Pybmpmon.Listener.Records
