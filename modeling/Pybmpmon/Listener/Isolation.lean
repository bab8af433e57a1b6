import Pybmpmon.Listener.Ledger

/-!
# Routers that share a batch

Route Monitoring messages of several routers, handled one at a time with one batch
writer, and a final flush. The routes of all of them meet in one COPY, and a record that
does not fit its columns makes the whole COPY fail; and a flush raises also after a COPY
that does not, inside the handler whose record fills the batch. What is stored of one
router depends on its own messages only, as long as neither loses a record of it that
fits.
-/
namespace Pybmpmon.Listener.Isolation

open Pybmpmon.Lib.Batching Pybmpmon.Lib.ByteString Pybmpmon.Python Pybmpmon.Models.Route
open Pybmpmon.Protocol.BmpEncoding Pybmpmon.Protocol.UpdateEncoding
open Pybmpmon.Database.BatchWriter
open Pybmpmon.Listener.RouteMonitoring Pybmpmon.Listener.Records Pybmpmon.Listener.RunListener
open Pybmpmon.Listener.Ledger (Holds capacity capacity_pos copied queueRoutes_holds flush_holds timesFrom)

/-- A Route Monitoring message, and what the clocks show while it is handled. -/
structure Message where
  router : IpAddress
  times : Times
  data : Bytes

def recordsOf (m : Message) : List RouteUpdatesRow := (routesOf m.times.clock m.data m.router).map record

/-- The connection logs what the handler raises, and goes on. -/
def receive (l : BMPListener) (m : Message) : BMPListener :=
  (handleRouteMonitoring (routeServices m.times) m.times.clock m.data m.router (l, 0)).2.1

def started (batchSize : Nat) (batchTimeout : Timestamp) : BMPListener :=
  (World.started batchSize batchTimeout).listener

/-- The messages one at a time, and the final flush. -/
def databaseAfter (batchSize : Nat) (batchTimeout : Timestamp) (messages : List Message) :
    RunListener.Database :=
  let l := messages.foldl receive (started batchSize batchTimeout)
  (flush pool l.batchWriter l.database).2.2

/-- What the router sent. -/
def sentBy (router : IpAddress) (messages : List Message) : List Bytes :=
  (messages.filter fun m => m.router = router).map Message.data

/-- The rows of the router up to their timestamps. -/
def own (router : IpAddress) (rows : List RouteUpdatesRow) : List RouteUpdatesRow :=
  (rows.filter fun r => r.bmpPeerIp = router).map timeless

/-! ## What is lost -/

/-- The batch of a COPY that fails. -/
def refused (batch : List RouteUpdatesRow) : List RouteUpdatesRow :=
  if batch.all fitsColumns then [] else batch

/-- What is lost when a message is handled: nothing while the batch has room; else the batch if its COPY
fails, and the records after the one that filled it. -/
def lost (batchSize : Nat) (waiting records : List RouteUpdatesRow) : List RouteUpdatesRow :=
  let room := capacity batchSize - waiting.length
  if records.length < room then []
  else refused (waiting ++ records.take room) ++ records.drop room

/-- No record of the router that fits its columns is among them. -/
def Spares (router : IpAddress) (rows : List RouteUpdatesRow) : Prop :=
  ∀ r ∈ rows, r.bmpPeerIp = router → fitsColumns r = false

/-- Each message finds the batch so that it spares the router, and so does the final flush. -/
def Spared (batchSize : Nat) (router : IpAddress) : BMPListener → List Message → Prop
  | l, [] => Spares router (refused (l.batchWriter.batch.map copyRow))
  | l, m :: messages =>
      Spares router (lost batchSize (l.batchWriter.batch.map copyRow) (recordsOf m)) ∧
        Spared batchSize router (receive l m) messages

/-- With a batch size of one no COPY is shared, and a message stores its first record or none. -/
def Isolated (batchSize : Nat) (batchTimeout : Timestamp) (router : IpAddress) (messages : List Message) :
    Prop :=
  batchSize ≤ 1 ∨ Spared batchSize router (started batchSize batchTimeout) messages

instance (router : IpAddress) (rows : List RouteUpdatesRow) : Decidable (Spares router rows) :=
  inferInstanceAs (Decidable (∀ r ∈ rows, r.bmpPeerIp = router → fitsColumns r = false))

instance decidableSpared (batchSize : Nat) (router : IpAddress) :
    (l : BMPListener) → (messages : List Message) → Decidable (Spared batchSize router l messages)
  | l, [] => inferInstanceAs (Decidable (Spares router (refused (l.batchWriter.batch.map copyRow))))
  | l, m :: messages =>
      have := decidableSpared batchSize router (receive l m) messages
      inferInstanceAs (Decidable (Spares router (lost batchSize (l.batchWriter.batch.map copyRow)
        (recordsOf m)) ∧ Spared batchSize router (receive l m) messages))

instance (batchSize : Nat) (batchTimeout : Timestamp) (router : IpAddress) (messages : List Message) :
    Decidable (Isolated batchSize batchTimeout router messages) :=
  inferInstanceAs (Decidable (_ ∨ _))

/-! ## Rows of one router -/

@[simp] theorem own_nil (router : IpAddress) : own router [] = [] := rfl

@[simp] theorem own_append (router : IpAddress) (a b : List RouteUpdatesRow) :
    own router (a ++ b) = own router a ++ own router b := by
  rw [own, List.filter_append, List.map_append]
  rfl

theorem own_others {router : IpAddress} {rows : List RouteUpdatesRow}
    (h : ∀ r ∈ rows, r.bmpPeerIp ≠ router) : own router rows = [] := by
  rw [own, List.filter_eq_nil_iff.mpr fun r hr => by simpa using h r hr]
  rfl

theorem own_all {router : IpAddress} {rows : List RouteUpdatesRow}
    (h : ∀ r ∈ rows, r.bmpPeerIp = router) : own router rows = rows.map timeless := by
  rw [own, List.filter_eq_self.mpr fun r hr => by simpa using h r hr]

/-- Of what spares the router nothing would be stored. -/
theorem own_spared {router : IpAddress} {rows : List RouteUpdatesRow} (h : Spares router rows) :
    own router (rows.filter fitsColumns) = [] := by
  refine own_others fun r hr hrouter => ?_
  obtain ⟨hmem, hfits⟩ := List.mem_filter.mp hr
  rw [h r hmem hrouter] at hfits
  cases hfits

/-- A COPY that spares the router stores its records that fit. -/
theorem own_copied {router : IpAddress} {batch : List RouteUpdatesRow} (h : Spares router (refused batch)) :
    own router (copied batch) = own router (batch.filter fitsColumns) := by
  rw [refused] at h
  rw [copied]
  split at h
  · next hfits => rw [if_pos hfits, List.filter_eq_self.mpr (List.all_eq_true.mp hfits)]
  · next hfits => rw [if_neg hfits, own_spared h, own_nil]

/-- Of a batch of one record that is refused nothing would fit. -/
theorem spares_refused_one (router : IpAddress) (r : RouteUpdatesRow) : Spares router (refused [r]) := by
  intro r' hr' _
  rw [refused] at hr'
  split at hr'
  · cases hr'
  · next hunfit =>
    rw [List.mem_singleton.mp hr']
    simpa using hunfit

/-! ## What is stored, or will be, of one router -/

/-- The rows of the router in the table, and those in the batch that fit. -/
def account (router : IpAddress) (b : Batches RouteUpdatesRow) : List RouteUpdatesRow :=
  own router (b.taken.flatMap copied ++ b.waiting.filter fitsColumns)

/-- What the records of a message of the router come to. -/
def stored (batchSize : Nat) (records : List RouteUpdatesRow) : List RouteUpdatesRow :=
  (if batchSize ≤ 1 then records.take 1 else records).filter fitsColumns

theorem account_filled {router : IpAddress} {taken : List (List RouteUpdatesRow)} {batch : List RouteUpdatesRow}
    (h : Spares router (refused batch)) :
    account router ⟨taken ++ [batch], []⟩ = account router ⟨taken, batch⟩ := by
  rw [account, account, List.flatMap_append, List.flatMap_singleton, List.filter_nil, List.append_nil,
    own_append, own_append, own_copied h]

/-- An offer that spares the router adds its records that fit. -/
theorem account_offer {batchSize : Nat} {router : IpAddress} {b : Batches RouteUpdatesRow}
    {records : List RouteUpdatesRow} (h : Spares router (lost batchSize b.waiting records)) :
    account router (b.offer (capacity batchSize) records) =
      account router b ++ own router (records.filter fitsColumns) := by
  have hadded : ∀ added, account router ⟨b.taken, b.waiting ++ added⟩ =
      account router b ++ own router (added.filter fitsColumns) := by
    intro added
    rw [account, account, List.filter_append, ← List.append_assoc, own_append]
  by_cases hlt : records.length < capacity batchSize - b.waiting.length
  · rw [Batches.offer_of_lt hlt, hadded]
  · rw [lost, if_neg hlt] at h
    have hdropped : own router ((records.drop (capacity batchSize - b.waiting.length)).filter fitsColumns) = [] :=
      own_spared fun r hr => h r (List.mem_append_right _ hr)
    rw [Batches.offer_of_le (Nat.le_of_not_lt hlt), account_filled fun r hr => h r (List.mem_append_left _ hr),
      hadded]
    conv_rhs => rw [← List.take_append_drop (capacity batchSize - b.waiting.length) records]
    rw [List.filter_append, own_append, hdropped, List.append_nil]

/-- With a batch size of one each offer is a batch of its own, of one record. -/
theorem account_offer_one {batchSize : Nat} (hone : batchSize ≤ 1) {router : IpAddress}
    {b : Batches RouteUpdatesRow} (hroom : b.waiting.length < capacity batchSize)
    (records : List RouteUpdatesRow) :
    account router (b.offer (capacity batchSize) records) =
      account router b ++ own router ((records.take 1).filter fitsColumns) := by
  have hcapacity : capacity batchSize = 1 := Nat.max_eq_left hone
  rw [hcapacity] at hroom ⊢
  have hwaiting : b.waiting = [] := List.length_eq_zero_iff.mp (Nat.lt_one_iff.mp hroom)
  cases records with
  | nil =>
    rw [Batches.offer_nil hroom, List.take_nil, List.filter_nil, own_nil, List.append_nil]
  | cons r records =>
    have hlost : lost 1 b.waiting [r] = refused [r] := by
      rw [hwaiting]
      exact List.append_nil _
    have hspares : Spares router (lost 1 b.waiting [r]) := by
      rw [hlost]
      exact spares_refused_one router r
    rw [Batches.offer_cons_full (by rw [hwaiting]; rfl), List.take_succ_cons, List.take_zero]
    exact account_offer hspares

/-! ## One message -/

/-- What a message of the router comes to, which the clock has no part in. -/
def contribution (batchSize : Nat) (router : IpAddress) (data : Bytes) : List RouteUpdatesRow :=
  stored batchSize ((routesOf (fun _ => 0) data router).map record)

theorem stored_timeless (batchSize : Nat) (rows : List RouteUpdatesRow) :
    stored batchSize (rows.map timeless) = (stored batchSize rows).map timeless := by
  have hfits : fitsColumns ∘ timeless = fitsColumns := funext fitsColumns_timeless
  rw [stored, stored]
  split
  · rw [← List.map_take, List.filter_map, hfits]
  · rw [List.filter_map, hfits]

theorem mem_stored {batchSize : Nat} {rows : List RouteUpdatesRow} {r : RouteUpdatesRow}
    (h : r ∈ stored batchSize rows) : r ∈ rows := by
  have hmem := List.mem_of_mem_filter h
  split at hmem
  · exact List.mem_of_mem_take hmem
  · exact hmem

theorem own_recordsOf (batchSize : Nat) (router : IpAddress) (m : Message) :
    own router (stored batchSize (recordsOf m)) =
      if m.router = router then contribution batchSize router m.data else [] := by
  have hpeer : ∀ r ∈ stored batchSize (recordsOf m), r.bmpPeerIp = m.router := by
    intro r hr
    obtain ⟨route, hroute, rfl⟩ := List.mem_map.mp (mem_stored hr)
    exact routesOf_peer hroute
  by_cases heq : m.router = router
  · subst heq
    rw [if_pos rfl, own_all hpeer, ← stored_timeless, recordsOf, ← routesOf_untimed, contribution]
  · rw [if_neg heq, own_others fun r hr => ?_]
    rw [hpeer r hr]
    exact heq

/-- The listener between two messages: it holds the batches, with room in the batch. -/
structure Between (batchSize : Nat) (b : Batches RouteUpdatesRow) (l : BMPListener) : Prop where
  holds : Holds batchSize .empty b l.batchWriter l.database
  running : l.batchWriter.isRunning = true
  room : b.waiting.length < capacity batchSize

variable {batchSize : Nat} {b : Batches RouteUpdatesRow} {l : BMPListener}

/-- The message offers its records. -/
theorem receive_between (h : Between batchSize b l) (m : Message) :
    Between batchSize (b.offer (capacity batchSize) (recordsOf m)) (receive l m) := by
  have hqueued := queueRoutes_holds m.times m.router (routesOf m.times.clock m.data m.router) (s := (l, 0))
    h.holds h.running h.room
  have hreceive : receive l m = (queueRoutes (routeServices m.times) m.router
      (routesOf m.times.clock m.data m.router) (l, 0)).2.1 :=
    congrArg Prod.fst (handleRouteMonitoring_routes _ _ _ _ _)
  rw [hreceive]
  refine ⟨hqueued.holds, hqueued.running, ?_⟩
  by_cases hlt : (recordsOf m).length < capacity batchSize - b.waiting.length
  · rw [Batches.offer_of_lt hlt, List.length_append]
    omega
  · rw [Batches.offer_of_le (Nat.le_of_not_lt hlt)]
    exact capacity_pos batchSize

/-- The final flush stores what was held. -/
theorem flush_between (h : Between batchSize b l) (router : IpAddress)
    (hspares : Spares router (refused (l.batchWriter.batch.map copyRow))) :
    own router (flush pool l.batchWriter l.database).2.2.routeUpdates = account router b := by
  obtain ⟨hholds, _, _⟩ := flush_holds h.holds
  rw [h.holds.waiting] at hspares
  have hrows : (flush pool l.batchWriter l.database).2.2.routeUpdates = b.take.taken.flatMap copied :=
    hholds.routeUpdates
  rw [hrows]
  by_cases hwaiting : b.waiting = []
  · rw [Batches.take_of_nil hwaiting, account, hwaiting, List.filter_nil, List.append_nil]
  · have hfilled : account router ⟨b.taken ++ [b.waiting], []⟩ = account router b := account_filled hspares
    rw [Batches.take_of_ne_nil hwaiting]
    rw [account, List.filter_nil, List.append_nil] at hfilled
    exact hfilled

/-- A message that spares the router adds what it comes to. -/
theorem account_receive {router : IpAddress} (h : Between batchSize b l) (m : Message)
    (hspares : batchSize ≤ 1 ∨
      Spares router (lost batchSize (l.batchWriter.batch.map copyRow) (recordsOf m))) :
    account router (b.offer (capacity batchSize) (recordsOf m)) =
      account router b ++ if m.router = router then contribution batchSize router m.data else [] := by
  rw [← own_recordsOf, stored]
  by_cases hone : batchSize ≤ 1
  · rw [if_pos hone, account_offer_one hone h.room]
  · have hlost := hspares.resolve_left hone
    rw [h.holds.waiting] at hlost
    rw [if_neg hone, account_offer hlost]

/-! ## Whole runs -/

/-- A run that spares the router adds what its messages come to, whatever the others send. -/
theorem own_run {router : IpAddress} {messages : List Message} (hbetween : Between batchSize b l)
    (h : batchSize ≤ 1 ∨ Spared batchSize router l messages) :
    let last := messages.foldl receive l
    own router (flush pool last.batchWriter last.database).2.2.routeUpdates =
      account router b ++ (sentBy router messages).flatMap (contribution batchSize router) := by
  induction messages generalizing b l with
  | nil =>
    have hspares : Spares router (refused (l.batchWriter.batch.map copyRow)) := by
      rcases h with hone | h
      · have hcapacity : capacity batchSize = 1 := Nat.max_eq_left hone
        have hroom := hbetween.room
        rw [hcapacity, Nat.lt_one_iff, List.length_eq_zero_iff] at hroom
        rw [hbetween.holds.waiting, hroom]
        exact fun r hr => absurd hr List.not_mem_nil
      · exact h
    exact (flush_between hbetween router hspares).trans (List.append_nil _).symm
  | cons m messages ih =>
    have hadded := account_receive hbetween m (h.imp_right And.left)
    have hrest := ih (receive_between hbetween m) (h.imp_right And.right)
    rw [hadded, List.append_assoc] at hrest
    rw [List.foldl_cons, sentBy]
    by_cases heq : m.router = router
    · rw [if_pos heq] at hrest
      rw [List.filter_cons_of_pos (by simpa using heq)]
      exact hrest
    · rw [if_neg heq] at hrest
      rw [List.filter_cons_of_neg (by simpa using heq)]
      exact hrest

/-- The rows of a router that every step of the run spares are what its own messages come to. -/
theorem own_databaseAfter {batchTimeout : Timestamp} {messages : List Message} {router : IpAddress}
    (h : Isolated batchSize batchTimeout router messages) :
    own router (databaseAfter batchSize batchTimeout messages).routeUpdates =
      (sentBy router messages).flatMap (contribution batchSize router) := by
  have hstart : Between batchSize .empty (started batchSize batchTimeout) :=
    ⟨⟨rfl, rfl, rfl, rfl, rfl, rfl⟩, rfl, capacity_pos batchSize⟩
  exact own_run hstart h

/-- Two runs with the same messages of a router store the same rows of it, when every step of both
spares it. -/
theorem rows_isolated {batchSize : Nat} {batchTimeout : Timestamp} {router : IpAddress}
    {first second : List Message} (hsame : sentBy router first = sentBy router second)
    (hfirst : Isolated batchSize batchTimeout router first)
    (hsecond : Isolated batchSize batchTimeout router second) :
    own router (databaseAfter batchSize batchTimeout first).routeUpdates =
      own router (databaseAfter batchSize batchTimeout second).routeUpdates := by
  rw [own_databaseAfter hfirst, own_databaseAfter hsecond, hsame]

/-- 10.0.0.0/8 from a router, with a MED whose first octet is given. -/
def sampleMessage (router : IpAddress) (octet : UInt8) : Message :=
  ⟨router, timesFrom 100,
    encodeRouteMonitoring samplePeer (encodeUpdate [] [⟨0x80, 4, [octet, 0, 0, 5]⟩] [8, 10])⟩

theorem rows_isolated_narrow_med :
    own routerA (databaseAfter 2 500 [sampleMessage routerA 0, sampleMessage routerB 0]).routeUpdates =
      own routerA
        (databaseAfter 2 500 [sampleMessage routerA 0, sampleMessage routerB 1]).routeUpdates :=
  rows_isolated (by decide +kernel) (by decide +kernel) (by decide +kernel)

/-- A MED above the range of its column, from one router, loses the row of the other. -/
theorem row_destroyed :
    let first := [sampleMessage routerA 0, sampleMessage routerB 0]
    let second := [sampleMessage routerA 0, sampleMessage routerB 0x80]
    sentBy routerA first = sentBy routerA second ∧
      (own routerA (databaseAfter 1000 500 first).routeUpdates).length = 1 ∧
      own routerA (databaseAfter 1000 500 second).routeUpdates = [] := by
  decide +kernel

end Pybmpmon.Listener.Isolation
