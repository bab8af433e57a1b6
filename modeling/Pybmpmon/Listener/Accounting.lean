import Pybmpmon.Listener.Framing
import Pybmpmon.Models.Route
import Pybmpmon.Monitoring.Stats

/-!
# Errors, framing and the counters of a connection

Each frame of a stream is delivered with an outcome for its `last_seen` update and one
for its handler. The services play these outcomes in order over the statistics
collector, and the connection loop is followed frame by frame: what it adds to the
events and to the collector depends on the outcomes, where it reads does not.
-/
namespace Pybmpmon.Listener.Accounting

open Pybmpmon.Lib.ByteString Pybmpmon.Lib.Loop Pybmpmon.Python Pybmpmon.Models.Route
open Pybmpmon.Protocol.Bmp Pybmpmon.Protocol.BmpParser Pybmpmon.Monitoring.Stats
open Pybmpmon.Listener.Connection Pybmpmon.Listener.Framing

/-- A frame of one of the six types and what happens when it is processed: the routes its
handler counts, and how the update and the handler end. -/
structure Delivery where
  frame : Frame
  msgType : BMPMessageType
  recognised : frame.msgType = some msgType
  lastSeen : Except Exception Unit
  processed : List Family
  handler : Except Exception Unit

namespace Delivery

/-- Initiation, Termination and Statistics Report have no handler: they are logged. -/
def hasHandler (d : Delivery) : Bool :=
  match d.msgType with
  | .routeMonitoring | .peerUpNotification | .peerDownNotification => true
  | .initiation | .termination | .statisticsReport => false

/-- How `_handle_bmp_message` ends. -/
def outcome (d : Delivery) : Except Exception Unit := if d.hasHandler then d.handler else .ok ()

def families (d : Delivery) : List Family := if d.hasHandler then d.processed else []

/-- The `last_seen` update succeeded. -/
def updated (d : Delivery) : Bool := d.lastSeen.isOk

/-- One of the two steps raised. -/
def raised (d : Delivery) : Bool := !d.lastSeen.isOk || !d.outcome.isOk

end Delivery

/-- The collector, the delivery being processed and those still to come. -/
structure World where
  collector : StatisticsCollector IpAddress
  current : Option Delivery
  pending : List Delivery

def World.handle (peerIp : IpAddress) (w : World) : Except Exception Unit × World :=
  match w.current with
  | none => (.ok (), w)
  | some d =>
      (d.handler, { w with
        collector :=
          d.processed.foldl (fun c family => c.incrementProcessed peerIp family.text) w.collector })

/-- The services that play the outcomes of the deliveries in order. -/
def played : Services World where
  updatePeerLastSeen := fun _ w =>
    match w.pending with
    | [] => (.ok (), w)
    | d :: pending => (d.lastSeen, { w with current := some d, pending := pending })
  handleRouteMonitoring := fun _ peerIp w => w.handle peerIp
  handlePeerUp := fun _ peerIp w => w.handle peerIp
  handlePeerDown := fun _ peerIp w => w.handle peerIp
  incrementReceived := fun peerIp w => { w with collector := w.collector.incrementReceived peerIp }
  incrementError := fun peerIp w => { w with collector := w.collector.incrementError peerIp }
  removePeer := fun peerIp w => { w with collector := w.collector.removePeer peerIp }

namespace Delivery

/-- What the handler and the clause behind it add to the events. -/
def outcomeEvents (d : Delivery) : List Event :=
  match d.outcome with
  | .error e => [.errored (errorType e)]
  | .ok () => []

/-- What a frame that starts at `position` adds to the events. -/
def events (position : Nat) (d : Delivery) : List Event :=
  .headerRead position d.frame.header ::
    match d.lastSeen with
    | .error e => [.errored (errorType e)]
    | .ok () => .lastSeenUpdated :: .received :: .handled d.msgType d.frame.encode :: d.outcomeEvents

/-- The collector after the frame. -/
def account (peerIp : IpAddress) (c : StatisticsCollector IpAddress) (d : Delivery) :
    StatisticsCollector IpAddress :=
  match d.lastSeen with
  | .error _ => c.incrementError peerIp
  | .ok () =>
      let c := d.families.foldl (fun c family => c.incrementProcessed peerIp family.text)
        (c.incrementReceived peerIp)
      match d.outcome with
      | .error _ => c.incrementError peerIp
      | .ok () => c

end Delivery

theorem updatePeerLastSeen_played {w : World} {d : Delivery} {pending : List Delivery}
    (peerIp : IpAddress) (hp : w.pending = d :: pending) :
    played.updatePeerLastSeen peerIp w = (d.lastSeen, ⟨w.collector, some d, pending⟩) := by
  obtain ⟨collector, current, queue⟩ := w
  cases hp
  rfl

theorem handleBmpMessage_played (d : Delivery) (data : Bytes) (peerIp : IpAddress)
    (collector : StatisticsCollector IpAddress) (pending : List Delivery) :
    played.handleBmpMessage d.msgType data peerIp ⟨collector, some d, pending⟩ =
      (d.outcome,
        ⟨d.families.foldl (fun c family => c.incrementProcessed peerIp family.text) collector,
          some d, pending⟩) := by
  unfold Delivery.outcome Delivery.families Delivery.hasHandler
  cases d.msgType <;> rfl

/-! ## One frame -/

/-- The step lemma: a delivered frame is read whole whatever the outcomes are. -/
theorem round_delivery (peerIp : IpAddress) {c : ConnectionState World} {d : Delivery}
    {pending : List Delivery} {rest : Bytes} {position : Nat}
    (hr : c.reader = ⟨d.frame.encode ++ rest, position⟩) (hp : c.services.pending = d :: pending) :
    round played peerIp c = some
      ⟨⟨rest, position + d.frame.size⟩, c.events ++ d.events position,
        ⟨d.account peerIp c.services.collector, some d, pending⟩⟩ := by
  have hrest : c.reader.rest = d.frame.header ++ (d.frame.body ++ rest) := by
    rw [hr, Frame.encode, List.append_assoc]
  have hbody : StreamReader.readexactly (d.frame.size - BMP_HEADER_SIZE)
      ⟨d.frame.body ++ rest, c.reader.position + 6⟩ =
        (.ok d.frame.body, ⟨rest, position + d.frame.size⟩) := by
    rw [readexactly_ok rfl (by rw [Frame.size, BMP_HEADER_SIZE]; omega), hr]
    simp only [Frame.size, BMP_HEADER_SIZE]
    congr 2
    omega
  rw [round_header played peerIp hrest d.frame.header_length]
  unfold processMessage
  rw [parseBmpHeader_recognised d.recognised]
  simp only [hbody]
  rw [updatePeerLastSeen_played peerIp hp]
  unfold Delivery.events Delivery.account
  cases hlast : d.lastSeen with
  | error e =>
    simp only [exceptClauses, hr, List.append_assoc, List.cons_append, List.nil_append]
    rfl
  | ok u =>
    have hreceived : played.incrementReceived peerIp ⟨c.services.collector, some d, pending⟩ =
        ⟨c.services.collector.incrementReceived peerIp, some d, pending⟩ := rfl
    simp only [hreceived, handleBmpMessage_played, Delivery.outcomeEvents]
    cases d.outcome with
    | error e =>
      simp only [exceptClauses, hr, List.append_assoc, List.cons_append, List.nil_append,
        Frame.encode]
      rfl
    | ok u =>
      simp only [exceptClauses, hr, List.append_assoc, List.cons_append, List.nil_append,
        Frame.encode]

/-- What the deliveries add to the events. -/
def deliveryEvents (position : Nat) : List Delivery → List Event
  | [] => []
  | d :: deliveries => d.events position ++ deliveryEvents (position + d.frame.size) deliveries

/-- The run lemma: induction on the deliveries, which the loop takes one a round. -/
theorem final_deliveries {peerIp : IpAddress} {tail : Bytes} (deliveries : List Delivery) :
    ∀ (c : ConnectionState World) (position : Nat),
      c.reader = ⟨encodeFrames (deliveries.map Delivery.frame) ++ tail, position⟩ →
      c.services.pending = deliveries →
      ∃ c' : ConnectionState World, final played peerIp c = final played peerIp c' ∧
        c'.reader =
          ⟨tail, position + (encodeFrames (deliveries.map Delivery.frame)).length⟩ ∧
        c'.events = c.events ++ deliveryEvents position deliveries ∧
        c'.services.collector = deliveries.foldl (Delivery.account peerIp) c.services.collector := by
  induction deliveries with
  | nil =>
    intro c position hr _
    exact ⟨c, rfl, hr, (List.append_nil _).symm, rfl⟩
  | cons d deliveries ih =>
    intro c position hr hp
    have hcons : encodeFrames ((d :: deliveries).map Delivery.frame) =
        d.frame.encode ++ encodeFrames (deliveries.map Delivery.frame) := rfl
    rw [hcons, List.append_assoc] at hr
    have hround := round_delivery peerIp hr hp
    obtain ⟨c', hfinal, hreader, hevents, hcollector⟩ := ih
      ⟨⟨encodeFrames (deliveries.map Delivery.frame) ++ tail, position + d.frame.size⟩,
        c.events ++ d.events position,
        ⟨d.account peerIp c.services.collector, some d, deliveries⟩⟩ _ rfl rfl
    refine ⟨c', (final_step hround).trans hfinal, ?_, ?_, hcollector⟩
    · rw [hreader, hcons, List.length_append, d.frame.encode_length, Nat.add_assoc]
    · rw [hevents, deliveryEvents, List.append_assoc]

/-! ## The frame that is cut -/

/-- The octets of a frame that came before the stream ended. -/
structure Truncated where
  frame : Frame
  msgType : BMPMessageType
  recognised : frame.msgType = some msgType
  kept : Nat
  short : kept < frame.size

def cutBytes : Option Truncated → Bytes
  | none => []
  | some t => t.frame.encode.take t.kept

/-- The header of the last frame came whole. -/
def cutInBody : Option Truncated → Bool
  | none => false
  | some t => BMP_HEADER_SIZE ≤ t.kept

def cutEvents (position : Nat) : Option Truncated → List Event
  | none => []
  | some t =>
      if BMP_HEADER_SIZE ≤ t.kept then
        [.headerRead position t.frame.header, .errored .messageProcessingError]
      else []

/-- A body that is cut is an error of the inner `try`, and what came of it is dropped. -/
theorem round_cutInBody (peerIp : IpAddress) {c : ConnectionState World} {t : Truncated}
    {position : Nat} (hkept : BMP_HEADER_SIZE ≤ t.kept)
    (hr : c.reader = ⟨cutBytes (some t), position⟩) :
    round played peerIp c = some
      ⟨⟨[], position + t.kept⟩, c.events ++ cutEvents position (some t),
        { c.services with collector := c.services.collector.incrementError peerIp }⟩ := by
  have h6 : BMP_HEADER_SIZE = 6 := rfl
  have hbytes : cutBytes (some t) = t.frame.header ++ t.frame.body.take (t.kept - 6) := by
    rw [cutBytes, Frame.encode, List.take_append, t.frame.header_length,
      List.take_of_length_le (by rw [t.frame.header_length]; omega)]
  have hshort := t.short
  rw [Frame.size] at hshort
  have hlen : (t.frame.body.take (t.kept - 6)).length = t.kept - 6 := by
    rw [List.length_take]
    omega
  have hbody : StreamReader.readexactly (t.frame.size - BMP_HEADER_SIZE)
      ⟨t.frame.body.take (t.kept - 6), c.reader.position + 6⟩ =
        (.error .incompleteReadError, ⟨[], position + t.kept⟩) := by
    rw [readexactly_short (by rw [hlen, Frame.size]; omega), hr, hlen]
    simp only
    congr 2
    omega
  rw [round_header played peerIp (by rw [hr, hbytes]) t.frame.header_length]
  unfold processMessage
  rw [parseBmpHeader_recognised t.recognised]
  simp only [hbody]
  simp only [exceptClauses, hr, List.append_assoc, cutEvents, if_pos hkept]
  rfl

theorem final_cut (peerIp : IpAddress) {c : ConnectionState World} (cut : Option Truncated)
    {position : Nat} (hr : c.reader = ⟨cutBytes cut, position⟩) :
    (final played peerIp c).events = c.events ++ cutEvents position cut ∧
      (final played peerIp c).services.collector =
        (if cutInBody cut then c.services.collector.incrementError peerIp else c.services.collector) ∧
      (final played peerIp c).reader.position + (final played peerIp c).reader.rest.length =
        position + (cutBytes cut).length := by
  cases cut with
  | none =>
    rw [final_stop peerIp (by rw [hr]; exact Nat.zero_lt_succ 5), hr]
    exact ⟨(List.append_nil _).symm, rfl, rfl⟩
  | some t =>
    have hlen : (cutBytes (some t)).length = t.kept := by
      have hshort := t.short
      rw [cutBytes, List.length_take, t.frame.encode_length]
      omega
    by_cases hkept : BMP_HEADER_SIZE ≤ t.kept
    · have hround := round_cutInBody peerIp hkept hr
      rw [final_step hround, final_stop peerIp (by exact Nat.zero_lt_succ 5), hlen, cutInBody,
        decide_eq_true hkept]
      exact ⟨rfl, rfl, rfl⟩
    · rw [final_stop peerIp (by rw [hr, hlen]; exact Nat.not_le.mp hkept), hr, cutInBody,
        decide_eq_false hkept, cutEvents, if_neg hkept]
      exact ⟨(List.append_nil _).symm, rfl, rfl⟩

/-! ## What the deliveries add up to -/

theorem handledFrames_delivery (position : Nat) (d : Delivery) :
    handledFrames (d.events position) = if d.updated then [(d.msgType, d.frame.encode)] else [] := by
  unfold Delivery.events Delivery.outcomeEvents Delivery.updated
  cases d.lastSeen with
  | error e => rfl
  | ok u => cases d.outcome <;> rfl

theorem headerPositions_delivery (position : Nat) (d : Delivery) :
    headerPositions (d.events position) = [position] := by
  unfold Delivery.events Delivery.outcomeEvents
  cases d.lastSeen with
  | error e => rfl
  | ok u => cases d.outcome <;> rfl

theorem handledFrames_deliveryEvents (deliveries : List Delivery) :
    ∀ position, handledFrames (deliveryEvents position deliveries) =
      (deliveries.filter Delivery.updated).map fun d => (d.msgType, d.frame.encode) := by
  induction deliveries with
  | nil => exact fun _ => rfl
  | cons d deliveries ih =>
    intro position
    rw [deliveryEvents, handledFrames_append, handledFrames_delivery, ih, List.filter_cons]
    cases d.updated <;> rfl

theorem headerPositions_deliveryEvents (deliveries : List Delivery) :
    ∀ position, headerPositions (deliveryEvents position deliveries) =
      starts position (deliveries.map Delivery.frame) := by
  induction deliveries with
  | nil => exact fun _ => rfl
  | cons d deliveries ih =>
    intro position
    rw [deliveryEvents, headerPositions_append, headerPositions_delivery, ih]
    rfl

/-- Counting processed routes leaves the two other counters. -/
theorem counts_processed (peerIp : IpAddress) (families : List Family)
    (c : StatisticsCollector IpAddress) :
    ((families.foldl (fun c family => c.incrementProcessed peerIp family.text) c).counts
        peerIp).routesReceived = (c.counts peerIp).routesReceived ∧
      ((families.foldl (fun c family => c.incrementProcessed peerIp family.text) c).counts
        peerIp).errors = (c.counts peerIp).errors := by
  induction families generalizing c with
  | nil => exact ⟨rfl, rfl⟩
  | cons family families ih =>
    obtain ⟨hreceived, herrors⟩ := ih (c.incrementProcessed peerIp family.text)
    rw [List.foldl_cons, hreceived, herrors, StatisticsCollector.counts_incrementProcessed]
    exact ⟨PeerStats.incrementProcessed_routesReceived family.text _,
      PeerStats.incrementProcessed_errors family.text _⟩

theorem counts_account (peerIp : IpAddress) (c : StatisticsCollector IpAddress) (d : Delivery) :
    ((d.account peerIp c).counts peerIp).routesReceived =
        (c.counts peerIp).routesReceived + (if d.updated then 1 else 0) ∧
      ((d.account peerIp c).counts peerIp).errors =
        (c.counts peerIp).errors + (if d.raised then 1 else 0) := by
  have hprocessed := counts_processed peerIp d.families (c.incrementReceived peerIp)
  rw [StatisticsCollector.counts_incrementReceived] at hprocessed
  unfold Delivery.account Delivery.updated Delivery.raised
  cases d.lastSeen with
  | error e =>
    simp only [StatisticsCollector.counts_incrementError]
    exact ⟨rfl, rfl⟩
  | ok u =>
    cases d.outcome with
    | error e =>
      simp only [StatisticsCollector.counts_incrementError]
      exact ⟨hprocessed.1, congrArg (· + 1) hprocessed.2⟩
    | ok u => exact hprocessed

theorem counts_deliveries (peerIp : IpAddress) (deliveries : List Delivery)
    (c : StatisticsCollector IpAddress) :
    ((deliveries.foldl (Delivery.account peerIp) c).counts peerIp).routesReceived =
        (c.counts peerIp).routesReceived + deliveries.countP Delivery.updated ∧
      ((deliveries.foldl (Delivery.account peerIp) c).counts peerIp).errors =
        (c.counts peerIp).errors + deliveries.countP Delivery.raised := by
  induction deliveries generalizing c with
  | nil => exact ⟨rfl, rfl⟩
  | cons d deliveries ih =>
    obtain ⟨hreceived, herrors⟩ := ih (d.account peerIp c)
    obtain ⟨hreceived1, herrors1⟩ := counts_account peerIp c d
    rw [List.foldl_cons, hreceived, herrors, hreceived1, herrors1, List.countP_cons, List.countP_cons]
    omega

/-- What a connection leaves: the frames it read, what it handed on and where it ended, and the
counters of the peer as they stand before the disconnect. -/
structure Accounted (peerIp : IpAddress) (deliveries : List Delivery) (cut : Option Truncated)
    (before : StatisticsCollector IpAddress) (last : ConnectionState World) : Prop where
  headers : headerPositions last.events = starts 0 (deliveries.map Delivery.frame) ++
    (if cutInBody cut then [(encodeFrames (deliveries.map Delivery.frame)).length] else [])
  handled : handledFrames last.events =
    (deliveries.filter Delivery.updated).map fun d => (d.msgType, d.frame.encode)
  exhausted : last.reader.rest.length < BMP_HEADER_SIZE
  position : last.reader.position + last.reader.rest.length =
    (encodeFrames (deliveries.map Delivery.frame) ++ cutBytes cut).length
  received : (last.services.collector.counts peerIp).routesReceived =
    (before.counts peerIp).routesReceived + deliveries.countP Delivery.updated
  errors : (last.services.collector.counts peerIp).errors =
    (before.counts peerIp).errors + deliveries.countP Delivery.raised +
      (if cutInBody cut then 1 else 0)

/-- The first state of the loop. -/
def opened (stream : Bytes) (collector : StatisticsCollector IpAddress) (deliveries : List Delivery) :
    ConnectionState World := ⟨⟨stream, 0⟩, [.peerConnected], ⟨collector, none, deliveries⟩⟩

theorem handledFrames_cutEvents (position : Nat) (cut : Option Truncated) :
    handledFrames (cutEvents position cut) = [] := by
  cases cut with
  | none => rfl
  | some t => by_cases h : BMP_HEADER_SIZE ≤ t.kept <;> simp [cutEvents, h, handledFrames, handledFrame?]

theorem headerPositions_cutEvents (position : Nat) (cut : Option Truncated) :
    headerPositions (cutEvents position cut) = if cutInBody cut then [position] else [] := by
  cases cut with
  | none => rfl
  | some t =>
    by_cases h : BMP_HEADER_SIZE ≤ t.kept <;>
      simp [cutEvents, cutInBody, h, headerPositions, headerPosition?]

theorem counts_cut (peerIp : IpAddress) (cut : Option Truncated) (c : StatisticsCollector IpAddress) :
    ((if cutInBody cut then c.incrementError peerIp else c).counts peerIp).routesReceived =
        (c.counts peerIp).routesReceived ∧
      ((if cutInBody cut then c.incrementError peerIp else c).counts peerIp).errors =
        (c.counts peerIp).errors + (if cutInBody cut then 1 else 0) := by
  cases cutInBody cut with
  | false => exact ⟨rfl, rfl⟩
  | true =>
    simp only [↓reduceIte, StatisticsCollector.counts_incrementError]
    exact ⟨rfl, rfl⟩

/-- Whatever the outcomes are, the connection reads the frames one after another to the end of the
stream, and its counters say how many were updated and how many raised. -/
theorem handleConnection_accounts (deliveries : List Delivery) (cut : Option Truncated)
    (peerIp : IpAddress) (collector : StatisticsCollector IpAddress) :
    let stream := encodeFrames (deliveries.map Delivery.frame) ++ cutBytes cut
    let last := final played peerIp (opened stream collector deliveries)
    Accounted peerIp deliveries cut collector last ∧
      (handleConnection played peerIp stream ⟨collector, none, deliveries⟩).1 =
        last.events ++ [.peerDisconnected, .peerRemoved] ∧
      (handleConnection played peerIp stream ⟨collector, none, deliveries⟩).2.collector.stats =
        Function.update last.services.collector.stats peerIp none := by
  intro stream last
  obtain ⟨c, hfinal, hreader, hevents, hcollector⟩ := final_deliveries deliveries
    (opened stream collector deliveries) 0 rfl rfl
  rw [Nat.zero_add] at hreader
  obtain ⟨hcutEvents, hcutCollector, hcutPosition⟩ := final_cut peerIp cut hreader
  rw [← hfinal] at hcutEvents hcutCollector hcutPosition
  obtain ⟨hreceived, herrors⟩ := counts_deliveries peerIp deliveries collector
  refine ⟨⟨?_, ?_, reads_to_end played peerIp _, ?_, ?_, ?_⟩, rfl, ?_⟩
  · rw [hcutEvents, hevents, headerPositions_append, headerPositions_append,
      headerPositions_deliveryEvents, headerPositions_cutEvents]
    rfl
  · rw [hcutEvents, hevents, handledFrames_append, handledFrames_append,
      handledFrames_deliveryEvents, handledFrames_cutEvents, List.append_nil]
    rfl
  · rw [hcutPosition, List.length_append]
  · rw [hcutCollector, (counts_cut peerIp cut _).1, hcollector]
    exact hreceived
  · rw [hcutCollector, (counts_cut peerIp cut _).2, hcollector]
    exact congrArg (· + _) herrors
  · exact StatisticsCollector.removePeer_stats peerIp _

end Pybmpmon.Listener.Accounting
