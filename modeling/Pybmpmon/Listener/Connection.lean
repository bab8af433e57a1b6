import Pybmpmon.Lib.Loop
import Pybmpmon.Protocol.BmpErrors

/-!
# The connection loop

`_handle_connection` of `listener.py` over a finite stream. One round reads a
header, and inside the inner `try` the body, the `last_seen` update, the received
counter and the handler. The three `except` clauses count an error and go on; only
the header read can leave the loop. What the loop calls is what it is given, and
what it does is kept as a list of events.
-/
namespace Pybmpmon.Listener.Connection

open Pybmpmon.Lib.ByteString Pybmpmon.Lib.Loop Pybmpmon.Lib.Outcome Pybmpmon.Python
open Pybmpmon.Protocol.Bmp Pybmpmon.Protocol.BmpParser

/-- What is left of the stream, and how much of it has been read. -/
structure StreamReader where
  rest : Bytes
  position : Nat
  deriving DecidableEq, Repr

/-- `readexactly`: on an ended stream it raises `IncompleteReadError`, and what was
buffered is gone. -/
def StreamReader.readexactly (n : Nat) (r : StreamReader) : Except PyErr Bytes × StreamReader :=
  if r.rest.length < n then (.error .incompleteReadError, ⟨[], r.position + r.rest.length⟩)
  else (.ok (r.rest.take n), ⟨r.rest.drop n, r.position + n⟩)

/-- The clauses of the inner `try`, named by the text they log. -/
inductive ErrorType where
  | bmpParseError
  | bgpParseError
  | messageProcessingError
  deriving DecidableEq, Repr

def errorType (e : PyErr) : ErrorType :=
  if e.isBmpParseError then .bmpParseError
  else if e.isBgpParseError then .bgpParseError
  else .messageProcessingError

inductive Event where
  | peerConnected
  | headerRead (position : Nat) (header : Bytes)
  | lastSeenUpdated
  | received
  | handled (msgType : BMPMessageType) (data : Bytes)
  | errored (kind : ErrorType)
  | peerDisconnected
  | peerRemoved
  deriving DecidableEq, Repr

/-- An error that `except Exception` catches. -/
abbrev Exception := {e : PyErr // e.isException = true}

/-- What the loop calls. The state `σ` is whatever these work on. -/
structure Services (σ : Type) where
  updatePeerLastSeen : IpAddress → σ → Except Exception Unit × σ
  handleRouteMonitoring : Bytes → IpAddress → σ → Except Exception Unit × σ
  handlePeerUp : Bytes → IpAddress → σ → Except Exception Unit × σ
  handlePeerDown : Bytes → IpAddress → σ → Except Exception Unit × σ
  incrementReceived : IpAddress → σ → σ
  incrementError : IpAddress → σ → σ
  removePeer : IpAddress → σ → σ

variable {σ : Type}

def Services.handleBmpMessage (services : Services σ) (msgType : BMPMessageType) (data : Bytes)
    (bmpPeerIp : IpAddress) (s : σ) : Except Exception Unit × σ :=
  match msgType with
  | .routeMonitoring => services.handleRouteMonitoring data bmpPeerIp s
  | .peerUpNotification => services.handlePeerUp data bmpPeerIp s
  | .peerDownNotification => services.handlePeerDown data bmpPeerIp s
  | .initiation | .termination | .statisticsReport => (.ok (), s)

structure ConnectionState (σ : Type) where
  reader : StreamReader
  events : List Event
  services : σ

/-- The body of the inner `try`, up to the clause that catches what it raises. A body of
no bytes is not read, which is what reading no byte gives. -/
def processMessage (services : Services σ) (peerIp : IpAddress) (headerData : Bytes)
    (c : ConnectionState σ) : Except PyErr Unit × ConnectionState σ :=
  match parseBmpHeader headerData with
  | .error e => (.error e, c)
  | .ok header =>
      match c.reader.readexactly (header.length - BMP_HEADER_SIZE) with
      | (.error e, reader) => (.error e, { c with reader := reader })
      | (.ok messageBody, reader) =>
          let fullMessage := headerData ++ messageBody
          match services.updatePeerLastSeen peerIp c.services with
          | (.error e, s) => (.error e, { c with reader := reader, services := s })
          | (.ok (), s) =>
              let c : ConnectionState σ :=
                { reader := reader
                  events := c.events ++ [.lastSeenUpdated, .received, .handled header.msgType fullMessage]
                  services := services.incrementReceived peerIp s }
              match services.handleBmpMessage header.msgType fullMessage peerIp c.services with
              | (.error e, s) => (.error e, { c with services := s })
              | (.ok (), s) => (.ok (), { c with services := s })

/-- The three `except` clauses do the same accounting, and each goes on with the loop. -/
def exceptClauses (services : Services σ) (peerIp : IpAddress) :
    Except PyErr Unit × ConnectionState σ → ConnectionState σ
  | (.ok (), c) => c
  | (.error e, c) =>
      { c with
        events := c.events ++ [.errored (errorType e)]
        services := services.incrementError peerIp c.services }

/-- One round of `while True`. Six bytes are never empty, so the `break` of an empty
header is not taken. -/
def round (services : Services σ) (peerIp : IpAddress) (c : ConnectionState σ) :
    Option (ConnectionState σ) :=
  match c.reader.readexactly BMP_HEADER_SIZE with
  | (.error _, _) => none
  | (.ok headerData, reader) =>
      some (exceptClauses services peerIp (processMessage services peerIp headerData { c with
        reader := reader
        events := c.events ++ [.headerRead c.reader.position headerData] }))

/-- The whole connection: the loop, the clause that catches the end of the stream, and
`finally`. -/
def handleConnection (services : Services σ) (peerIp : IpAddress) (stream : Bytes) (s : σ) :
    List Event × σ :=
  let c := settled (round services peerIp) (fun c => c.reader.rest.length)
    ⟨⟨stream, 0⟩, [.peerConnected], s⟩
  (c.events ++ [.peerDisconnected, .peerRemoved], services.removePeer peerIp c.services)

theorem readexactly_ok {n : Nat} {r : StreamReader} {a rest : Bytes} (hr : r.rest = a ++ rest)
    (ha : a.length = n) : r.readexactly n = (.ok a, ⟨rest, r.position + n⟩) := by
  subst ha
  rw [StreamReader.readexactly, hr, if_neg (by simp), List.take_left, List.drop_left]

theorem readexactly_short {n : Nat} {r : StreamReader} (h : r.rest.length < n) :
    r.readexactly n = (.error .incompleteReadError, ⟨[], r.position + r.rest.length⟩) := by
  rw [StreamReader.readexactly, if_pos h]

theorem readexactly_rest (n : Nat) (r : StreamReader) :
    (r.readexactly n).2.rest.length ≤ r.rest.length - n := by
  rw [StreamReader.readexactly]
  split
  · simp
  · simp

/-- The body of a round reads on and adds events. -/
theorem processMessage_progress (services : Services σ) (peerIp : IpAddress) (headerData : Bytes)
    (c : ConnectionState σ) :
    (processMessage services peerIp headerData c).2.reader.rest.length ≤ c.reader.rest.length ∧
      ∃ more, (processMessage services peerIp headerData c).2.events = c.events ++ more := by
  unfold processMessage
  split
  case h_1 => exact ⟨Nat.le_refl _, [], (List.append_nil _).symm⟩
  case h_2 header _ =>
    have hrest := readexactly_rest (header.length - BMP_HEADER_SIZE) c.reader
    split
    case h_1 e reader hread =>
      rw [hread] at hrest
      exact ⟨Nat.le_trans hrest (Nat.sub_le _ _), [], (List.append_nil _).symm⟩
    case h_2 body reader hread =>
      rw [hread] at hrest
      have hle := Nat.le_trans hrest (Nat.sub_le _ _)
      split
      case h_1 => exact ⟨hle, [], (List.append_nil _).symm⟩
      case h_2 =>
        simp only
        split
        case h_1 => exact ⟨hle, _, rfl⟩
        case h_2 => exact ⟨hle, _, rfl⟩

/-- A message whose header parses, whose body is there and whose `last_seen` update
succeeds is handed to the handler, whatever the handler does. -/
theorem processMessage_body (services : Services σ) (peerIp : IpAddress) {headerData : Bytes}
    {c : ConnectionState σ} {header : BMPHeader} {body rest : Bytes}
    (hparse : parseBmpHeader headerData = .ok header) (hr : c.reader.rest = body ++ rest)
    (hlen : body.length = header.length - BMP_HEADER_SIZE)
    (hlast : (services.updatePeerLastSeen peerIp c.services).1 = .ok ()) :
    (processMessage services peerIp headerData c).2.reader =
        ⟨rest, c.reader.position + body.length⟩ ∧
      (processMessage services peerIp headerData c).2.events = c.events ++
        [.lastSeenUpdated, .received, .handled header.msgType (headerData ++ body)] := by
  unfold processMessage
  rw [hparse]
  simp only
  rw [readexactly_ok hr hlen]
  simp only
  generalize services.updatePeerLastSeen peerIp c.services = result at hlast
  obtain ⟨outcome, s⟩ := result
  cases hlast
  simp only
  split
  case h_1 => exact ⟨by rw [hlen], rfl⟩
  case h_2 => exact ⟨by rw [hlen], rfl⟩

/-- A header that does not parse leaves its body unread. -/
theorem processMessage_rejected {services : Services σ} {peerIp : IpAddress} {headerData : Bytes}
    {c : ConnectionState σ} {e : PyErr} (hparse : parseBmpHeader headerData = .error e) :
    processMessage services peerIp headerData c = (.error e, c) := by
  rw [processMessage, hparse]

@[simp] theorem exceptClauses_reader (services : Services σ) (peerIp : IpAddress)
    (r : Except PyErr Unit × ConnectionState σ) :
    (exceptClauses services peerIp r).reader = r.2.reader := by
  obtain ⟨_ | _, c⟩ := r <;> rfl

theorem exceptClauses_events (services : Services σ) (peerIp : IpAddress)
    (r : Except PyErr Unit × ConnectionState σ) :
    ∃ kinds : List ErrorType,
      (exceptClauses services peerIp r).events = r.2.events ++ kinds.map .errored := by
  obtain ⟨e | u, c⟩ := r
  · exact ⟨[errorType e], rfl⟩
  · exact ⟨[], (List.append_nil _).symm⟩

/-- The round that finds a whole header. -/
theorem round_header (services : Services σ) (peerIp : IpAddress) {c : ConnectionState σ}
    {header rest : Bytes} (hr : c.reader.rest = header ++ rest) (hlen : header.length = 6) :
    round services peerIp c =
      some (exceptClauses services peerIp (processMessage services peerIp header { c with
        reader := ⟨rest, c.reader.position + 6⟩
        events := c.events ++ [.headerRead c.reader.position header] })) := by
  rw [round, readexactly_ok (n := BMP_HEADER_SIZE) hr hlen]
  rfl

/-- A round reads a header and what follows it, and adds events. -/
theorem round_progress (services : Services σ) (peerIp : IpAddress) {c c' : ConnectionState σ}
    (h : round services peerIp c = some c') :
    c'.reader.rest.length < c.reader.rest.length ∧ ∃ more, c'.events = c.events ++ more := by
  by_cases hlen : c.reader.rest.length < 6
  · rw [round, readexactly_short (n := BMP_HEADER_SIZE) hlen] at h
    cases h
  · have hr : c.reader.rest = c.reader.rest.take 6 ++ c.reader.rest.drop 6 :=
      (List.take_append_drop 6 _).symm
    rw [round_header services peerIp hr (by rw [List.length_take]; omega), Option.some_inj] at h
    have hprogress := processMessage_progress services peerIp (c.reader.rest.take 6)
      { c with
        reader := ⟨c.reader.rest.drop 6, c.reader.position + 6⟩
        events := c.events ++ [.headerRead c.reader.position (c.reader.rest.take 6)] }
    obtain ⟨hle, more, hmore⟩ := hprogress
    obtain ⟨kinds, hkinds⟩ := exceptClauses_events services peerIp (processMessage services peerIp
      (c.reader.rest.take 6) { c with
        reader := ⟨c.reader.rest.drop 6, c.reader.position + 6⟩
        events := c.events ++ [.headerRead c.reader.position (c.reader.rest.take 6)] })
    rw [h, hmore, List.append_assoc, List.append_assoc] at hkinds
    refine ⟨?_, _, hkinds⟩
    rw [← h, exceptClauses_reader]
    simp only [List.length_drop] at hle
    omega

theorem round_shrinks (services : Services σ) (peerIp : IpAddress) :
    Shrinks (round services peerIp) (fun c => c.reader.rest.length) :=
  fun _ _ h => (round_progress services peerIp h).1

/-- The loop leaves only when no whole header is left of the stream. -/
theorem round_none_iff (services : Services σ) (peerIp : IpAddress) (c : ConnectionState σ) :
    round services peerIp c = none ↔ c.reader.rest.length < BMP_HEADER_SIZE := by
  constructor
  · intro h
    by_contra hlen
    rw [round, StreamReader.readexactly, if_neg hlen] at h
    cases h
  · intro hlen
    rw [round, readexactly_short hlen]

/-- Whatever the services do, the connection reads its stream to the end. -/
theorem reads_to_end (services : Services σ) (peerIp : IpAddress) (c : ConnectionState σ) :
    (settled (round services peerIp) (fun c => c.reader.rest.length) c).reader.rest.length <
      BMP_HEADER_SIZE :=
  (round_none_iff services peerIp _).mp (step_settled (round_shrinks services peerIp) c)

end Pybmpmon.Listener.Connection
