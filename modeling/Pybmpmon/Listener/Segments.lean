import Pybmpmon.Lib.Transition
import Pybmpmon.Listener.Connection

/-!
# A connection whose stream arrives in pieces

`_handle_connection` while its stream arrives. The transport hands the reader pieces of any
size at any time; the task waits in `readexactly` until enough is there, the stream has
ended or the connection is reset. A reset raises `ConnectionResetError` from the next read,
whatever is still in the buffer, and in `finally` from `wait_closed`, so that the statistics
of the peer stay. The loop of `Connection` reads a stream that is all there; here it is
shown that the task does the same, however the stream is cut.
-/
namespace Pybmpmon.Listener.Segments

open Pybmpmon.Lib.ByteString Pybmpmon.Lib.Loop Pybmpmon.Lib.Transition Pybmpmon.Python
open Pybmpmon.Protocol.Bmp Pybmpmon.Protocol.BmpParser Pybmpmon.Listener.Connection

inductive Status where
  | isOpen
  | ended
  | isReset
  deriving DecidableEq, Repr

/-- Where the task is: it waits for a header or a body, a message is in its hands, or it is done. -/
inductive Point where
  | header
  | body (headerData : Bytes) (header : BMPHeader)
  | message (header : BMPHeader) (fullMessage : Bytes)
  | closed

/-- What has been received, what of it is not read, and the task. -/
structure Wire (σ : Type) where
  fed : Bytes
  buffer : Bytes
  status : Status
  position : Nat
  point : Point
  events : List Event
  services : σ

inductive Label where
  | feed (segment : Bytes)
  | eof
  | reset
  | go
  deriving DecidableEq

variable {σ : Type}

def Wire.opened (s : σ) : Wire σ := ⟨[], [], .isOpen, 0, .header, [.peerConnected], s⟩

/-- The state of the loop, with `rest` still to be read. -/
def Wire.connection (w : Wire σ) (rest : Bytes) : ConnectionState σ :=
  ⟨⟨rest, w.position⟩, w.events, w.services⟩

/-- What the body of the inner `try` does with a message that has been read. -/
def handleMessage (services : Services σ) (peerIp : IpAddress) (header : BMPHeader)
    (fullMessage : Bytes) (c : ConnectionState σ) : Except PyErr Unit × ConnectionState σ :=
  match services.updatePeerLastSeen peerIp c.services with
  | (.error e, s) => (.error e, { c with services := s })
  | (.ok (), s) =>
      let c : ConnectionState σ :=
        { reader := c.reader
          events := c.events ++ [.lastSeenUpdated, .received, .handled header.msgType fullMessage]
          services := services.incrementReceived peerIp s }
      match services.handleBmpMessage header.msgType fullMessage peerIp c.services with
      | (.error e, s) => (.error e, { c with services := s })
      | (.ok (), s) => (.ok (), { c with services := s })

section Task

variable (services : Services σ) (peerIp : IpAddress)

/-- An `except` clause of the inner `try`. -/
def Wire.caught (kind : ErrorType) (w : Wire σ) : Wire σ :=
  { w with
    point := .header
    events := w.events ++ [.errored kind]
    services := services.incrementError peerIp w.services }

/-- The clause that catches what the header read raises, and `finally`. -/
def Wire.disconnected (w : Wire σ) : Wire σ :=
  { w with
    point := .closed
    events := w.events ++ [.peerDisconnected, .peerRemoved]
    services := services.removePeer peerIp w.services }

/-- The clause for a reset. `wait_closed` raises the reset again, and nothing after it in `finally` is
done. -/
def Wire.lost (w : Wire σ) : Wire σ :=
  { w with
    point := .closed
    events := w.events ++ [.peerDisconnected] }

/-- `readexactly` has its bytes. -/
def Wire.taken (n : Nat) (w : Wire σ) : Wire σ :=
  { w with buffer := w.buffer.drop n, position := w.position + n }

/-- `readexactly` on an ended stream that is too short: what was buffered is gone. -/
def Wire.drained (w : Wire σ) : Wire σ :=
  { w with buffer := [], position := w.position + w.buffer.length }

/-- The task runs to where it may have to wait again. -/
def go (w : Wire σ) : Option (Wire σ) :=
  match w.point with
  | .header =>
      if w.status = .isReset then some w.lost
      else if BMP_HEADER_SIZE ≤ w.buffer.length then
        let headerData := w.buffer.take BMP_HEADER_SIZE
        let w := { w.taken BMP_HEADER_SIZE with
          events := w.events ++ [Event.headerRead w.position headerData] }
        match parseBmpHeader headerData with
        | .error e => some (w.caught services peerIp (errorType e))
        | .ok header =>
            -- no body, no read
            if header.length - BMP_HEADER_SIZE = 0 then some { w with point := .message header headerData }
            else some { w with point := .body headerData header }
      else if w.status = .ended then some (w.drained.disconnected services peerIp)
      else none
  | .body headerData header =>
      let remaining := header.length - BMP_HEADER_SIZE
      -- `ConnectionResetError` is no parse error, nor is `IncompleteReadError`
      if w.status = .isReset then some (w.caught services peerIp .messageProcessingError)
      else if remaining ≤ w.buffer.length then
        some { w.taken remaining with point := .message header (headerData ++ w.buffer.take remaining) }
      else if w.status = .ended then
        some (w.drained.caught services peerIp (errorType .incompleteReadError))
      else none
  | .message header fullMessage =>
      let c := exceptClauses services peerIp
        (handleMessage services peerIp header fullMessage (w.connection []))
      some { w with point := .header, events := c.events, services := c.services }
  | .closed => none

def isClosed (w : Wire σ) : Bool :=
  match w.point with
  | .closed => true
  | _ => false

/-- The transport feeds nothing after the end of the stream. Once the task is done nothing happens. -/
def step (w : Wire σ) : Label → Option (Wire σ)
  | .feed segment =>
      if isClosed w || w.status != .isOpen then none
      else some { w with fed := w.fed ++ segment, buffer := w.buffer ++ segment }
  | .eof => if isClosed w || w.status != .isOpen then none else some { w with status := .ended }
  | .reset => if isClosed w || w.status == .isReset then none else some { w with status := .isReset }
  | .go => go services peerIp w

end Task

/-! ## The loop over a stream that is all there -/

section Whole

variable (services : Services σ) (peerIp : IpAddress)

def loopEnd (c : ConnectionState σ) : ConnectionState σ :=
  settled (round services peerIp) (fun c => c.reader.rest.length) c

/-- The body of the inner `try` after the header has been parsed. -/
def readBody (headerData : Bytes) (header : BMPHeader) (c : ConnectionState σ) :
    Except PyErr Unit × ConnectionState σ :=
  match c.reader.readexactly (header.length - BMP_HEADER_SIZE) with
  | (.error e, reader) => (.error e, { c with reader := reader })
  | (.ok messageBody, reader) =>
      handleMessage services peerIp header (headerData ++ messageBody) { c with reader := reader }

theorem processMessage_eq (headerData : Bytes) (c : ConnectionState σ) :
    processMessage services peerIp headerData c =
      match parseBmpHeader headerData with
      | .error e => (.error e, c)
      | .ok header => readBody services peerIp headerData header c := rfl

theorem readBody_ok {headerData body rest : Bytes} {header : BMPHeader} {c : ConnectionState σ}
    (hr : c.reader.rest = body ++ rest) (hlen : body.length = header.length - BMP_HEADER_SIZE) :
    readBody services peerIp headerData header c =
      handleMessage services peerIp header (headerData ++ body)
        { c with reader := ⟨rest, c.reader.position + (header.length - BMP_HEADER_SIZE)⟩ } := by
  rw [readBody, readexactly_ok hr hlen]

theorem readBody_short {headerData : Bytes} {header : BMPHeader} {c : ConnectionState σ}
    (h : c.reader.rest.length < header.length - BMP_HEADER_SIZE) :
    readBody services peerIp headerData header c =
      (.error .incompleteReadError, { c with reader := ⟨[], c.reader.position + c.reader.rest.length⟩ }) := by
  rw [readBody, readexactly_short h]

/-- Handling a message does not touch the reader. -/
theorem handleMessage_reader (header : BMPHeader) (fullMessage : Bytes) (c : ConnectionState σ)
    (reader : StreamReader) :
    exceptClauses services peerIp
        (handleMessage services peerIp header fullMessage { c with reader := reader }) =
      { exceptClauses services peerIp (handleMessage services peerIp header fullMessage c) with
        reader := reader } := by
  unfold handleMessage
  dsimp only
  generalize services.updatePeerLastSeen peerIp c.services = updated
  obtain ⟨e | u, t⟩ := updated
  · rfl
  · dsimp only
    generalize services.handleBmpMessage header.msgType fullMessage peerIp
      (services.incrementReceived peerIp t) = handled
    obtain ⟨e | u, t'⟩ := handled
    · rfl
    · rfl

/-- What the loop ends with when the task goes on with `rest` to read. -/
def Wire.finish (w : Wire σ) (rest : Bytes) : ConnectionState σ :=
  match w.point with
  | .header => loopEnd services peerIp (w.connection rest)
  | .body headerData header => loopEnd services peerIp
      (exceptClauses services peerIp (readBody services peerIp headerData header (w.connection rest)))
  | .message header fullMessage => loopEnd services peerIp
      (exceptClauses services peerIp (handleMessage services peerIp header fullMessage (w.connection rest)))
  | .closed => w.connection rest

theorem loopEnd_short {c : ConnectionState σ} (h : c.reader.rest.length < BMP_HEADER_SIZE) :
    loopEnd services peerIp c = c :=
  settled_stop ((round_none_iff services peerIp c).mpr h)

/-- The round that reads a header, as the task makes it. -/
theorem loopEnd_header {w : Wire σ} {headerData : Bytes} (hlen : headerData.length = BMP_HEADER_SIZE)
    (rest : Bytes) :
    loopEnd services peerIp (w.connection (headerData ++ rest)) =
      loopEnd services peerIp (exceptClauses services peerIp (processMessage services peerIp headerData
        ⟨⟨rest, w.position + 6⟩, w.events ++ [.headerRead w.position headerData], w.services⟩)) :=
  settled_step (round_shrinks services peerIp) (round_header services peerIp (c := w.connection _) rfl hlen)

end Whole

/-! ## The task follows the loop -/

section Follows

variable (services : Services σ) (peerIp : IpAddress) (s : σ)

/-- What is left of a loop apart from its reader. -/
def outcome (c : ConnectionState σ) : List Event × σ := (c.events, c.services)

/-- What a connection that is done leaves, when it has read this much. -/
def closedWith (status : Status) (stream : Bytes) : List Event × σ :=
  if status = .isReset then
    let c := loopEnd services peerIp ⟨⟨stream, 0⟩, [.peerConnected], s⟩
    (c.events ++ [.peerDisconnected], c.services)
  else handleConnection services peerIp stream s

/-- With `rest` still to be read, the loop over the whole stream ends as the task goes on. -/
def Tracks (consumed : Bytes) (w : Wire σ) (rest : Bytes) : Prop :=
  outcome (loopEnd services peerIp ⟨⟨consumed ++ rest, 0⟩, [.peerConnected], s⟩) =
    outcome (w.finish services peerIp rest)

/-- What has been read is the start of what has been received, and the task is where the loop is on
it, whatever comes next. After the end has been seen nothing comes next. -/
structure Follows (consumed : Bytes) (w : Wire σ) : Prop where
  fed : w.fed = consumed ++ w.buffer
  position : w.position = consumed.length
  waits : ∀ headerData header, w.point = .body headerData header → header.length - BMP_HEADER_SIZE ≠ 0
  tracks : isClosed w = false → (∀ rest, Tracks services peerIp s consumed w rest) ∨
    (w.status ≠ .isOpen ∧ (w.status = .ended → w.buffer = []) ∧ w.point = .header ∧
      Tracks services peerIp s consumed w [])
  closed : isClosed w = true → (w.events, w.services) = closedWith services peerIp s w.status consumed ∧
    w.status ≠ .isOpen ∧ (w.status = .ended → w.buffer = [])

theorem follows_opened : Follows services peerIp s [] (.opened s) where
  fed := rfl
  position := rfl
  waits := nofun
  tracks := fun _ => .inl fun _ => rfl
  closed := nofun

variable {services peerIp s} {consumed : Bytes} {w w' : Wire σ}

/-- Whatever is the case, the task is where the loop is when nothing more comes. -/
theorem Follows.tracks_nil (h : Follows services peerIp s consumed w) (hopen : isClosed w = false) :
    Tracks services peerIp s consumed w [] := by
  rcases h.tracks hopen with htracks | ⟨_, _, _, htracks⟩
  · exact htracks []
  · exact htracks

/-- The task that has something to read, or is not at a header, is where the loop is. -/
theorem Follows.tracks_all (h : Follows services peerIp s consumed w) (hopen : isClosed w = false)
    (hmore : w.status ≠ .isReset → w.point = .header → w.buffer ≠ [])
    (hpoint : w.status = .isReset → w.point ≠ .header) (rest : Bytes) :
    Tracks services peerIp s consumed w rest := by
  rcases h.tracks hopen with htracks | ⟨hstatus, hbuffer, hheader, _⟩
  · exact htracks rest
  · cases hw : w.status with
    | isOpen => exact absurd hw hstatus
    | ended => exact absurd (hbuffer hw) (hmore (by rw [hw]; decide) hheader)
    | isReset => exact absurd hheader (hpoint hw)

/-- The task that leaves the loop has handled what the loop handles of what it has read. -/
theorem left_loop (hpoint : w.point = .header) (htracks : Tracks services peerIp s consumed w []) :
    outcome (loopEnd services peerIp ⟨⟨consumed, 0⟩, [.peerConnected], s⟩) = (w.events, w.services) := by
  rw [Tracks, Wire.finish, hpoint, List.append_nil,
    loopEnd_short services peerIp (c := w.connection []) (by simp [Wire.connection, BMP_HEADER_SIZE])] at htracks
  exact htracks

/-! ## One step -/

theorem follows_feed {segment : Bytes} (h : Follows services peerIp s consumed w)
    (hopen : isClosed w = false) (hstatus : w.status = .isOpen) : Follows services peerIp s consumed
      { w with fed := w.fed ++ segment, buffer := w.buffer ++ segment } where
  fed := by rw [h.fed, List.append_assoc]
  position := h.position
  waits := h.waits
  tracks := fun _ => by
    rcases h.tracks hopen with htracks | ⟨hended, _⟩
    · exact .inl htracks
    · exact absurd hstatus hended
  closed := fun hclosed => absurd (hclosed.symm.trans hopen) (by decide)

theorem follows_eof (h : Follows services peerIp s consumed w) (hopen : isClosed w = false)
    (hstatus : w.status = .isOpen) : Follows services peerIp s consumed { w with status := .ended } where
  fed := h.fed
  position := h.position
  waits := h.waits
  tracks := fun _ => by
    rcases h.tracks hopen with htracks | ⟨hended, _⟩
    · exact .inl htracks
    · exact absurd hstatus hended
  closed := fun hclosed => absurd (hclosed.symm.trans hopen) (by decide)

theorem follows_reset (h : Follows services peerIp s consumed w) (hopen : isClosed w = false) :
    Follows services peerIp s consumed { w with status := .isReset } where
  fed := h.fed
  position := h.position
  waits := h.waits
  tracks := fun _ => by
    rcases h.tracks hopen with htracks | ⟨_, _, hpoint, htracks⟩
    · exact .inl htracks
    · exact .inr ⟨by simp, nofun, hpoint, htracks⟩
  closed := fun hclosed => absurd (hclosed.symm.trans hopen) (by decide)

/-- A task that leaves the loop at the end of the stream. -/
theorem follows_disconnected (hfed : w.fed = consumed ++ w.buffer) (hposition : w.position = consumed.length)
    (hpoint : w.point = .header) (htracks : Tracks services peerIp s consumed w [])
    (hstatus : w.status = .ended) (hbuffer : w.buffer = []) :
    Follows services peerIp s consumed (w.disconnected services peerIp) where
  fed := hfed
  position := hposition
  waits := nofun
  tracks := nofun
  closed := fun _ => by
    have hleft := left_loop hpoint htracks
    rw [outcome, Prod.mk.injEq] at hleft
    have hended : (w.disconnected services peerIp).status ≠ .isReset := by
      rw [Wire.disconnected, hstatus]
      decide
    refine ⟨?_, by rw [Wire.disconnected, hstatus]; decide, fun _ => hbuffer⟩
    rw [closedWith, if_neg hended]
    show _ = ((loopEnd services peerIp ⟨⟨consumed, 0⟩, [.peerConnected], s⟩).events ++ _,
      services.removePeer peerIp (loopEnd services peerIp ⟨⟨consumed, 0⟩, [.peerConnected], s⟩).services)
    rw [hleft.1, hleft.2]
    rfl

/-- A task that leaves the loop because of a reset. -/
theorem follows_lost (h : Follows services peerIp s consumed w) (hpoint : w.point = .header)
    (hstatus : w.status = .isReset) : Follows services peerIp s consumed w.lost where
  fed := h.fed
  position := h.position
  waits := nofun
  tracks := nofun
  closed := fun _ => by
    have hleft := left_loop hpoint (h.tracks_nil (by rw [isClosed, hpoint]))
    rw [outcome, Prod.mk.injEq] at hleft
    refine ⟨?_, by rw [Wire.lost, hstatus]; decide, fun hended => ?_⟩
    · have hlost : w.lost.status = .isReset := hstatus
      rw [closedWith, if_pos hlost]
      simp only [hleft.1, hleft.2]
      rfl
    · rw [Wire.lost, hstatus] at hended
      cases hended

/-- Reading what is buffered to the end of the stream. -/
theorem drained_fed (h : Follows services peerIp s consumed w) :
    w.drained.fed = (consumed ++ w.buffer) ++ w.drained.buffer ∧
      w.drained.position = (consumed ++ w.buffer).length := by
  refine ⟨by rw [Wire.drained, List.append_nil]; exact h.fed, ?_⟩
  rw [List.length_append, ← h.position]
  rfl

theorem taken_fed (h : Follows services peerIp s consumed w) {n : Nat} (hn : n ≤ w.buffer.length) :
    (w.taken n).fed = (consumed ++ w.buffer.take n) ++ (w.taken n).buffer ∧
      (w.taken n).position = (consumed ++ w.buffer.take n).length := by
  constructor
  · rw [Wire.taken, List.append_assoc, List.take_append_drop]
    exact h.fed
  · rw [List.length_append, List.length_take, Nat.min_eq_left hn, ← h.position]
    rfl

/-- The end of the stream in the place of a header. -/
theorem follows_header_end (h : Follows services peerIp s consumed w) (hpoint : w.point = .header)
    (hstatus : w.status = .ended) (hshort : w.buffer.length < BMP_HEADER_SIZE) :
    Follows services peerIp s (consumed ++ w.buffer) (w.drained.disconnected services peerIp) := by
  have hopen : isClosed w = false := by rw [isClosed, hpoint]
  obtain ⟨hfed, hposition⟩ := drained_fed h
  refine follows_disconnected hfed hposition hpoint ?_ hstatus rfl
  have htracks : Tracks services peerIp s consumed w w.buffer := by
    by_cases hbuffer : w.buffer = []
    · rw [hbuffer]
      exact h.tracks_nil hopen
    · exact h.tracks_all hopen (fun _ _ => hbuffer) (by simp [hstatus]) _
  have hdrained : w.drained.point = .header := hpoint
  rw [Tracks, Wire.finish, hpoint, loopEnd_short services peerIp (c := w.connection w.buffer) hshort]
    at htracks
  rw [Tracks, List.append_nil, htracks, Wire.finish, hdrained,
    loopEnd_short services peerIp (c := w.drained.connection []) (by simp [Wire.connection, BMP_HEADER_SIZE])]
  rfl

/-- A header that is there. -/
theorem follows_header (h : Follows services peerIp s consumed w) (hpoint : w.point = .header)
    (hstatus : w.status ≠ .isReset) (hlen : BMP_HEADER_SIZE ≤ w.buffer.length)
    (hgo : go services peerIp w = some w') :
    Follows services peerIp s (consumed ++ w.buffer.take BMP_HEADER_SIZE) w' := by
  have hopen : isClosed w = false := by rw [isClosed, hpoint]
  have hbuffer : w.buffer ≠ [] := by
    intro hnil
    rw [hnil] at hlen
    exact absurd hlen (by decide)
  have htaken : (w.buffer.take BMP_HEADER_SIZE).length = BMP_HEADER_SIZE := by
    rw [List.length_take, Nat.min_eq_left hlen]
  obtain ⟨hfed, hposition⟩ := taken_fed h hlen
  have hround : ∀ rest, outcome (loopEnd services peerIp
      ⟨⟨consumed ++ w.buffer.take BMP_HEADER_SIZE ++ rest, 0⟩, [.peerConnected], s⟩) =
        outcome (loopEnd services peerIp (exceptClauses services peerIp (processMessage services peerIp
          (w.buffer.take BMP_HEADER_SIZE) ⟨⟨rest, w.position + 6⟩,
            w.events ++ [.headerRead w.position (w.buffer.take BMP_HEADER_SIZE)], w.services⟩))) := by
    intro rest
    have htracks := h.tracks_all hopen (fun _ _ => hbuffer) (fun hreset => absurd hreset hstatus)
      (w.buffer.take BMP_HEADER_SIZE ++ rest)
    rw [Tracks, Wire.finish, hpoint, loopEnd_header services peerIp htaken] at htracks
    rw [List.append_assoc]
    exact htracks
  simp only [go, hpoint, if_neg hstatus, if_pos hlen] at hgo
  cases hparse : parseBmpHeader (w.buffer.take BMP_HEADER_SIZE) with
  | error e =>
    rw [hparse, Option.some_inj] at hgo
    subst hgo
    refine ⟨hfed, hposition, nofun, fun _ => .inl fun rest => ?_, nofun⟩
    rw [Tracks, hround, processMessage_eq, hparse]
    rfl
  | ok header =>
    rw [hparse] at hgo
    simp only at hgo
    split at hgo
    · rename_i hempty
      cases hgo
      refine ⟨hfed, hposition, nofun, fun _ => .inl fun rest => ?_, nofun⟩
      rw [Tracks, hround, processMessage_eq, hparse]
      simp only
      have hnone : ([] : Bytes).length = header.length - BMP_HEADER_SIZE := hempty.symm
      rw [readBody_ok services peerIp rfl hnone, List.append_nil, hempty]
      rfl
    · rename_i hbody
      cases hgo
      refine ⟨hfed, hposition, ?_, fun _ => .inl fun rest => ?_, nofun⟩
      · rintro _ _ hsame
        cases hsame
        exact hbody
      · rw [Tracks, hround, processMessage_eq, hparse]
        rfl

/-- A body, or what comes in its place. -/
theorem follows_body (h : Follows services peerIp s consumed w) {headerData : Bytes} {header : BMPHeader}
    (hpoint : w.point = .body headerData header) (hgo : go services peerIp w = some w') :
    ∃ consumed', Follows services peerIp s consumed' w' := by
  have hopen : isClosed w = false := by rw [isClosed, hpoint]
  have hwaits := h.waits headerData header hpoint
  have htracks : ∀ rest, Tracks services peerIp s consumed w rest :=
    h.tracks_all hopen (by simp [hpoint]) (by simp [hpoint])
  simp only [Tracks, Wire.finish, hpoint] at htracks
  simp only [go, hpoint] at hgo
  split at hgo
  · rename_i hreset
    cases hgo
    refine ⟨consumed, h.fed, h.position, nofun, fun _ => .inr ⟨?_, ?_, rfl, ?_⟩, nofun⟩
    · simp [Wire.caught, hreset]
    · simp [Wire.caught, hreset]
    · rw [Tracks, htracks, readBody_short services peerIp (c := w.connection [])
        (Nat.pos_of_ne_zero hwaits)]
      rfl
  · split at hgo
    · rename_i hlen
      cases hgo
      obtain ⟨hfed, hposition⟩ := taken_fed h hlen
      refine ⟨_, hfed, hposition, nofun, fun _ => .inl fun rest => ?_, nofun⟩
      have htaken : (w.buffer.take (header.length - BMP_HEADER_SIZE)).length =
          header.length - BMP_HEADER_SIZE := by
        rw [List.length_take, Nat.min_eq_left hlen]
      rw [Tracks, List.append_assoc, htracks, readBody_ok services peerIp (c := w.connection _) rfl htaken]
      rfl
    · rename_i hshort
      split at hgo
      · rename_i hended
        cases hgo
        obtain ⟨hfed, hposition⟩ := drained_fed h
        refine ⟨_, hfed, hposition, nofun, fun _ => .inr ⟨?_, fun _ => rfl, rfl, ?_⟩, nofun⟩
        · simp [Wire.caught, Wire.drained, hended]
        · rw [Tracks, List.append_nil, htracks, readBody_short services peerIp
            (c := w.connection w.buffer) (Nat.lt_of_not_le hshort)]
          rfl
      · cases hgo

/-- A message in the hands of the task. -/
theorem follows_message (h : Follows services peerIp s consumed w) {header : BMPHeader}
    {fullMessage : Bytes} (hpoint : w.point = .message header fullMessage)
    (hgo : go services peerIp w = some w') : Follows services peerIp s consumed w' := by
  have hopen : isClosed w = false := by rw [isClosed, hpoint]
  have htracks : ∀ rest, Tracks services peerIp s consumed w rest :=
    h.tracks_all hopen (by simp [hpoint]) (by simp [hpoint])
  simp only [Tracks, Wire.finish, hpoint] at htracks
  simp only [go, hpoint, Option.some_inj] at hgo
  subst hgo
  refine ⟨h.fed, h.position, nofun, fun _ => .inl fun rest => ?_, nofun⟩
  have hreader := handleMessage_reader services peerIp header fullMessage (w.connection []) ⟨rest, w.position⟩
  rw [Tracks, htracks]
  exact congrArg (fun c => outcome (loopEnd services peerIp c)) hreader

/-- The step lemma. -/
theorem follows_step (a : Label) (hstep : step services peerIp w a = some w')
    (h : ∃ consumed, Follows services peerIp s consumed w) :
    ∃ consumed, Follows services peerIp s consumed w' := by
  obtain ⟨consumed, h⟩ := h
  cases a with
  | feed segment =>
    rw [step] at hstep
    split at hstep
    · cases hstep
    · rename_i hwaits
      cases hstep
      simp only [Bool.or_eq_true, not_or, Bool.not_eq_true, bne_eq_false_iff_eq] at hwaits
      exact ⟨consumed, follows_feed h hwaits.1 hwaits.2⟩
  | eof =>
    rw [step] at hstep
    split at hstep
    · cases hstep
    · rename_i hwaits
      cases hstep
      simp only [Bool.or_eq_true, not_or, Bool.not_eq_true, bne_eq_false_iff_eq] at hwaits
      exact ⟨consumed, follows_eof h hwaits.1 hwaits.2⟩
  | reset =>
    rw [step] at hstep
    split at hstep
    · cases hstep
    · rename_i hwaits
      cases hstep
      simp only [Bool.or_eq_true, not_or, Bool.not_eq_true] at hwaits
      exact ⟨consumed, follows_reset h hwaits.1⟩
  | go =>
    rw [step] at hstep
    cases hpoint : w.point with
    | header =>
      by_cases hreset : w.status = .isReset
      · simp only [go, hpoint, if_pos hreset, Option.some_inj] at hstep
        subst hstep
        exact ⟨consumed, follows_lost h hpoint hreset⟩
      · by_cases hlen : BMP_HEADER_SIZE ≤ w.buffer.length
        · exact ⟨_, follows_header h hpoint hreset hlen hstep⟩
        · simp only [go, hpoint, if_neg hreset, if_neg hlen] at hstep
          split at hstep
          · rename_i hended
            cases hstep
            exact ⟨_, follows_header_end h hpoint hended (Nat.lt_of_not_le hlen)⟩
          · cases hstep
    | body headerData header => exact follows_body h hpoint hstep
    | message header fullMessage => exact ⟨consumed, follows_message h hpoint hstep⟩
    | closed =>
      rw [go, hpoint] at hstep
      cases hstep

end Follows

/-! ## Whole runs -/

section Runs

variable (services : Services σ) (peerIp : IpAddress) (s : σ)

def Label.segment : Label → Option Bytes
  | .feed segment => some segment
  | _ => none

/-- What the transport has handed over in a run. -/
def received (labels : List Label) : Bytes := (labels.filterMap Label.segment).flatten

/-- The task hands nothing to its own reader, and neither ends nor reopens the stream. -/
theorem go_keeps {w w' : Wire σ} (h : go services peerIp w = some w') :
    w'.fed = w.fed ∧ w'.status = w.status := by
  unfold go at h
  split at h
  · dsimp only at h
    split at h
    · cases h
      exact ⟨rfl, rfl⟩
    · split at h
      · split at h
        · cases h
          exact ⟨rfl, rfl⟩
        · split at h
          · cases h
            exact ⟨rfl, rfl⟩
          · cases h
            exact ⟨rfl, rfl⟩
      · split at h
        · cases h
          exact ⟨rfl, rfl⟩
        · cases h
  · dsimp only at h
    split at h
    · cases h
      exact ⟨rfl, rfl⟩
    · split at h
      · cases h
        exact ⟨rfl, rfl⟩
      · split at h
        · cases h
          exact ⟨rfl, rfl⟩
        · cases h
  · cases h
    exact ⟨rfl, rfl⟩
  · cases h

theorem step_fed {w w' : Wire σ} {a : Label} (h : step services peerIp w a = some w') :
    w'.fed = w.fed ++ received [a] := by
  cases a with
  | go =>
    rw [(go_keeps services peerIp h).1]
    exact (List.append_nil _).symm
  | feed segment =>
    rw [step] at h
    split at h
    · cases h
    · cases h
      simp [received, Label.segment]
  | eof =>
    rw [step] at h
    split at h
    · cases h
    · cases h
      exact (List.append_nil _).symm
  | reset =>
    rw [step] at h
    split at h
    · cases h
    · cases h
      exact (List.append_nil _).symm

theorem run_fed {labels : List Label} {w w' : Wire σ}
    (h : run (step services peerIp) w labels = some w') : w'.fed = w.fed ++ received labels := by
  induction labels generalizing w with
  | nil =>
    cases h
    exact (List.append_nil _).symm
  | cons a labels ih =>
    obtain ⟨t, hstep, hrest⟩ := run_cons_some.mp h
    have happend : received (a :: labels) = received [a] ++ received labels := by
      rw [received, received, received, ← List.flatten_append, ← List.filterMap_append]
      rfl
    rw [ih hrest, step_fed services peerIp hstep, List.append_assoc, happend]

/-- However the stream is cut and whenever it ends or is reset, the events of a connection that is
done, and what it has done to the rest of the program, are those of the loop over what it has read:
the start of what it received, and all of it unless the connection was reset, when also the peer is
not removed. -/
theorem same_as_whole_stream {labels : List Label} {w : Wire σ}
    (hrun : run (step services peerIp) (.opened s) labels = some w) (hclosed : isClosed w = true) :
    ∃ consumed, consumed <+: received labels ∧ w.status ≠ .isOpen ∧
      (w.status = .ended → consumed = received labels) ∧
      (w.events, w.services) = closedWith services peerIp s w.status consumed := by
  have hstart : ∃ consumed, Follows services peerIp s consumed (.opened s) :=
    ⟨[], follows_opened services peerIp s⟩
  obtain ⟨consumed, h⟩ : ∃ consumed, Follows services peerIp s consumed w :=
    run_keeps (fun w a w' _ hstep hw => follows_step a hstep hw)
      (throughout_of_always (fun _ _ => trivial) labels _) hrun hstart
  obtain ⟨hsame, hstatus, hended⟩ := h.closed hclosed
  have hfed : received labels = consumed ++ w.buffer := (run_fed services peerIp hrun).symm.trans h.fed
  refine ⟨consumed, ⟨w.buffer, hfed.symm⟩, hstatus, fun hw => ?_, hsame⟩
  rw [hfed, hended hw, List.append_nil]

/-- What the task has still to do at most, once nothing more comes. -/
def toDo (w : Wire σ) : Nat :=
  3 * w.buffer.length +
    match w.point with
    | .header => 1
    | .body _ _ => 3
    | .message _ _ => 2
    | .closed => 0

/-- When nothing more comes the task does not wait, and has less to do after each step. -/
theorem go_progress {w : Wire σ} (hstatus : w.status ≠ .isOpen) (hopen : isClosed w = false) :
    ∃ w', go services peerIp w = some w' ∧ toDo w' < toDo w := by
  have hended : w.status ≠ .isReset → w.status = .ended := by
    intro hreset
    cases hw : w.status with
    | isOpen => exact absurd hw hstatus
    | ended => rfl
    | isReset => exact absurd hw hreset
  cases hpoint : w.point with
  | header =>
    by_cases hreset : w.status = .isReset
    · refine ⟨w.lost, by simp only [go, hpoint, if_pos hreset], ?_⟩
      simp [toDo, Wire.lost, hpoint]
    · by_cases hlen : BMP_HEADER_SIZE ≤ w.buffer.length
      · have hsix : 6 ≤ w.buffer.length := hlen
        simp only [go, hpoint, if_neg hreset, if_pos hlen]
        cases parseBmpHeader (w.buffer.take BMP_HEADER_SIZE) with
        | error e =>
          refine ⟨_, rfl, ?_⟩
          simp only [toDo, Wire.caught, Wire.taken, hpoint, List.length_drop, BMP_HEADER_SIZE]
          omega
        | ok header =>
          simp only
          split
          · refine ⟨_, rfl, ?_⟩
            simp only [toDo, Wire.taken, hpoint, List.length_drop, BMP_HEADER_SIZE]
            omega
          · refine ⟨_, rfl, ?_⟩
            simp only [toDo, Wire.taken, hpoint, List.length_drop, BMP_HEADER_SIZE]
            omega
      · refine ⟨w.drained.disconnected services peerIp, ?_, ?_⟩
        · simp only [go, hpoint, if_neg hreset, if_neg hlen, if_pos (hended hreset)]
        · simp [toDo, Wire.disconnected, Wire.drained, hpoint]
  | body headerData header =>
    by_cases hreset : w.status = .isReset
    · refine ⟨w.caught services peerIp .messageProcessingError, ?_, ?_⟩
      · simp only [go, hpoint, if_pos hreset]
      · simp [toDo, Wire.caught, hpoint]
    · by_cases hlen : header.length - BMP_HEADER_SIZE ≤ w.buffer.length
      · simp only [go, hpoint, if_neg hreset, if_pos hlen]
        refine ⟨_, rfl, ?_⟩
        simp only [toDo, Wire.taken, hpoint, List.length_drop]
        omega
      · refine ⟨w.drained.caught services peerIp (errorType .incompleteReadError), ?_, ?_⟩
        · simp only [go, hpoint, if_neg hreset, if_neg hlen, if_pos (hended hreset)]
        · simp only [toDo, Wire.caught, Wire.drained, hpoint, List.length_nil]
          omega
  | message header fullMessage =>
    refine ⟨_, by simp only [go, hpoint]; rfl, ?_⟩
    simp [toDo, hpoint]
  | closed =>
    rw [isClosed, hpoint] at hopen
    cases hopen

/-- Once its stream has ended or is reset a connection closes after a bounded number of steps of its
own, whatever the handlers do. -/
theorem closes_after_end {w : Wire σ} (hstatus : w.status ≠ .isOpen) :
    ∃ n w', n ≤ toDo w ∧ run (step services peerIp) w (List.replicate n .go) = some w' ∧
      isClosed w' = true := by
  generalize hsize : toDo w = size
  induction size using Nat.strongRecOn generalizing w with
  | ind size ih =>
    by_cases hopen : isClosed w = false
    · obtain ⟨t, hgo, hless⟩ := go_progress services peerIp hstatus hopen
      have hkept : t.status ≠ .isOpen := by
        rw [(go_keeps services peerIp hgo).2]
        exact hstatus
      rw [hsize] at hless
      obtain ⟨n, w', hn, hrun, hclosed⟩ := ih (toDo t) hless hkept rfl
      refine ⟨n + 1, w', by omega, ?_, hclosed⟩
      have hstep : step services peerIp w .go = some t := hgo
      rw [List.replicate_succ, run_cons_of hstep]
      exact hrun
    · exact ⟨0, w, Nat.zero_le _, rfl, by simpa using hopen⟩

end Runs

/-- Nothing raises, and the messages handled are counted. -/
def counting : Services Nat where
  updatePeerLastSeen := fun _ n => (.ok (), n)
  handleRouteMonitoring := fun _ _ n => (.ok (), n + 1)
  handlePeerUp := fun _ _ n => (.ok (), n + 1)
  handlePeerDown := fun _ _ n => (.ok (), n + 1)
  incrementReceived := fun _ n => n
  incrementError := fun _ n => n
  removePeer := fun _ n => n

def sampleRouter : IpAddress := .v4 (.ofOctets 192 0 2 1)

/-- An Initiation message in two pieces, with the start of another header. -/
def twoPieces : List Label :=
  [.feed [3, 0, 0], .feed [0, 8, 4, 1, 2, 3], .go, .go, .go, .eof, .go]

theorem same_as_whole_stream_two :
    let w := (run (step counting sampleRouter) (.opened 0) twoPieces).get (by decide)
    ∃ consumed, consumed <+: received twoPieces ∧ w.status ≠ .isOpen ∧
      (w.status = .ended → consumed = received twoPieces) ∧
      (w.events, w.services) = closedWith counting sampleRouter 0 w.status consumed :=
  @same_as_whole_stream _ counting sampleRouter 0 twoPieces _ (Option.some_get _).symm (by decide)

/-- A connection that is reset with a message in its buffer. -/
def resetWire : Wire Nat :=
  { Wire.opened 0 with fed := [3, 0, 0, 0, 6, 4], buffer := [3, 0, 0, 0, 6, 4], status := .isReset }

theorem closes_after_end_reset :
    ∃ n w', n ≤ toDo resetWire ∧
      run (step counting sampleRouter) resetWire (List.replicate n .go) = some w' ∧ isClosed w' = true :=
  closes_after_end counting sampleRouter (w := resetWire) (by decide)

end Pybmpmon.Listener.Segments
