import Pybmpmon.Listener.Connection
import Pybmpmon.Protocol.BmpEncoding

/-!
# Frames of any type

A stream of frames with correct version and length, and which of them the connection
loop hands to the handler. A frame of one of the six types is read whole. A header of
any other type is rejected when only its six bytes have been read, so the body of the
frame is what the loop reads next.
-/
namespace Pybmpmon.Listener.Framing

open Pybmpmon.Lib.ByteString Pybmpmon.Lib.Loop Pybmpmon.Lib.Outcome Pybmpmon.Python
open Pybmpmon.Utils.Binary Pybmpmon.Protocol.Bmp Pybmpmon.Protocol.BmpParser
open Pybmpmon.Listener.Connection

/-- A type octet and a body whose frame has a length of 32 bits. -/
structure Frame where
  typeOctet : UInt8
  body : Bytes
  fits : 6 + body.length < 2 ^ 32

namespace Frame

def size (f : Frame) : Nat := 6 + f.body.length

def header (f : Frame) : Bytes := 3 :: (beBytes 4 f.size ++ [f.typeOctet])

def encode (f : Frame) : Bytes := f.header ++ f.body

/-- The type of a recognised frame. -/
def msgType (f : Frame) : Option BMPMessageType := BMPMessageType.ofNat? f.typeOctet.toNat

end Frame

def encodeFrames (frames : List Frame) : Bytes := frames.flatMap Frame.encode

/-- Where the frames start in a stream whose first frame starts at `position`. -/
def starts (position : Nat) : List Frame → List Nat
  | [] => []
  | f :: frames => position :: starts (position + f.size) frames

/-- The recognised frames, with their types. -/
def recognised (frames : List Frame) : List (BMPMessageType × Bytes) :=
  frames.filterMap fun f => f.msgType.map fun t => (t, f.encode)

def handledFrame? : Event → Option (BMPMessageType × Bytes)
  | .handled t data => some (t, data)
  | _ => none

def headerPosition? : Event → Option Nat
  | .headerRead position _ => some position
  | _ => none

/-- What was handed to the handler, in order. -/
def handledFrames (events : List Event) : List (BMPMessageType × Bytes) :=
  events.filterMap handledFrame?

/-- Where headers were taken from the stream, in order. -/
def headerPositions (events : List Event) : List Nat := events.filterMap headerPosition?

/-- Exactly the recognised frames are handed on, and a header is taken only where a frame starts. -/
structure Synchronised (frames : List Frame) (events : List Event) : Prop where
  handled : handledFrames events = recognised frames
  headers : ∀ position ∈ headerPositions events, position ∈ starts 0 frames

/-- No frame of another type has a body, but the last one may have one too short for a header. -/
def Skippable : List Frame → Prop
  | [] => True
  | [f] => f.msgType = none → f.body.length < 6
  | f :: g :: frames => (f.msgType = none → f.body = []) ∧ Skippable (g :: frames)

theorem Frame.header_length (f : Frame) : f.header.length = 6 := by simp [Frame.header]

theorem Frame.encode_length (f : Frame) : f.encode.length = f.size := by
  rw [Frame.encode, List.length_append, f.header_length, Frame.size]

theorem starts_ge {position p : Nat} {frames : List Frame} (h : p ∈ starts position frames) :
    position ≤ p := by
  induction frames generalizing position with
  | nil => cases h
  | cons f frames ih =>
    rcases List.mem_cons.mp h with rfl | h
    · exact Nat.le_refl _
    · have hge := ih h
      omega

/-! ## The header of one frame -/

theorem parseBmpHeader_recognised {f : Frame} {t : BMPMessageType} (ht : f.msgType = some t) :
    parseBmpHeader f.header = .ok ⟨3, f.size, t⟩ := by
  have hat := at_zero f.header
  have hlen := hat.tail
  have htype := hlen.advance_of (beBytes_length 4 f.size)
  have hfits : f.size < 2 ^ 32 := f.fits
  rw [parseBmpHeader, if_neg (by rw [f.header_length]; decide), exceptValueError_ok_iff,
    readUint8_at hat, ok_bind, if_neg (by decide), readUint32_beBytes hlen hfits, ok_bind,
    if_neg (by rw [BMP_HEADER_SIZE, Frame.size]; omega), readUint8_at htype, ok_bind]
  have hsome : BMPMessageType.ofNat? f.typeOctet.toNat = some t := ht
  rw [hsome]
  rfl

theorem parseBmpHeader_unrecognised {f : Frame} (ht : f.msgType = none) :
    ∃ m, parseBmpHeader f.header = .error (.bmpParseError m) := by
  have hat := at_zero f.header
  have hlen := hat.tail
  have htype := hlen.advance_of (beBytes_length 4 f.size)
  have hfits : f.size < 2 ^ 32 := f.fits
  rw [parseBmpHeader, if_neg (by rw [f.header_length]; decide), readUint8_at hat, ok_bind,
    if_neg (by decide), readUint32_beBytes hlen hfits, ok_bind,
    if_neg (by rw [BMP_HEADER_SIZE, Frame.size]; omega), readUint8_at htype, ok_bind]
  have hnone : BMPMessageType.ofNat? f.typeOctet.toNat = none := ht
  rw [hnone]
  exact ⟨_, rfl⟩

variable {σ : Type} {services : Services σ}

/-- The `last_seen` update succeeds whatever the state. -/
def LastSeenSucceeds (services : Services σ) : Prop :=
  ∀ peerIp s, (services.updatePeerLastSeen peerIp s).1 = .ok ()

theorem round_recognised (hlast : LastSeenSucceeds services) (peerIp : IpAddress)
    {c : ConnectionState σ} {f : Frame} {t : BMPMessageType} {rest : Bytes} {position : Nat}
    (ht : f.msgType = some t) (hr : c.reader = ⟨f.encode ++ rest, position⟩) :
    ∃ c' : ConnectionState σ, round services peerIp c = some c' ∧
      c'.reader = ⟨rest, position + f.size⟩ ∧
      ∃ kinds : List ErrorType, c'.events = c.events ++ [.headerRead position f.header,
        .lastSeenUpdated, .received, .handled t f.encode] ++ kinds.map .errored := by
  have hrest : c.reader.rest = f.header ++ (f.body ++ rest) := by
    rw [hr, Frame.encode, List.append_assoc]
  have hround := round_header services peerIp hrest f.header_length
  obtain ⟨hreader, hevents⟩ := processMessage_body services peerIp
    (c := { c with
      reader := ⟨f.body ++ rest, c.reader.position + 6⟩
      events := c.events ++ [.headerRead c.reader.position f.header] })
    (parseBmpHeader_recognised ht) rfl (by simp only [Frame.size, BMP_HEADER_SIZE]; omega)
    (hlast peerIp c.services)
  obtain ⟨kinds, hkinds⟩ := exceptClauses_events services peerIp
    (processMessage services peerIp f.header { c with
      reader := ⟨f.body ++ rest, c.reader.position + 6⟩
      events := c.events ++ [.headerRead c.reader.position f.header] })
  refine ⟨_, hround, ?_, kinds, ?_⟩
  · rw [exceptClauses_reader, hreader, hr, Frame.size, Nat.add_assoc]
  · rw [hkinds, hevents, hr, List.append_assoc c.events]
    rfl

theorem round_unrecognised (services : Services σ) (peerIp : IpAddress) {c : ConnectionState σ}
    {f : Frame} {rest : Bytes} {position : Nat} (ht : f.msgType = none)
    (hr : c.reader = ⟨f.encode ++ rest, position⟩) :
    ∃ c' : ConnectionState σ, round services peerIp c = some c' ∧
      c'.reader = ⟨f.body ++ rest, position + 6⟩ ∧
      c'.events = c.events ++ [.headerRead position f.header, .errored .bmpParseError] := by
  have hrest : c.reader.rest = f.header ++ (f.body ++ rest) := by
    rw [hr, Frame.encode, List.append_assoc]
  obtain ⟨m, hm⟩ := parseBmpHeader_unrecognised ht
  refine ⟨_, round_header services peerIp hrest f.header_length, ?_, ?_⟩
  · rw [exceptClauses_reader, processMessage_rejected hm, hr]
  · rw [processMessage_rejected hm, hr, exceptClauses, List.append_assoc]
    rfl

/-! ## The whole stream -/

/-- The last state of the loop. -/
def final (services : Services σ) (peerIp : IpAddress) (c : ConnectionState σ) :
    ConnectionState σ :=
  settled (round services peerIp) (fun c => c.reader.rest.length) c

theorem final_step {peerIp : IpAddress} {c c' : ConnectionState σ}
    (h : round services peerIp c = some c') : final services peerIp c = final services peerIp c' :=
  settled_step (round_shrinks services peerIp) h

theorem final_stop (peerIp : IpAddress) {c : ConnectionState σ} (h : c.reader.rest.length < 6) :
    final services peerIp c = c :=
  settled_stop ((round_none_iff services peerIp c).mpr h)

@[simp] theorem handledFrames_append (a b : List Event) :
    handledFrames (a ++ b) = handledFrames a ++ handledFrames b := List.filterMap_append

@[simp] theorem headerPositions_append (a b : List Event) :
    headerPositions (a ++ b) = headerPositions a ++ headerPositions b := List.filterMap_append

@[simp] theorem handledFrames_errored (kinds : List ErrorType) :
    handledFrames (kinds.map .errored) = [] := by
  simp [handledFrames, List.filterMap_map, Function.comp_def, handledFrame?]

@[simp] theorem headerPositions_errored (kinds : List ErrorType) :
    headerPositions (kinds.map .errored) = [] := by
  simp [headerPositions, List.filterMap_map, Function.comp_def, headerPosition?]

/-- What the loop adds over skippable frames. -/
theorem final_skippable (hlast : LastSeenSucceeds services) (peerIp : IpAddress)
    {frames : List Frame} (hskip : Skippable frames) {c : ConnectionState σ} {position : Nat}
    (hr : c.reader = ⟨encodeFrames frames, position⟩) :
    handledFrames (final services peerIp c).events =
        handledFrames c.events ++ recognised frames ∧
      headerPositions (final services peerIp c).events =
        headerPositions c.events ++ starts position frames := by
  induction frames generalizing c position with
  | nil =>
    rw [final_stop peerIp (by rw [hr]; exact Nat.zero_lt_succ 5)]
    simp [recognised, starts]
  | cons f frames ih =>
    have hcons : c.reader = ⟨f.encode ++ encodeFrames frames, position⟩ := hr
    cases ht : f.msgType with
    | some t =>
      have htail : Skippable frames := by
        cases frames with
        | nil => trivial
        | cons g frames => exact hskip.2
      obtain ⟨c', hround, hreader, kinds, hevents⟩ := round_recognised hlast peerIp ht hcons
      obtain ⟨hhandled, hheaders⟩ := ih htail hreader
      have hmine : recognised (f :: frames) = (t, f.encode) :: recognised frames := by
        simp [recognised, ht]
      rw [final_step hround, hhandled, hheaders, hevents, hmine]
      constructor
      · rw [handledFrames_append, handledFrames_append, handledFrames_errored, List.append_nil,
          List.append_assoc]
        rfl
      · rw [headerPositions_append, headerPositions_append, headerPositions_errored,
          List.append_nil, List.append_assoc]
        rfl
    | none =>
      have hmine : recognised (f :: frames) = recognised frames := by simp [recognised, ht]
      obtain ⟨c', hround, hreader, hevents⟩ := round_unrecognised services peerIp ht hcons
      cases frames with
      | nil =>
        have hshort : f.body.length < 6 := hskip ht
        rw [final_step hround, final_stop peerIp (by
          rw [hreader]
          simpa [encodeFrames] using hshort), hevents, hmine]
        exact ⟨by rw [handledFrames_append]; rfl, by rw [headerPositions_append]; rfl⟩
      | cons g frames =>
        have hbody : f.body = [] := hskip.1 ht
        have hstarts : starts position (f :: g :: frames) =
            position :: starts (position + 6) (g :: frames) := by
          rw [starts, Frame.size, hbody]
          rfl
        rw [hbody, List.nil_append] at hreader
        obtain ⟨hhandled, hheaders⟩ := ih hskip.2 hreader
        rw [final_step hround, hhandled, hheaders, hevents, hmine, hstarts]
        exact ⟨by rw [handledFrames_append, List.append_assoc]; rfl,
          by rw [headerPositions_append, List.append_assoc]; rfl⟩

/-- A header that was taken stays taken. -/
theorem mem_headerPositions_final (services : Services σ) (peerIp : IpAddress)
    {c : ConnectionState σ} {position : Nat} (h : position ∈ headerPositions c.events) :
    position ∈ headerPositions (final services peerIp c).events := by
  refine settled_keeps (p := fun s => position ∈ headerPositions (ConnectionState.events s)) ?_ h
  intro s s' hround hs
  obtain ⟨_, more, hmore⟩ := round_progress services peerIp hround
  rw [hmore, headerPositions_append]
  exact List.mem_append_left _ hs

/-- Six bytes of the stream are taken as a header. -/
theorem taken_as_header (services : Services σ) (peerIp : IpAddress) {c : ConnectionState σ}
    (h : 6 ≤ c.reader.rest.length) :
    c.reader.position ∈ headerPositions (final services peerIp c).events := by
  have hr : c.reader.rest = c.reader.rest.take 6 ++ c.reader.rest.drop 6 :=
    (List.take_append_drop 6 _).symm
  have hround := round_header services peerIp hr (by rw [List.length_take]; omega)
  rw [final_step hround]
  apply mem_headerPositions_final
  obtain ⟨kinds, hkinds⟩ := exceptClauses_events services peerIp
    (processMessage services peerIp (c.reader.rest.take 6) { c with
      reader := ⟨c.reader.rest.drop 6, c.reader.position + 6⟩
      events := c.events ++ [.headerRead c.reader.position (c.reader.rest.take 6)] })
  obtain ⟨_, more, hmore⟩ := processMessage_progress services peerIp (c.reader.rest.take 6)
    { c with
      reader := ⟨c.reader.rest.drop 6, c.reader.position + 6⟩
      events := c.events ++ [.headerRead c.reader.position (c.reader.rest.take 6)] }
  rw [hkinds, hmore]
  simp only [headerPositions_append, List.append_assoc]
  exact List.mem_append_right _ (List.mem_append_left _ (List.mem_singleton.mpr rfl))

theorem not_skippable_cons {f : Frame} {frames : List Frame} (h : ¬ Skippable (f :: frames)) :
    f.msgType = none ∧ 6 ≤ (f.body ++ encodeFrames frames).length ∧ f.body ≠ [] ∨
      ¬ Skippable frames ∧ (f.msgType = none → f.body = []) := by
  cases frames with
  | nil =>
    simp only [Skippable, Classical.not_imp, Nat.not_lt] at h
    obtain ⟨ht, hlen⟩ := h
    refine .inl ⟨ht, by simpa [encodeFrames] using hlen, fun hnil => ?_⟩
    rw [hnil] at hlen
    simp at hlen
  | cons g frames =>
    by_cases hbody : f.msgType = none → f.body = []
    · exact .inr ⟨fun hskip => h ⟨hbody, hskip⟩, hbody⟩
    · obtain ⟨ht, hne⟩ := Classical.not_imp.mp hbody
      have hg := g.encode_length
      rw [Frame.size] at hg
      refine .inl ⟨ht, ?_, hne⟩
      simp only [encodeFrames, List.flatMap_cons, List.length_append]
      omega

/-- Otherwise a header is taken from inside a frame. -/
theorem final_not_skippable (hlast : LastSeenSucceeds services) (peerIp : IpAddress)
    {frames : List Frame} (hskip : ¬ Skippable frames) {c : ConnectionState σ} {position : Nat}
    (hr : c.reader = ⟨encodeFrames frames, position⟩) :
    ∃ p ∈ headerPositions (final services peerIp c).events,
      position < p ∧ p ∉ starts position frames := by
  induction frames generalizing c position with
  | nil => exact absurd trivial hskip
  | cons f frames ih =>
    have hcons : c.reader = ⟨f.encode ++ encodeFrames frames, position⟩ := hr
    rcases not_skippable_cons hskip with ⟨ht, hlong, hne⟩ | ⟨htail, hbody⟩
    · -- the body of the unrecognised frame is long enough, with what follows, for a header
      obtain ⟨c', hround, hreader, _⟩ := round_unrecognised services peerIp ht hcons
      have htaken := taken_as_header services peerIp (c := c') (by rw [hreader]; exact hlong)
      rw [hreader] at htaken
      have hpos : 0 < f.body.length := List.length_pos_iff.mpr hne
      refine ⟨position + 6, by rw [final_step hround]; exact htaken, by omega, ?_⟩
      intro hstart
      rcases List.mem_cons.mp hstart with h | h
      · omega
      · have hge := starts_ge h
        rw [Frame.size] at hge
        omega
    · -- the frame itself is skipped, and the fault is further on
      obtain ⟨c', hround, hreader⟩ : ∃ c', round services peerIp c = some c' ∧
          c'.reader = ⟨encodeFrames frames, position + f.size⟩ := by
        cases ht : f.msgType with
        | some t =>
          obtain ⟨c', hround, hreader, _⟩ := round_recognised hlast peerIp ht hcons
          exact ⟨c', hround, hreader⟩
        | none =>
          obtain ⟨c', hround, hreader, _⟩ := round_unrecognised services peerIp ht hcons
          have hnil := hbody ht
          exact ⟨c', hround, by rw [hreader, Frame.size, hnil]; rfl⟩
      obtain ⟨p, hp, hlt, hnot⟩ := ih htail hreader
      refine ⟨p, by rw [final_step hround]; exact hp, by omega, ?_⟩
      intro hstart
      rcases List.mem_cons.mp hstart with h | h
      · omega
      · exact hnot h

/-! ## Synchronisation -/

theorem handleConnection_events (services : Services σ) (peerIp : IpAddress) (stream : Bytes)
    (s : σ) :
    (handleConnection services peerIp stream s).1 =
      (final services peerIp ⟨⟨stream, 0⟩, [.peerConnected], s⟩).events ++
        [.peerDisconnected, .peerRemoved] := rfl

/-- The loop stays synchronised over a stream of frames of any type exactly when no frame
of another type has a body that can be taken for a header. -/
theorem synchronised_iff_skippable (services : Services σ) (hlast : LastSeenSucceeds services)
    (peerIp : IpAddress) (frames : List Frame) (s : σ) :
    Synchronised frames (handleConnection services peerIp (encodeFrames frames) s).1 ↔
      Skippable frames := by
  rw [handleConnection_events]
  constructor
  · intro hsync
    by_contra hskip
    obtain ⟨p, hp, _, hnot⟩ := final_not_skippable hlast peerIp hskip
      (c := ⟨⟨encodeFrames frames, 0⟩, [.peerConnected], s⟩) rfl
    refine hnot (hsync.headers p ?_)
    rw [headerPositions_append]
    exact List.mem_append_left _ hp
  · intro hskip
    obtain ⟨hhandled, hheaders⟩ := final_skippable hlast peerIp hskip
      (c := ⟨⟨encodeFrames frames, 0⟩, [.peerConnected], s⟩) rfl
    constructor
    · rw [handledFrames_append, hhandled]
      exact List.append_nil _
    · intro p hp
      rw [headerPositions_append, hheaders] at hp
      simpa [headerPositions, headerPosition?] using hp

/-- Services that succeed and do nothing, for use in examples. -/
def quietServices : Services Unit where
  updatePeerLastSeen := fun _ _ => (.ok (), ())
  handleRouteMonitoring := fun _ _ _ => (.ok (), ())
  handlePeerUp := fun _ _ _ => (.ok (), ())
  handlePeerDown := fun _ _ _ => (.ok (), ())
  incrementReceived := fun _ _ => ()
  incrementError := fun _ _ => ()
  removePeer := fun _ _ => ()

/-- Route Mirroring frames, the last cut short of a header, around an empty Termination. -/
theorem synchronised_iff_skippable_mirroring :
    Synchronised [⟨6, [], by decide⟩, ⟨5, [], by decide⟩, ⟨6, [3, 0], by decide⟩]
      (handleConnection quietServices (.v4 (.ofOctets 10 0 0 9))
        (encodeFrames [⟨6, [], by decide⟩, ⟨5, [], by decide⟩, ⟨6, [3, 0], by decide⟩]) ()).1 :=
  (synchronised_iff_skippable quietServices (fun _ _ => rfl) _ _ ()).mpr
    ⟨fun _ => rfl, nofun, fun _ => by decide⟩

/-- A Route Mirroring frame whose body reads as an Initiation header: the body is handed on. -/
theorem mirroring_body_handled :
    handledFrames (handleConnection quietServices (.v4 (.ofOctets 10 0 0 9))
        (encodeFrames [⟨6, [3, 0, 0, 0, 6, 4], by decide⟩]) ()).1 =
        [(.initiation, [3, 0, 0, 0, 6, 4])] ∧
      ¬ Synchronised [⟨6, [3, 0, 0, 0, 6, 4], by decide⟩]
        (handleConnection quietServices (.v4 (.ofOctets 10 0 0 9))
          (encodeFrames [⟨6, [3, 0, 0, 0, 6, 4], by decide⟩]) ()).1 := by
  have hhandled : handledFrames (handleConnection quietServices (.v4 (.ofOctets 10 0 0 9))
      (encodeFrames [⟨6, [3, 0, 0, 0, 6, 4], by decide⟩]) ()).1 =
      [(.initiation, [3, 0, 0, 0, 6, 4])] := by decide
  refine ⟨hhandled, fun hsync => ?_⟩
  have hnone := hsync.handled
  rw [hhandled] at hnone
  cases hnone

end Pybmpmon.Listener.Framing
