import Pybmpmon.Database.BmpPeers
import Pybmpmon.Lib.Transition
import Pybmpmon.Protocol.BmpMessages

/-!
# Whether a router is active

One router, its connection and the Peer Up and Peer Down notifications it sends. The
handlers write the flag `is_active` of the one row of the router, whichever BGP peer a
notification is about; the connection itself writes nothing. Beside the tables a run
keeps what the flag is about: whether the connection is open, and the BGP peers that
have come up and not gone down since.
-/
namespace Pybmpmon.Listener.PeerActivity

open Pybmpmon.Lib.ByteString Pybmpmon.Lib.Transition Pybmpmon.Python Pybmpmon.Models.Route
open Pybmpmon.Protocol.Bmp Pybmpmon.Protocol.BmpParser Pybmpmon.Protocol.BmpEncoding
open Pybmpmon.Protocol.BmpMessages Pybmpmon.Database.BmpPeers

/-! ## The handlers -/

/-- The clock gives the times of the calls of `datetime.now`, in their order. -/
def handlePeerUp (clock : Nat → Timestamp) (data : Bytes) (bmpPeerIp : IpAddress) (t : PeerTables) :
    Except PyErr BMPPeerUpMessage × PeerTables :=
  match parsePeerUpMessage data with
  | .error e => (.error e, t)
  | .ok parsed =>
      let peer : BMPPeer := ⟨bmpPeerIp, none, clock 0, clock 1, true⟩
      (.ok parsed, (t.upsertBmpPeer peer).insertPeerEvent ⟨clock 2, bmpPeerIp, .peerUp, none⟩)

def handlePeerDown (clock : Nat → Timestamp) (data : Bytes) (bmpPeerIp : IpAddress)
    (t : PeerTables) : Except PyErr BMPPeerDownMessage × PeerTables :=
  match parsePeerDownMessage data with
  | .error e => (.error e, t)
  | .ok parsed =>
      (.ok parsed, (t.markPeerInactive bmpPeerIp (clock 0)).insertPeerEvent
        ⟨clock 1, bmpPeerIp, .peerDown, some parsed.reason⟩)

/-! ## Runs -/

/-- What tells one BGP peer of a router from another. -/
structure BgpPeer where
  peerType : BMPPeerType
  peerDistinguisher : Bytes
  peerAddress : IpAddress
  deriving DecidableEq, Repr

def bgpPeer (h : BMPPerPeerHeader) : BgpPeer := ⟨h.peerType, h.peerDistinguisher, h.peerAddress⟩

structure RouterState where
  tables : PeerTables
  isOpen : Bool
  up : List BgpPeer

/-- A message comes with the time of its `last_seen` update and the clock of its handler. -/
inductive Label where
  | connect
  | peerUp (data : Bytes) (now : Timestamp) (clock : Nat → Timestamp)
  | peerDown (data : Bytes) (now : Timestamp) (clock : Nat → Timestamp)
  | disconnect

/-- An event of the router. A message that the parser refuses is no notification. -/
def step (router : IpAddress) (s : RouterState) : Label → Option RouterState
  | .connect => if s.isOpen then none else some { s with isOpen := true }
  | .peerUp data now clock =>
      if s.isOpen then
        let (result, tables) := handlePeerUp clock data router (s.tables.updatePeerLastSeen router now)
        match result with
        | .ok parsed => some ⟨tables, true, bgpPeer parsed.perPeerHeader :: s.up⟩
        | .error _ => some ⟨tables, true, s.up⟩
      else none
  | .peerDown data now clock =>
      if s.isOpen then
        let (result, tables) := handlePeerDown clock data router (s.tables.updatePeerLastSeen router now)
        match result with
        | .ok parsed => some ⟨tables, true, s.up.filter (· ≠ bgpPeer parsed.perPeerHeader)⟩
        | .error _ => some ⟨tables, true, s.up⟩
      else none
  | .disconnect => if s.isOpen then some { s with isOpen := false } else none

def initial : RouterState := ⟨.empty, false, []⟩

/-- The row of the router, if it exists, is active exactly when the connection is open and a BGP peer
is up. -/
def TellsTruth (router : IpAddress) (s : RouterState) : Prop :=
  ∀ flag, s.tables.active router = some flag → (flag = true ↔ s.isOpen = true ∧ s.up ≠ [])

/-- After the event the row tells the truth. -/
def TruthAfter (router : IpAddress) (s : RouterState) (a : Label) : Prop :=
  ∀ s', step router s a = some s' → TellsTruth router s'

/-- A Peer Down is about the last BGP peer that is up, and the connection ends when none is. -/
def EndsLast (s : RouterState) : Label → Prop
  | .peerDown data _ _ =>
      ∀ parsed, parsePeerDownMessage data = .ok parsed → ∀ q ∈ s.up, q = bgpPeer parsed.perPeerHeader
  | .disconnect => s.up = []
  | _ => True

/-! ## One event -/

/-- A Peer Up that is read makes the row active; nothing else touches the flag. -/
theorem handlePeerUp_active (clock : Nat → Timestamp) (data : Bytes) (router : IpAddress)
    (t : PeerTables) :
    (∃ e, handlePeerUp clock data router t = (.error e, t)) ∨
      ∃ parsed t', handlePeerUp clock data router t = (.ok parsed, t') ∧
        t'.active router = some true := by
  unfold handlePeerUp
  cases parsePeerUpMessage data with
  | error e => exact .inl ⟨e, rfl⟩
  | ok parsed =>
    refine .inr ⟨parsed, _, rfl, ?_⟩
    rw [PeerTables.active_insertPeerEvent]
    exact PeerTables.active_upsert _ t

/-- A Peer Down that is read makes the row inactive, whichever BGP peer it is about. -/
theorem handlePeerDown_active (clock : Nat → Timestamp) (data : Bytes) (router : IpAddress)
    (t : PeerTables) :
    (∃ e, parsePeerDownMessage data = .error e ∧ handlePeerDown clock data router t = (.error e, t)) ∨
      ∃ parsed t', parsePeerDownMessage data = .ok parsed ∧
        handlePeerDown clock data router t = (.ok parsed, t') ∧
          t'.active router = (t.active router).map fun _ => false := by
  unfold handlePeerDown
  cases parsePeerDownMessage data with
  | error e => exact .inl ⟨e, rfl, rfl⟩
  | ok parsed =>
    refine .inr ⟨parsed, _, rfl, rfl, ?_⟩
    rw [PeerTables.active_insertPeerEvent, PeerTables.active_markPeerInactive]

/-- All that an event can do to the connection, the BGP peers and the flag. -/
theorem step_cases {router : IpAddress} {s s' : RouterState} {a : Label}
    (h : step router s a = some s') :
    (s.isOpen = false ∧ a = .connect ∧ s' = { s with isOpen := true }) ∨
      (s.isOpen = true ∧ a = .disconnect ∧ s' = { s with isOpen := false }) ∨
      (s.isOpen = true ∧ s'.isOpen = true ∧
        ((s'.up = s.up ∧ s'.tables.active router = s.tables.active router ∧ EndsLast s a) ∨
          (s'.up ≠ [] ∧ s'.tables.active router = some true ∧ EndsLast s a) ∨
          ∃ data now clock parsed, a = .peerDown data now clock ∧
            parsePeerDownMessage data = .ok parsed ∧
            s'.up = s.up.filter (· ≠ bgpPeer parsed.perPeerHeader) ∧
            s'.tables.active router = (s.tables.active router).map fun _ => false)) := by
  cases a with
  | connect =>
    rw [step] at h
    split at h
    · cases h
    · rename_i hopen
      cases h
      exact .inl ⟨by simpa using hopen, rfl, rfl⟩
  | disconnect =>
    rw [step] at h
    split at h
    · cases h
      exact .inr (.inl ⟨‹_›, rfl, rfl⟩)
    · cases h
  | peerUp data now clock =>
    rw [step] at h
    split at h
    · rename_i hopen
      refine .inr (.inr ⟨hopen, ?_⟩)
      rcases handlePeerUp_active clock data router (s.tables.updatePeerLastSeen router now) with
        ⟨e, hrun⟩ | ⟨parsed, t', hrun, hactive⟩
      · rw [hrun] at h
        cases h
        exact ⟨rfl, .inl ⟨rfl, PeerTables.active_updatePeerLastSeen _ _ _, trivial⟩⟩
      · rw [hrun] at h
        cases h
        exact ⟨rfl, .inr (.inl ⟨List.cons_ne_nil _ _, hactive, trivial⟩)⟩
    · cases h
  | peerDown data now clock =>
    rw [step] at h
    split at h
    · rename_i hopen
      refine .inr (.inr ⟨hopen, ?_⟩)
      rcases handlePeerDown_active clock data router (s.tables.updatePeerLastSeen router now) with
        ⟨e, hparse, hrun⟩ | ⟨parsed, t', hparse, hrun, hactive⟩
      · rw [hrun] at h
        cases h
        have hends : EndsLast s (.peerDown data now clock) := by
          intro parsed hok
          rw [hparse] at hok
          cases hok
        exact ⟨rfl, .inl ⟨rfl, PeerTables.active_updatePeerLastSeen _ _ _, hends⟩⟩
      · rw [hrun] at h
        cases h
        rw [PeerTables.active_updatePeerLastSeen] at hactive
        exact ⟨rfl, .inr (.inr ⟨data, now, clock, parsed, rfl, hparse, rfl, hactive⟩)⟩
    · cases h

/-- The row tells the truth, and BGP peers are up only on an open connection, with a row. -/
structure Kept (router : IpAddress) (s : RouterState) : Prop where
  truth : TellsTruth router s
  up : s.up ≠ [] → s.isOpen = true ∧ s.tables.active router ≠ none

/-- With BGP peers up, a row that tells the truth is active. -/
theorem Kept.active {router : IpAddress} {s : RouterState} (h : Kept router s) (hup : s.up ≠ []) :
    s.tables.active router = some true := by
  obtain ⟨hopen, hrow⟩ := h.up hup
  cases hflag : s.tables.active router with
  | none => exact absurd hflag hrow
  | some flag => rw [(h.truth flag hflag).mpr ⟨hopen, hup⟩]

/-- The step lemma. -/
theorem kept_step (router : IpAddress) (s : RouterState) (a : Label) (s' : RouterState)
    (hends : EndsLast s a) (hstep : step router s a = some s') (h : Kept router s) : Kept router s' := by
  rcases step_cases hstep with ⟨hclosed, rfl, rfl⟩ | ⟨_, rfl, rfl⟩ |
    ⟨hopen, hopen', ⟨hup, hactive, _⟩ | ⟨hup, hactive, _⟩ |
      ⟨data, now, clock, parsed, rfl, hparse, hup, hactive⟩⟩
  · have hup : s.up = [] := by
      by_contra hup
      rw [(h.up hup).1] at hclosed
      cases hclosed
    constructor
    · intro flag hflag
      have htruth := h.truth flag hflag
      rw [hclosed] at htruth
      simpa [hup] using htruth
    · intro hne
      exact absurd hup hne
  · have hup : s.up = [] := hends
    constructor
    · intro flag hflag
      have htruth := h.truth flag hflag
      simpa [hup] using htruth
    · intro hne
      exact absurd hup hne
  · constructor
    · intro flag hflag
      rw [hactive] at hflag
      have htruth := h.truth flag hflag
      rw [hopen] at htruth
      rw [hup, hopen']
      exact htruth
    · intro hne
      rw [hup] at hne
      rw [hactive]
      exact ⟨hopen', (h.up hne).2⟩
  · constructor
    · intro flag hflag
      rw [hactive, Option.some_inj] at hflag
      simp [← hflag, hopen', hup]
    · intro _
      rw [hactive]
      exact ⟨hopen', Option.some_ne_none true⟩
  · have hnone : s'.up = [] := by
      rw [hup, List.filter_eq_nil_iff]
      intro q hq
      simpa using hends parsed hparse q hq
    constructor
    · intro flag hflag
      rw [hactive, Option.map_eq_some_iff] at hflag
      obtain ⟨_, _, rfl⟩ := hflag
      simp [hnone]
    · intro hne
      exact absurd hnone hne

/-- Where the row tells the truth, an event leaves it true exactly when it ends nothing but the last. -/
theorem truthAfter_iff (router : IpAddress) (s : RouterState) (a : Label) (h : Kept router s) :
    TruthAfter router s a ↔ EndsLast s a := by
  constructor
  · intro htruth
    cases a with
    | connect => trivial
    | peerUp data now clock => trivial
    | disconnect =>
      by_contra hup
      have hopen := (h.up hup).1
      have hafter := htruth { s with isOpen := false } (by rw [step, if_pos hopen])
      have hwrong := (hafter true (h.active hup)).mp rfl
      cases hwrong.1
    | peerDown data now clock =>
      intro parsed hparse q hq
      by_contra hother
      have hup : s.up ≠ [] := List.ne_nil_of_mem hq
      have hopen := (h.up hup).1
      rcases handlePeerDown_active clock data router (s.tables.updatePeerLastSeen router now) with
        ⟨e, herror, _⟩ | ⟨parsed', t', hparsed, hrun, hactive⟩
      · rw [hparse] at herror
        cases herror
      · rw [hparse, Except.ok.injEq] at hparsed
        subst hparsed
        have hstep : step router s (.peerDown data now clock) =
            some ⟨t', true, s.up.filter (· ≠ bgpPeer parsed.perPeerHeader)⟩ := by
          rw [step, if_pos hopen, hrun]
        rw [PeerTables.active_updatePeerLastSeen, h.active hup, Option.map_some] at hactive
        have hstill : s.up.filter (· ≠ bgpPeer parsed.perPeerHeader) ≠ [] :=
          List.ne_nil_of_mem (List.mem_filter.mpr ⟨hq, by simpa using hother⟩)
        have hwrong := (htruth _ hstep false hactive).mpr ⟨rfl, hstill⟩
        cases hwrong
  · intro hends s' hstep
    exact (kept_step router s a s' hends hstep h).truth

theorem kept_initial (router : IpAddress) : Kept router initial := by
  constructor
  · intro flag hflag
    cases hflag
  · intro hne
    exact absurd rfl hne

/-- The row of a router tells the truth after every event of a run exactly when each Peer Down of the
run is about the last BGP peer that is up, and the connection ends when none is. -/
theorem tellsTruth_iff (router : IpAddress) (labels : List Label) :
    Throughout (step router) (TruthAfter router) initial labels ↔
      Throughout (step router) EndsLast initial labels :=
  throughout_iff (truthAfter_iff router) (kept_step router) (kept_initial router) labels

/-! ## Two BGP peers -/

/-- A second BGP peer of the router. -/
def secondPeer : BMPPerPeerHeader := { samplePeer with peerAddress := .v4 (.ofOctets 10 0 0 2) }

def sampleOpen : OpenPdu where
  bytes := List.replicate 16 255 ++ [0, 29, 1, 4, 253, 233, 0, 180, 10, 0, 0, 1, 0]
  size := by decide
  own := by decide

def sampleUp (peer : Peer) (localAddress : LocalAddress peer) : Message :=
  .peerUp peer localAddress 179 179 sampleOpen sampleOpen []

theorem secondPeer_fits : PerPeerHeaderFits secondPeer :=
  ⟨samplePeer_fits.peerFlags, rfl, rfl, samplePeer_fits.peerAsn, samplePeer_fits.timestampSec,
    samplePeer_fits.timestampUsec⟩

def firstUp : Message := sampleUp ⟨samplePeer, samplePeer_fits⟩ ⟨.v4 (.ofOctets 192 0 2 1), rfl⟩

def secondUp : Message := sampleUp ⟨secondPeer, secondPeer_fits⟩ ⟨.v4 (.ofOctets 192 0 2 1), rfl⟩

def firstDown : Message := .peerDown ⟨samplePeer, samplePeer_fits⟩ .remoteNoNotification []

/-- A Peer Up that is read on an open connection. -/
theorem step_peerUp {router : IpAddress} {s : RouterState} {data : Bytes} {parsed : BMPPeerUpMessage}
    (hopen : s.isOpen = true) (hparse : parsePeerUpMessage data = .ok parsed) (now : Timestamp)
    (clock : Nat → Timestamp) :
    ∃ tables, step router s (.peerUp data now clock) =
      some ⟨tables, true, bgpPeer parsed.perPeerHeader :: s.up⟩ := by
  rw [step, if_pos hopen, handlePeerUp, hparse]
  exact ⟨_, rfl⟩

def sampleRouter : IpAddress := .v4 (.ofOctets 192 0 2 1)

/-- A run of one router: two BGP peers come up, one goes down. -/
def oneOfTwoDown : List Label :=
  [.connect, .peerUp firstUp.encode 0 fun _ => 0, .peerUp secondUp.encode 1 fun _ => 1,
    .peerDown firstDown.encode 2 fun _ => 2]

/-- The row is inactive with a BGP peer up, and it stays active when the connection ends. -/
theorem oneOfTwoDown_lies :
    ¬ Throughout (step sampleRouter) (TruthAfter sampleRouter) initial oneOfTwoDown ∧
      ¬ Throughout (step sampleRouter) (TruthAfter sampleRouter) initial
        [.connect, .peerUp firstUp.encode 0 fun _ => 0, .disconnect] := by
  have hends : ∀ labels, Throughout (step sampleRouter) (TruthAfter sampleRouter) initial labels →
      Throughout (step sampleRouter) EndsLast initial labels := fun labels =>
    (throughout_iff (truthAfter_iff sampleRouter) (kept_step sampleRouter) (kept_initial sampleRouter) labels).mp
  have hfirst : parsePeerUpMessage firstUp.encode = _ := parsePeerUpMessage_at (by decide +kernel)
  have hsecond : parsePeerUpMessage secondUp.encode = _ := parsePeerUpMessage_at (by decide +kernel)
  have hdown : parsePeerDownMessage firstDown.encode = _ := parsePeerDownMessage_at (by decide)
  constructor
  · intro h
    obtain ⟨_, h⟩ := hends _ h
    obtain ⟨_, h⟩ := h _ rfl
    obtain ⟨tables, hstep⟩ := @step_peerUp sampleRouter ⟨.empty, true, []⟩ _ _ rfl hfirst 0 fun _ => 0
    obtain ⟨_, h⟩ := h _ hstep
    obtain ⟨tables', hstep'⟩ := @step_peerUp sampleRouter ⟨tables, true, _⟩ _ _ rfl hsecond 1 fun _ => 1
    obtain ⟨hlast, _⟩ := h _ hstep'
    have hsame := hlast _ hdown (bgpPeer secondPeer) List.mem_cons_self
    exact absurd hsame (by decide)
  · intro h
    obtain ⟨_, h⟩ := hends _ h
    obtain ⟨_, h⟩ := h _ rfl
    obtain ⟨tables, hstep⟩ := @step_peerUp sampleRouter ⟨.empty, true, []⟩ _ _ rfl hfirst 0 fun _ => 0
    obtain ⟨hlast, _⟩ := h _ hstep
    cases hlast

end Pybmpmon.Listener.PeerActivity
