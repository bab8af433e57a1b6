import Pybmpmon.Protocol.BmpErrors
import Pybmpmon.Protocol.UpdateWalk

/-!
# Malformed input yields the parser's own error

A parser call has two outcomes: it returns, or it raises the error class the
module declares. Divergence is an outcome of the model, so returning is claimed
along with everything else.
-/
namespace Pybmpmon.Protocol.ParserErrors

open Pybmpmon.Lib.ByteString Pybmpmon.Lib.Outcome Pybmpmon.Python
open Pybmpmon.Protocol.Bmp Pybmpmon.Protocol.Bgp
open Pybmpmon.Protocol.BmpParser Pybmpmon.Protocol.BgpParser
open Pybmpmon.Protocol.BmpErrors (declaredLength)

/-- The call returns, or it raises an error of the given class. -/
def ReturnsOrRaises {α : Type} (own : String → PyErr) (x : Except PyErr α) : Prop :=
  (∃ a, x = .ok a) ∨ ∃ msg, x = .error (own msg)

theorem bmp_outcome {α : Type} {x : Except PyErr α} (h : Raises BmpErrors.OwnError x) :
    ReturnsOrRaises .bmpParseError x := by
  rcases raises_cases h with ⟨a, ha⟩ | ⟨e, he, hown⟩
  · exact .inl ⟨a, ha⟩
  · cases e with
    | bmpParseError msg => exact .inr ⟨msg, he⟩
    | _ => cases hown

theorem bgp_outcome {α : Type} {x : Except PyErr α} (h : Raises DecoderErrors.OwnError x) :
    ReturnsOrRaises .bgpParseError x := by
  rcases raises_cases h with ⟨a, ha⟩ | ⟨e, he, hown⟩
  · exact .inl ⟨a, ha⟩
  · cases e with
    | bgpParseError msg => exact .inr ⟨msg, he⟩
    | _ => cases hown

theorem parseClassicNlri_raises (nlri : Bytes) (v : UpdateVars) :
    Raises DecoderErrors.OwnError (parseClassicNlri nlri v) := by
  refine raises_ite (fun _ => ?_) (fun _ => raises_ok _)
  exact raises_bind (DecoderErrors.parseIpv4Prefixes_raises nlri 0) (fun _ _ => raises_ok _)

/-- The attribute loop swallows every error of its decoders; the rest raises its own. -/
theorem parseBgpUpdate_raises (d : Bytes) : Raises DecoderErrors.OwnError (parseBgpUpdate d) := by
  rw [UpdateWalk.parseBgpUpdate_eq]
  refine raises_bind (DecoderErrors.parseBgpUpdateStructure_raises d) (fun update _ => ?_)
  refine raises_bind (DecoderErrors.parseIpv4Prefixes_raises _ 0) (fun withdrawn _ => ?_)
  exact raises_bind (parseClassicNlri_raises _ _) (fun _ _ => raises_ok _)

/-- No byte string makes a parser raise anything but its own error, and none makes it diverge.
The three parsers the listener calls directly rely on a buffer of the declared length. -/
theorem malformed_input_own_error (d : Bytes) :
    ReturnsOrRaises .bmpParseError (parseBmpMessage d) ∧
    ReturnsOrRaises .bgpParseError (parseBgpUpdate d) ∧
    (declaredLength d = d.length →
      ReturnsOrRaises .bmpParseError (parsePeerUpMessage d) ∧
      ReturnsOrRaises .bmpParseError (parsePeerDownMessage d) ∧
      ReturnsOrRaises .bmpParseError (parseRouteMonitoringMessage d)) := by
  refine ⟨bmp_outcome (BmpErrors.parseBmpMessage_raises d),
    bgp_outcome (parseBgpUpdate_raises d), fun hd => ⟨?_, ?_, ?_⟩⟩
  · exact bmp_outcome (BmpErrors.parsePeerUpMessage_raises d)
  · exact bmp_outcome (BmpErrors.parsePeerDownMessage_raises hd.le)
  · exact bmp_outcome (BmpErrors.parseRouteMonitoringMessage_raises hd.le)

/-- A Peer Down message of seven bytes, as its length field says, is one of those buffers. -/
theorem malformed_input_own_error_short :
    ReturnsOrRaises .bmpParseError (parsePeerDownMessage [3, 0, 0, 0, 7, 2, 0]) :=
  ((malformed_input_own_error [3, 0, 0, 0, 7, 2, 0]).2.2 (by decide)).2.1

end Pybmpmon.Protocol.ParserErrors
