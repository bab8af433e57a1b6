import Pybmpmon.Utils.Windows
import Pybmpmon.Protocol.DecoderErrors

/-!
# Extended communities, eight octets at a time

Every branch of `parse_extended_communities` reads inside the group it is in, so the loop
returns one text for each group and a text depends on nothing else.
-/
namespace Pybmpmon.Protocol.CommunityGroups

open Pybmpmon.Lib.ByteString Pybmpmon.Lib.Outcome Pybmpmon.Lib.Scan Pybmpmon.Python
open Pybmpmon.Utils.Binary Pybmpmon.Utils.Windows
open Pybmpmon.Protocol.BgpParser Pybmpmon.Protocol.DecoderErrors

/-! ## One group -/

section Returns

variable {d : Bytes} {o : Nat} (h : o + 8 ≤ d.length)
include h

theorem twoOctetAsCommunity_returns (label : String) : Returns (twoOctetAsCommunity label d o) :=
  returns_bind_ok (readUint16_ok (by omega))
    (returns_bind_ok (readUint32_ok (by omega)) (returns_ok _))

theorem ipv4Community_returns (label : String) : Returns (ipv4Community label d o) := by
  have hread : readBytes d (o + 2) (4 : Nat) = .ok ((d.drop (o + 2)).take 4) := readBytes_ok (by omega)
  refine returns_bind_ok hread ?_
  refine returns_bind_ok (ipv4Address_ok (window_length (by omega))) ?_
  exact returns_bind_ok (readUint16_ok (by omega)) (returns_ok _)

theorem fourOctetAsCommunity_returns (label : String) : Returns (fourOctetAsCommunity label d o) :=
  returns_bind_ok (readUint32_ok (by omega))
    (returns_bind_ok (readUint16_ok (by omega)) (returns_ok _))

/-- A read inside the group followed by a text of it. -/
theorem bytesText_returns {k n : Nat} (hk : k + n ≤ 8) (text : Bytes → String) :
    Returns (do
      let b ← readBytes d (o + k) n
      (.ok (text b) : Except PyErr String)) :=
  returns_bind_ok (readBytes_ok (by omega)) (returns_ok _)

/-- A community whose eight octets are in the buffer is read, whatever they are. -/
theorem extendedCommunity_returns : Returns (extendedCommunity d o) := by
  refine returns_bind_ok (readUint8_ok (by omega)) ?_
  refine returns_bind_ok (readUint8_ok (by omega)) ?_
  refine returns_ite (fun _ => ?_) (fun _ => ?_)
  · have hread : readBytes d (o + 2) (6 : Nat) = .ok ((d.drop (o + 2)).take 6) :=
      readBytes_ok (by omega)
    refine returns_bind_ok hread ?_
    have hslice : (slice ((d.drop (o + 2)).take 6) 2 6).length = 4 := by
      rw [show (6 : Int) = (2 : Nat) + (4 : Nat) from rfl, slice_window]
      exact window_length (by rw [window_length (by omega)])
    exact returns_bind_ok (ipv4Address_ok hslice) (returns_ok _)
  refine returns_ite (fun _ => twoOctetAsCommunity_returns h _) (fun _ => ?_)
  refine returns_ite (fun _ => twoOctetAsCommunity_returns h _) (fun _ => ?_)
  refine returns_ite (fun _ => ipv4Community_returns h _) (fun _ => ?_)
  refine returns_ite (fun _ => ipv4Community_returns h _) (fun _ => ?_)
  refine returns_ite (fun _ => fourOctetAsCommunity_returns h _) (fun _ => ?_)
  refine returns_ite (fun _ => fourOctetAsCommunity_returns h _) (fun _ => ?_)
  refine returns_ite (fun _ => bytesText_returns h (by decide) _) (fun _ => ?_)
  refine returns_ite (fun _ => ?_) (fun _ => ?_)
  · refine returns_ite (fun _ => ?_) (fun _ => ?_)
    · refine returns_bind_ok (readUint8_ok (by omega)) ?_
      exact returns_bind_ok (readUint32_ok (by omega)) (returns_ok _)
    refine returns_ite (fun _ => ?_) (fun _ => ?_)
    · have hread : readBytes d (o + 5) (3 : Nat) = .ok ((d.drop (o + 5)).take 3) :=
        readBytes_ok (by omega)
      have hlength : ((d.drop (o + 5)).take 3).length = 3 := window_length (by omega)
      refine returns_bind_ok hread ?_
      refine returns_bind_ok (index_ok (by omega)) ?_
      refine returns_bind_ok (index_ok (by omega)) ?_
      exact returns_bind_ok (index_ok (by omega)) (returns_ok _)
    exact returns_ite (fun _ => bytesText_returns h (by decide) _)
      (fun _ => bytesText_returns h (by decide) _)
  refine returns_ite (fun _ => twoOctetAsCommunity_returns h _) (fun _ => ?_)
  exact bytesText_returns h (show 0 + 8 ≤ 8 by decide) _

end Returns

/-- The text of a group of eight octets. -/
def groupText (group : Bytes) : String := (extendedCommunity group 0).toOption.getD ""

/-- Wherever a group stands, its text is that of its own octets. -/
theorem extendedCommunity_group {d g s : Bytes} {o : Nat} (hat : At d o (g ++ s)) (hg : g.length = 8) :
    extendedCommunity d o = .ok (groupText g) := by
  have h16 : ∀ k, k + 2 ≤ 8 → readUint16 d (o + k) = readUint16 g k := fun k hk =>
    readUint16_window hat (by omega)
  have h32 : ∀ k, k + 4 ≤ 8 → readUint32 d (o + k) = readUint32 g k := fun k hk =>
    readUint32_window hat (by omega)
  have hbytes : ∀ k n : Nat, k + n ≤ 8 → readBytes d (o + k) n = readBytes g k n := fun k n hk =>
    readBytes_window hat (by omega)
  have h0 : readUint8 d o = readUint8 g 0 := readUint8_window hat (show 0 < g.length by omega)
  have hgroup : readBytes d o 8 = readBytes g 0 8 := hbytes 0 8 (by decide)
  have hsix : readBytes d (o + 2) 6 = readBytes g 2 6 := hbytes 2 6 (by decide)
  have haddress : readBytes d (o + 2) 4 = readBytes g 2 4 := hbytes 2 4 (by decide)
  have hlabel : readBytes d (o + 5) 3 = readBytes g 5 3 := hbytes 5 3 (by decide)
  have hsame : extendedCommunity d o = extendedCommunity g 0 := by
    unfold extendedCommunity twoOctetAsCommunity ipv4Community fourOctetAsCommunity
    simp only [Nat.zero_add]
    rw [h0, readUint8_window hat (show 1 < g.length by omega),
      readUint8_window hat (show 2 < g.length by omega), hgroup, hsix, haddress, hlabel,
      h16 2 (by decide), h16 6 (by decide), h32 2 (by decide), h32 3 (by decide), h32 4 (by decide)]
  obtain ⟨text, htext⟩ := extendedCommunity_returns (d := g) (o := 0) (by omega)
  rw [hsame, groupText, htext]
  rfl

/-! ## The loop -/

theorem flatten_length {groups : List Bytes} (h : ∀ g ∈ groups, g.length = 8) :
    groups.flatten.length = 8 * groups.length := by
  induction groups with
  | nil => rfl
  | cons g groups ih =>
    rw [List.flatten_cons, List.length_append, h g List.mem_cons_self,
      ih (fun g' hg' => h g' (List.mem_cons_of_mem g hg')), List.length_cons]
    omega

/-- The loop returns one text for each group, in their order. -/
theorem parseExtendedCommunities_flatten {groups : List Bytes} (h : ∀ g ∈ groups, g.length = 8) :
    parseExtendedCommunities groups.flatten = .ok (groups.map groupText) := by
  have hlen := flatten_length h
  have hat : At groups.flatten 0 (groups.flatMap (fun g => g) ++ []) := by
    rw [List.append_nil, List.flatMap_id']
    exact at_zero _
  have hrounds : scan .diverges
      (fun offset => do
        let text ← extendedCommunity groups.flatten offset
        .ok ([text], some (offset + 8)))
      groups.flatten.length 0 = .ok (groups.flatMap fun g => [groupText g]) := by
    refine scan_encoded (extendedCommunity_advances groups.flatten) groups 0 [] hat ?_ ?_ ?_
    · rw [List.flatMap_id', Nat.zero_add]
    · intro g hg hnil
      have hsize := h g hg
      rw [hnil] at hsize
      cases hsize
    · intro g hg o s hat _
      rw [extendedCommunity_group hat (h g hg), ok_bind, h g hg]
  rw [parseExtendedCommunities, if_neg (by omega), hrounds, List.map_eq_flatMap]

/-! ## The groups of a value -/

/-- The eight octets at each multiple of eight. -/
def groupsOf (value : Bytes) : List Bytes :=
  (List.range (value.length / 8)).map fun i => (value.drop (8 * i)).take 8

theorem groupsOf_size {value g : Bytes} (h : g ∈ groupsOf value) : g.length = 8 := by
  obtain ⟨i, hi, rfl⟩ := List.mem_map.mp h
  rw [List.mem_range] at hi
  exact window_length (by omega)

theorem groups_take (value : Bytes) (n : Nat) :
    ((List.range n).map fun i => (value.drop (8 * i)).take 8).flatten = value.take (8 * n) := by
  induction n with
  | zero => rfl
  | succ n ih =>
    rw [List.range_succ, List.map_append, List.flatten_append, ih, List.map_singleton,
      List.flatten_singleton, Nat.mul_succ, List.take_add]

theorem groupsOf_flatten {value : Bytes} (h : value.length % 8 = 0) :
    (groupsOf value).flatten = value := by
  rw [groupsOf, groups_take, List.take_of_length_le (by omega)]

theorem parseExtendedCommunities_groups {value : Bytes} (h : value.length % 8 = 0) :
    parseExtendedCommunities value = .ok ((groupsOf value).map groupText) := by
  have hflatten := parseExtendedCommunities_flatten (fun g hg => @groupsOf_size value g hg)
  rwa [groupsOf_flatten h] at hflatten

theorem parseExtendedCommunities_group {g : Bytes} (h : g.length = 8) :
    parseExtendedCommunities g = .ok [groupText g] := by
  have hsize : ∀ g' ∈ [g], g'.length = 8 := fun g' hg' => List.mem_singleton.mp hg' ▸ h
  have hflatten := parseExtendedCommunities_flatten hsize
  rwa [List.flatten_singleton] at hflatten

/-- The parser returns one text for each eight octets, which is what it returns for these alone; what
it returns for two values one after the other is what it returns for each; a value that is no row of
such groups is refused. -/
theorem parseExtendedCommunities_local :
    (∀ value : Bytes, value.length % 8 = 0 →
      ∃ texts, parseExtendedCommunities value = .ok texts ∧ texts.length = value.length / 8 ∧
        ∀ i text, texts[i]? = some text →
          parseExtendedCommunities ((value.drop (8 * i)).take 8) = .ok [text]) ∧
    (∀ a b : Bytes, a.length % 8 = 0 → b.length % 8 = 0 →
      ∃ xs ys, parseExtendedCommunities a = .ok xs ∧ parseExtendedCommunities b = .ok ys ∧
        parseExtendedCommunities (a ++ b) = .ok (xs ++ ys)) ∧
    (∀ value : Bytes, value.length % 8 ≠ 0 →
      ∃ message, parseExtendedCommunities value = .error (.bgpParseError message)) := by
  refine ⟨fun value h => ?_, fun a b ha hb => ?_, fun value h => ?_⟩
  · refine ⟨_, parseExtendedCommunities_groups h, ?_, fun i text htext => ?_⟩
    · rw [List.length_map, groupsOf, List.length_map, List.length_range]
    · rw [groupsOf, List.map_map, List.getElem?_map, Option.map_eq_some_iff] at htext
      obtain ⟨j, hj, rfl⟩ := htext
      obtain ⟨hlt, rfl⟩ := List.getElem?_eq_some_iff.mp hj
      rw [List.length_range] at hlt
      rw [List.getElem_range]
      exact parseExtendedCommunities_group (window_length (by omega))
  · refine ⟨_, _, parseExtendedCommunities_groups ha, parseExtendedCommunities_groups hb, ?_⟩
    have hsize : ∀ g ∈ groupsOf a ++ groupsOf b, g.length = 8 := fun g hg =>
      (List.mem_append.mp hg).elim groupsOf_size groupsOf_size
    have happ := parseExtendedCommunities_flatten hsize
    rwa [List.flatten_append, groupsOf_flatten ha, groupsOf_flatten hb, List.map_append] at happ
  · exact ⟨_, by rw [parseExtendedCommunities, if_pos h]⟩

end Pybmpmon.Protocol.CommunityGroups
