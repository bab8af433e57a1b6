import Pybmpmon.Lib.Scan
import Pybmpmon.Utils.Binary
import Pybmpmon.Protocol.Bgp

/-!
# The BGP UPDATE parser

Each parser of `protocol/bgp_parser.py`. The attribute loop of
`parse_bgp_update` runs its branches over the local variables and keeps what a
branch has written when it raises, as the source's `except Exception: continue`
does.
-/
namespace Pybmpmon.Protocol.BgpParser

open Pybmpmon.Lib.ByteString Pybmpmon.Lib.Scan Pybmpmon.Python Pybmpmon.Utils.Binary
open Pybmpmon.Protocol.Bgp

/-! ## Message structure -/

def parseBgpHeader (data : Bytes) : Except PyErr BGPHeader :=
  if data.length < BGP_HEADER_SIZE then
    .error (.bgpParseError s!"Message too short: need {BGP_HEADER_SIZE} bytes, got {data.length}")
  else do
  let marker ← readBytes data 0 16
  if marker ≠ BGP_MARKER then .error (.bgpParseError "Invalid BGP marker")
  else do
  let length ← readUint16 data 16
  let msgTypeRaw ← readUint8 data 18
  match BGPMessageType.ofNat? msgTypeRaw with
  | none => .error (.bgpParseError s!"Invalid BGP message type: {msgTypeRaw}")
  | some msgType => .ok ⟨marker, length, msgType⟩

/-- The extended-length flag widens the length field by one octet. -/
def isExtendedLength (flags : Nat) : Bool := flags &&& ATTR_FLAG_EXTENDED_LENGTH != 0

/-- The length of an attribute's value and the offset the value starts at. -/
def attributeLength (data : Bytes) (stop offset flags : Nat) : Except PyErr (Nat × Nat) :=
  if isExtendedLength flags then
    if offset + 4 > stop then .error (.bgpParseError "Incomplete extended length attribute")
    else do
    let length ← readUint16 data (offset + 2)
    .ok (length, offset + 4)
  else do
    let length ← readUint8 data (offset + 2)
    .ok (length, offset + 3)

/-- One round of the loop of `parse_path_attributes`. -/
def pathAttribute (data : Bytes) (stop offset : Nat) : Except PyErr (Round BGPPathAttribute) :=
  if offset + 3 > stop then
    .error (.bgpParseError s!"Incomplete path attribute at offset {offset}")
  else do
  let flags ← readUint8 data offset
  let typeCodeRaw ← readUint8 data (offset + 1)
  let typeCode := TypeCode.ofRaw typeCodeRaw
  let (length, valueOffset) ← attributeLength data stop offset flags
  if valueOffset + length > stop then
    .error (.bgpParseError "Attribute value exceeds message bounds")
  else do
  let value ← readBytes data valueOffset length
  .ok ([⟨flags, typeCode, length, value⟩], some (valueOffset + length))

def parsePathAttributes (data : Bytes) (start stop : Nat) :
    Except PyErr (List BGPPathAttribute) :=
  scan .diverges (pathAttribute data stop) stop start

def parseBgpUpdateStructure (data : Bytes) : Except PyErr BGPUpdateMessage := do
  let header ← parseBgpHeader data
  if header.msgType ≠ .update then
    .error (.bgpParseError s!"Expected UPDATE message, got {header.msgType.name}")
  else if data.length < header.length then
    .error (.bgpParseError s!"Incomplete message: expected {header.length} bytes, got {data.length}")
  else
  let offset := BGP_HEADER_SIZE
  if offset + 2 > header.length then
    .error (.bgpParseError "Message too short for withdrawn routes length")
  else do
  let withdrawnRoutesLength ← readUint16 data offset
  let offset := offset + 2
  if offset + withdrawnRoutesLength > header.length then
    .error (.bgpParseError "Message too short for withdrawn routes")
  else do
  let withdrawnRoutes ← readBytes data offset withdrawnRoutesLength
  let offset := offset + withdrawnRoutesLength
  if offset + 2 > header.length then
    .error (.bgpParseError "Message too short for path attribute length")
  else do
  let totalPathAttrLength ← readUint16 data offset
  let offset := offset + 2
  let pathAttrsEnd := offset + totalPathAttrLength
  if pathAttrsEnd > header.length then
    .error (.bgpParseError "Message too short for path attributes")
  else do
  let pathAttributes ← parsePathAttributes data offset pathAttrsEnd
  let nlri ← readBytes data pathAttrsEnd ((header.length : Int) - pathAttrsEnd)
  .ok ⟨withdrawnRoutesLength, withdrawnRoutes, totalPathAttrLength, pathAttributes, nlri⟩

/-! ## Prefixes -/

def parseIpv4Prefix (data : Bytes) (offset : Nat) : Except PyErr (Cidr × Nat) :=
  if offset ≥ data.length then .error (.bgpParseError "No data for IPv4 prefix")
  else do
  let prefixLen ← readUint8 data offset
  if h : prefixLen > 32 then
    .error (.bgpParseError s!"Invalid IPv4 prefix length: {prefixLen}")
  else
  let prefixBytes := (prefixLen + 7) / 8
  if offset + 1 + prefixBytes > data.length then .error (.bgpParseError "Incomplete IPv4 prefix")
  else do
  let prefixData ← readBytes data (offset + 1) prefixBytes
  let prefixIp ← ipv4Address (prefixData ++ List.replicate (4 - prefixBytes) 0)
  .ok (⟨.v4 prefixIp, prefixLen, Nat.le_of_not_gt h⟩, 1 + prefixBytes)

def parseIpv6Prefix (data : Bytes) (offset : Nat) : Except PyErr (Cidr × Nat) :=
  if offset ≥ data.length then .error (.bgpParseError "No data for IPv6 prefix")
  else do
  let prefixLen ← readUint8 data offset
  if h : prefixLen > 128 then
    .error (.bgpParseError s!"Invalid IPv6 prefix length: {prefixLen}")
  else
  let prefixBytes := (prefixLen + 7) / 8
  if offset + 1 + prefixBytes > data.length then .error (.bgpParseError "Incomplete IPv6 prefix")
  else do
  let prefixData ← readBytes data (offset + 1) prefixBytes
  let prefixIp ← ipv6Address (prefixData ++ List.replicate (16 - prefixBytes) 0)
  .ok (⟨.v6 prefixIp, prefixLen, Nat.le_of_not_gt h⟩, 1 + prefixBytes)

/-- `while offset < len(data): prefix, consumed = parse(data, offset)`. -/
def parsePrefixes (parse : Bytes → Nat → Except PyErr (Cidr × Nat)) (data : Bytes)
    (offset : Nat) : Except PyErr (List PrefixEntry) :=
  scan .diverges
    (fun offset => do
      let (c, consumed) ← parse data offset
      .ok ([.cidr c], some (offset + consumed)))
    data.length offset

/-! ## Attribute values -/

/-- Width of the AS numbers of a segment, guessed from the bytes left in the attribute. -/
def asSize (remainingBytes segmentLength : Nat) : Nat :=
  if segmentLength > 0 then
    let bytesPerAs := remainingBytes / segmentLength
    if bytesPerAs = 4 then 4
    else if bytesPerAs = 2 then 2
    else if remainingBytes ≥ segmentLength * 4 then 4 else 2
  else 4

def readAsNumber (value : Bytes) (size offset : Nat) : Except PyErr Nat :=
  if size = 4 then readUint32 value offset else readUint16 value offset

/-- The AS numbers of a segment; those of segments of other types are read and dropped. -/
def segmentAsNumbers (value : Bytes) (segmentType size : Nat) :
    Nat → Nat → Except PyErr (List Nat)
  | 0, _ => .ok []
  | count + 1, offset => do
      let asNum ← readAsNumber value size offset
      let rest ← segmentAsNumbers value segmentType size count (offset + size)
      if segmentType = BGPASPathSegmentType.asSequence then .ok (asNum :: rest)
      else if segmentType = BGPASPathSegmentType.asSet then .ok (asNum :: rest)
      else .ok rest

/-- One round of the loop of `parse_as_path`. -/
def asPathSegment (value : Bytes) (offset : Nat) : Except PyErr (Round Nat) :=
  if offset + 2 > value.length then .error (.bgpParseError "Incomplete AS_PATH segment")
  else do
  let segmentType ← readUint8 value offset
  let segmentLength ← readUint8 value (offset + 1)
  let offset := offset + 2
  let size := asSize (value.length - offset) segmentLength
  if offset + segmentLength * size > value.length then
    .error (.bgpParseError "Incomplete AS_PATH segment data")
  else do
  let asNumbers ← segmentAsNumbers value segmentType size segmentLength offset
  .ok (asNumbers, some (offset + segmentLength * size))

def parseAsPath (value : Bytes) : Except PyErr (List Nat) :=
  scan .diverges (asPathSegment value) value.length 0

/-- One round of the loop of `parse_communities`. -/
def community (value : Bytes) (offset : Nat) : Except PyErr (Round String) := do
  let asNum ← readUint16 value offset
  let commValue ← readUint16 value (offset + 2)
  .ok ([s!"{asNum}:{commValue}"], some (offset + 4))

def parseCommunities (value : Bytes) : Except PyErr (List String) :=
  if value.length % 4 ≠ 0 then
    .error (.bgpParseError "Invalid COMMUNITIES length (must be multiple of 4)")
  else scan .diverges (community value) value.length 0

/-- `label:as_num:assigned` with a two-octet AS number and a four-octet value. -/
def twoOctetAsCommunity (label : String) (value : Bytes) (offset : Nat) :
    Except PyErr String := do
  let asNum ← readUint16 value (offset + 2)
  let assigned ← readUint32 value (offset + 4)
  .ok s!"{label}:{asNum}:{assigned}"

/-- `label:ip:assigned` with an IPv4 address and a two-octet value. -/
def ipv4Community (label : String) (value : Bytes) (offset : Nat) : Except PyErr String := do
  let ipBytes ← readBytes value (offset + 2) 4
  let ip ← ipv4Address ipBytes
  let assigned ← readUint16 value (offset + 6)
  .ok s!"{label}:{ip.str}:{assigned}"

/-- `label:as_num:assigned` with a four-octet AS number and a two-octet value. -/
def fourOctetAsCommunity (label : String) (value : Bytes) (offset : Nat) :
    Except PyErr String := do
  let asNum ← readUint32 value (offset + 2)
  let assigned ← readUint16 value (offset + 6)
  .ok s!"{label}:{asNum}:{assigned}"

/-- The text of the extended community whose eight octets start at `offset`. -/
def extendedCommunity (value : Bytes) (offset : Nat) : Except PyErr String := do
  let extType ← readUint8 value offset
  let extSubtype ← readUint8 value (offset + 1)
  if extType = 0x03 ∧ extSubtype = 0x0C then do
    let domainBytes ← readBytes value (offset + 2) 6
    let domainId ← ipv4Address (slice domainBytes 2 6)
    .ok s!"OSPF-Domain:{domainId.str}"
  else if extType = 0x00 ∧ extSubtype = 0x02 then twoOctetAsCommunity "RT" value offset
  else if extType = 0x02 ∧ extSubtype = 0x00 then twoOctetAsCommunity "RO" value offset
  else if extType = 0x01 ∧ extSubtype = 0x02 then ipv4Community "RT" value offset
  else if extType = 0x03 ∧ extSubtype = 0x00 then ipv4Community "RO" value offset
  else if extType = 0x02 ∧ extSubtype = 0x02 then fourOctetAsCommunity "RT" value offset
  else if extType = 0x0A ∧ extSubtype = 0x02 then fourOctetAsCommunity "RO" value offset
  else if extType = 0x03 then do
    let opaqueValue ← readBytes value (offset + 2) 6
    .ok s!"Opaque:{hex opaqueValue}"
  else if extType = 0x06 then
    if extSubtype = 0x00 then do
      let _flags ← readUint8 value (offset + 2)
      let seq ← readUint32 value (offset + 3)
      .ok s!"EVPN-MAC-Mobility:{seq}"
    else if extSubtype = 0x01 then do
      let labelBytes ← readBytes value (offset + 5) 3
      let b0 ← index labelBytes 0
      let b1 ← index labelBytes 1
      let b2 ← index labelBytes 2
      let label := (b0 <<< 12) ||| (b1 <<< 4) ||| (b2 >>> 4)
      .ok s!"EVPN-ESI-Label:{label}"
    else if extSubtype = 0x02 then do
      let macBytes ← readBytes value (offset + 2) 6
      .ok s!"EVPN-ES-Import:{colonHex macBytes}"
    else do
      let evpnValue ← readBytes value (offset + 2) 6
      .ok s!"EVPN-{hex2 (UInt8.ofNat extSubtype)}:{hex evpnValue}"
  else if extType = 0x08 then twoOctetAsCommunity "Redirect" value offset
  else do
    let extValue ← readBytes value offset 8
    .ok s!"Unknown-{hex2 (UInt8.ofNat extType)}:{hex extValue}"

def parseExtendedCommunities (value : Bytes) : Except PyErr (List String) :=
  if value.length % 8 ≠ 0 then
    .error (.bgpParseError "Invalid EXTENDED_COMMUNITIES length (must be multiple of 8)")
  else
    scan .diverges
      (fun offset => do
        let text ← extendedCommunity value offset
        .ok ([text], some (offset + 8)))
      value.length 0

/-! ## EVPN routes -/

def parseRouteDistinguisher (value : Bytes) (offset : Nat) : Except PyErr String :=
  if value.length < offset + 8 then .error (.bgpParseError "Route Distinguisher too short")
  else do
  let rdType ← readUint16 value offset
  if rdType = 0 then do
    let admin ← readUint16 value (offset + 2)
    let assigned ← readUint32 value (offset + 4)
    .ok s!"{admin}:{assigned}"
  else if rdType = 1 then do
    let ipBytes ← readBytes value (offset + 2) 4
    let ip ← ipv4Address ipBytes
    let assigned ← readUint16 value (offset + 6)
    .ok s!"{ip.str}:{assigned}"
  else if rdType = 2 then do
    let admin ← readUint32 value (offset + 2)
    let assigned ← readUint16 value (offset + 6)
    .ok s!"{admin}:{assigned}"
  else do
    let rdBytes ← readBytes value offset 8
    .ok (hex rdBytes)

def parseEthernetSegmentId (value : Bytes) (offset : Nat) : Except PyErr String :=
  if value.length < offset + 10 then
    .error (.bgpParseError "Ethernet Segment Identifier too short")
  else do
  let esiBytes ← readBytes value offset 10
  .ok (colonHex esiBytes)

/-- The MAC address, when its length octet says 48 bits and the buffer has them. -/
def evpnMacAddress (value : Bytes) (macLen routeOffset : Nat) :
    Except PyErr (Option String × Nat) :=
  if macLen = 48 ∧ value.length ≥ routeOffset + 6 then do
    let macBytes ← readBytes value routeOffset 6
    .ok (some (colonHex macBytes), routeOffset + 6)
  else .ok (none, routeOffset)

/-- The IP address, when its length octet says 32 or 128 bits and the buffer has them. -/
def evpnIpAddress (value : Bytes) (ipLen routeOffset : Nat) : Except PyErr (Option IpAddress) :=
  if ipLen = 32 ∧ value.length ≥ routeOffset + 4 then do
    let ipBytes ← readBytes value routeOffset 4
    let ip ← ipv4Address ipBytes
    .ok (some (.v4 ip))
  else if ipLen = 128 ∧ value.length ≥ routeOffset + 16 then do
    let ipBytes ← readBytes value routeOffset 16
    let ip ← ipv6Address ipBytes
    .ok (some (.v6 ip))
  else .ok none

/-- The body of a Type 2 (MAC/IP Advertisement) route. -/
def evpnMacIpRoute (value : Bytes) (routeOffset : Nat) : Except PyErr EvpnRouteInfo := do
  let rd ← parseRouteDistinguisher value routeOffset
  let routeOffset := routeOffset + 8
  let esi ← parseEthernetSegmentId value routeOffset
  let routeOffset := routeOffset + 10
  let routeOffset := routeOffset + 4
  let macLen ← readUint8 value routeOffset
  let (macAddress, routeOffset) ← evpnMacAddress value macLen (routeOffset + 1)
  let ipLen ← readUint8 value routeOffset
  let ipAddress ← evpnIpAddress value ipLen (routeOffset + 1)
  .ok (.macIp rd esi macAddress ipAddress)

def parseEvpnNlri (value : Bytes) (offset : Nat) : Except PyErr (Option EvpnRouteInfo × Nat) :=
  if value.length < offset + 2 then .ok (none, 0)
  else do
  let routeType ← readUint8 value offset
  let length ← readUint8 value (offset + 1)
  if value.length < offset + 2 + length then
    .error (.bgpParseError s!"EVPN NLRI truncated: need {length} bytes")
  else if routeType = 2 then
    if length < 33 then .error (.bgpParseError "EVPN Type 2 NLRI too short")
    else do
    let route ← evpnMacIpRoute value (offset + 2)
    .ok (some route, 2 + length)
  else .ok (some (.other routeType), 2 + length)

/-- The EVPN loop of `parse_mp_reach_nlri` and `parse_mp_unreach_nlri`, which
breaks on a remainder too short for a route. -/
def parseEvpnRoutes (value : Bytes) (offset : Nat) : Except PyErr (List PrefixEntry) :=
  scan .diverges
    (fun offset => do
      let (routeInfo, consumed) ← parseEvpnNlri value offset
      .ok (routeInfo.toList.map .evpn, if consumed = 0 then none else some (offset + consumed)))
    value.length offset

/-- The NLRI decoding that `parse_mp_reach_nlri` and `parse_mp_unreach_nlri` share. -/
def parseNlri (afi safi : Nat) (value : Bytes) (offset : Nat) : Except PyErr (List PrefixEntry) :=
  if afi = AddressFamilyIdentifier.ipv4 ∧ safi = SubsequentAddressFamilyIdentifier.unicast then
    parsePrefixes parseIpv4Prefix value offset
  else if afi = AddressFamilyIdentifier.ipv6 ∧
      safi = SubsequentAddressFamilyIdentifier.unicast then
    parsePrefixes parseIpv6Prefix value offset
  else if afi = AddressFamilyIdentifier.l2vpn ∧
      safi = SubsequentAddressFamilyIdentifier.evpn then
    parseEvpnRoutes value offset
  else .ok []

/-- The next hop of MP_REACH_NLRI, by address family and length. -/
def mpNextHop (afi nextHopLen : Nat) (nextHopData : Bytes) : Except PyErr (Option IpAddress) :=
  if afi = AddressFamilyIdentifier.ipv4 then
    if nextHopLen ≥ 4 then do
      let ip ← ipv4Address (nextHopData.take 4)
      .ok (some (.v4 ip))
    else .ok none
  else if afi = AddressFamilyIdentifier.ipv6 then
    if nextHopLen ≥ 16 then do
      let ip ← ipv6Address (nextHopData.take 16)
      .ok (some (.v6 ip))
    else .ok none
  else if afi = AddressFamilyIdentifier.l2vpn then
    if nextHopLen = 4 then do
      let ip ← ipv4Address (nextHopData.take 4)
      .ok (some (.v4 ip))
    else if nextHopLen = 16 then do
      let ip ← ipv6Address (nextHopData.take 16)
      .ok (some (.v6 ip))
    else .ok none
  else .ok none

structure MpReach where
  afi : Nat
  safi : Nat
  nextHop : Option IpAddress
  prefixes : List PrefixEntry
  deriving DecidableEq, Repr

def parseMpReachNlri (value : Bytes) : Except PyErr MpReach :=
  if value.length < 5 then .error (.bgpParseError "MP_REACH_NLRI too short")
  else do
  let afi ← readUint16 value 0
  let safi ← readUint8 value 2
  let nextHopLen ← readUint8 value 3
  if value.length < 4 + nextHopLen + 1 then .error (.bgpParseError "MP_REACH_NLRI incomplete")
  else do
  let nextHopData ← readBytes value 4 nextHopLen
  let nextHop ← mpNextHop afi nextHopLen nextHopData
  let prefixes ← parseNlri afi safi value (4 + nextHopLen + 1)
  .ok ⟨afi, safi, nextHop, prefixes⟩

structure MpUnreach where
  afi : Nat
  safi : Nat
  prefixes : List PrefixEntry
  deriving DecidableEq, Repr

def parseMpUnreachNlri (value : Bytes) : Except PyErr MpUnreach :=
  if value.length < 3 then .error (.bgpParseError "MP_UNREACH_NLRI too short")
  else do
  let afi ← readUint16 value 0
  let safi ← readUint8 value 2
  let prefixes ← parseNlri afi safi value 3
  .ok ⟨afi, safi, prefixes⟩

/-! ## The whole UPDATE -/

/-- The local variables of `parse_bgp_update`, with their initial values. -/
structure UpdateVars where
  afi : Option Nat := none
  safi : Option Nat := none
  prefixes : List PrefixEntry := []
  withdrawnPrefixes : List PrefixEntry := []
  origin : Option Nat := none
  asPath : Option (List Nat) := none
  nextHop : Option IpAddress := none
  med : Option Nat := none
  localPref : Option Nat := none
  communities : Option (List String) := none
  extendedCommunities : Option (List String) := none
  evpnRouteType : Option Nat := none
  evpnRd : Option String := none
  evpnEsi : Option String := none
  macAddress : Option String := none
  hasMpUnreach : Bool := false
  deriving DecidableEq, Repr

/-- A branch of the attribute loop: it writes variables, and may raise after some writes. -/
abbrev Branch := ExceptT PyErr (StateM UpdateVars)

def decode {α : Type} (x : Except PyErr α) : Branch α := ExceptT.mk (pure x)

/-- `evpn_route_type`, `evpn_rd`, `evpn_esi` and `mac_address` from the first route, if
the attribute is an EVPN one with a route. -/
def assignFirstRoute (afi safi : Nat) (routes : List PrefixEntry) : Branch Unit :=
  if afi = AddressFamilyIdentifier.l2vpn ∧ safi = SubsequentAddressFamilyIdentifier.evpn then
    match routes with
    | .evpn route :: _ => modify fun v =>
        { v with evpnRouteType := some route.routeType, evpnRd := route.getRd none,
                 evpnEsi := route.getEsi none, macAddress := route.getMacAddress none }
    | _ => pure ()
  else pure ()

def applyAttribute (attr : BGPPathAttribute) : Branch Unit :=
  match attr.typeCode with
  | .known .origin => do
      let origin ← decode (readUint8 attr.value 0)
      modify fun v => { v with origin := some origin }
  | .known .asPath => do
      let asPath ← decode (parseAsPath attr.value)
      modify fun v => { v with asPath := some asPath }
  | .known .nextHop =>
      if attr.value.length ≥ 4 then do
        let nextHop ← decode (ipv4Address (attr.value.take 4))
        modify fun v => { v with nextHop := some (.v4 nextHop) }
      else pure ()
  | .known .multiExitDisc => do
      let med ← decode (readUint32 attr.value 0)
      modify fun v => { v with med := some med }
  | .known .localPref => do
      let localPref ← decode (readUint32 attr.value 0)
      modify fun v => { v with localPref := some localPref }
  | .known .communities => do
      let communities ← decode (parseCommunities attr.value)
      modify fun v => { v with communities := some communities }
  | .known .extendedCommunities => do
      let extendedCommunities ← decode (parseExtendedCommunities attr.value)
      modify fun v => { v with extendedCommunities := some extendedCommunities }
  | .known .mpReachNlri => do
      let mp ← decode (parseMpReachNlri attr.value)
      modify fun v => { v with afi := some mp.afi, safi := some mp.safi }
      if mp.nextHop.isSome then modify fun v => { v with nextHop := mp.nextHop }
      assignFirstRoute mp.afi mp.safi mp.prefixes
      modify fun v => { v with prefixes := v.prefixes ++ mp.prefixes }
  | .known .mpUnreachNlri => do
      let mp ← decode (parseMpUnreachNlri attr.value)
      modify fun v => { v with afi := some mp.afi, safi := some mp.safi, hasMpUnreach := true }
      assignFirstRoute mp.afi mp.safi mp.prefixes
      modify fun v => { v with withdrawnPrefixes := v.withdrawnPrefixes ++ mp.prefixes }
  | _ => pure ()

/-- `try: <branch>` with `except Exception: continue`. -/
def tryAttribute (vars : UpdateVars) (attr : BGPPathAttribute) : Except PyErr UpdateVars :=
  match (applyAttribute attr).run vars with
  | (.ok (), vars) => .ok vars
  | (.error e, vars) => if e.isException then .ok vars else .error e

/-- `for attr in update.path_attributes`. -/
def walkAttributes : List BGPPathAttribute → UpdateVars → Except PyErr UpdateVars
  | [], vars => .ok vars
  | attr :: attrs, vars => do
      let vars ← tryAttribute vars attr
      walkAttributes attrs vars

def UpdateVars.parsed (v : UpdateVars) : ParsedBGPUpdate where
  afi := v.afi
  safi := v.safi
  prefixes := v.prefixes
  withdrawnPrefixes := v.withdrawnPrefixes
  isWithdrawal := v.withdrawnPrefixes.length > 0 || (v.hasMpUnreach && v.prefixes.length == 0)
  origin := v.origin
  asPath := v.asPath
  nextHop := v.nextHop
  med := v.med
  localPref := v.localPref
  communities := v.communities
  extendedCommunities := v.extendedCommunities
  evpnRouteType := v.evpnRouteType
  evpnRd := v.evpnRd
  evpnEsi := v.evpnEsi
  macAddress := v.macAddress

/-- The classic NLRI field: IPv4 unicast whatever the attributes have said. -/
def parseClassicNlri (nlri : Bytes) (vars : UpdateVars) : Except PyErr UpdateVars :=
  if nlri.length > 0 then do
    let prefixes ← parsePrefixes parseIpv4Prefix nlri 0
    .ok { vars with
      afi := some AddressFamilyIdentifier.ipv4
      safi := some SubsequentAddressFamilyIdentifier.unicast
      prefixes := vars.prefixes ++ prefixes }
  else .ok vars

def parseBgpUpdate (data : Bytes) : Except PyErr ParsedBGPUpdate := do
  let update ← parseBgpUpdateStructure data
  let withdrawn ← parsePrefixes parseIpv4Prefix update.withdrawnRoutes 0
  let vars ← walkAttributes update.pathAttributes { withdrawnPrefixes := withdrawn }
  let vars ← parseClassicNlri update.nlri vars
  .ok vars.parsed

end Pybmpmon.Protocol.BgpParser
