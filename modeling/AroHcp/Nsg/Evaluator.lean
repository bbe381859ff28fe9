import AroHcp.Lib.DecisionList
import AroHcp.Lib.GoFmt
import AroHcp.Lib.Netip

/-! The evaluation of network security group rules against the paths that node pools need, and the
validation that runs it. -/

namespace Nsg

open GoStrings GoFmt Netip

inductive SecurityGroupAccess where
  | allow
  | deny
deriving DecidableEq, Repr

structure SecurityRule where
  name : String
  priority : Int
  access : SecurityGroupAccess
  protocol : String
  sourceAddressPrefixes : List String
  destinationAddressPrefixes : List String
  sourcePortRanges : List String
  destinationPortRanges : List String
deriving DecidableEq

structure RequiredPath where
  worker : Prefix
  destination : Prefix
  port : Int
deriving DecidableEq

inductive Direction where
  | outbound
  | inbound
deriving DecidableEq, Repr

structure ViolationDetails where
  direction : Direction
  ruleName : String
  rulePriority : Int
  protocol : String
  sourcePortRanges : List String
  blockedPorts : List Int
  source : List String
  destination : List String
  pathWorker : Prefix
  pathDestination : Prefix
  reason : String
deriving DecidableEq

structure PortRange where
  base : Int
  size : Int
deriving DecidableEq

def PortRange.contains (r : PortRange) (port : Int) : Bool :=
  r.base ≤ port && port - r.base < r.size

/-- What the evaluator takes from other packages: the texts of addresses, and
`utilnet.ParsePortRange`. -/
structure Parsers extends TextForm where
  parsePortRange : String → Except String PortRange

/-! ## The fields of a rule -/

def isAnyAddressPrefix (p : String) : Bool :=
  trimSpace p = "" || trimSpace p = "*" || equalFold (trimSpace p) "Any"

def isAnyAddressPrefixes (prefixes : List String) : Bool :=
  prefixes.isEmpty || prefixes.any isAnyAddressPrefix

def isAnyPort (p : String) : Bool :=
  p = "*"

def isVirtualNetworkTag (p : String) : Bool :=
  equalFold (trimSpace p) "VirtualNetwork"

def isInternetTag (p : String) : Bool :=
  equalFold (trimSpace p) "Internet"

def isAnyProtocol (protocol : String) : Bool :=
  trimSpace protocol = "" || trimSpace protocol = "*" || equalFold (trimSpace protocol) "Any"

def protocolMatchesTCP (protocol : String) : Bool :=
  isAnyProtocol protocol || equalFold (trimSpace protocol) "Tcp"

variable (parsers : Parsers)

def parsePrefixOrAddr (text : String) : Except String Prefix :=
  let s := trimSpace text
  let quoted := quote s
  if GoStrings.contains s "/" then
    match parsers.parsePrefix s with
    | .ok p => .ok p
    | .error err => .error s!"invalid CIDR {quoted}: {err}"
  else
    match parsers.parseAddr s with
    | .ok a => .ok (.ofAddr a)
    | .error err => .error s!"invalid IP address {quoted}: {err}"

def entryOverlaps (p : String) (subnet : Prefix) : Bool :=
  match parsePrefixOrAddr parsers p with
  | .ok rulePrefix => rulePrefix.overlaps subnet
  | .error _ => false

def sourceMatchesSubnet (prefixes : List String) (subnet : Prefix) : Bool :=
  prefixes.isEmpty || prefixes.any fun p =>
    let p := trimSpace p
    isAnyAddressPrefix p || isVirtualNetworkTag p || entryOverlaps parsers p subnet

def sourceSpecificallyFromWorker (prefixes : List String) (workerSubnet : Prefix) : Bool :=
  prefixes.any fun p =>
    let p := trimSpace p
    !isAnyAddressPrefix p && (isVirtualNetworkTag p || entryOverlaps parsers p workerSubnet)

def destinationMatchesSubnet (prefixes : List String) (subnet : Prefix) (matchAny : Bool) : Bool :=
  if prefixes.isEmpty then matchAny
  else prefixes.any fun p =>
    let p := trimSpace p
    if isAnyAddressPrefix p then matchAny
    else if isInternetTag p then false
    else isVirtualNetworkTag p || entryOverlaps parsers p subnet

def destinationIsVNetOrSubnet (prefixes : List String) (subnet : Prefix) : Bool :=
  destinationMatchesSubnet parsers prefixes subnet false

def destinationOverlapsSubnet (prefixes : List String) (subnet : Prefix) : Bool :=
  destinationMatchesSubnet parsers prefixes subnet true

def allowCoversPrefix (allowPrefixes : List String) (destPrefix : Prefix) : Bool :=
  allowPrefixes.any fun p =>
    let p := trimSpace p
    isAnyAddressPrefix p || isVirtualNetworkTag p ||
      match parsePrefixOrAddr parsers p with
      | .ok allowPrefix => allowPrefix.contains destPrefix.addr && allowPrefix.bits ≤ destPrefix.bits
      | .error _ => false

def portRangesMatch (ranges : List String) (port : Int) : Bool :=
  ranges.isEmpty || ranges.any fun r =>
    let r := trimSpace r
    isAnyPort r || (split r ',').any fun part =>
      match parsers.parsePortRange (trimSpace part) with
      | .ok pr => pr.contains port
      | .error _ => false

def matchingPorts (ranges : List String) (ports : List Int) : List Int :=
  ports.filter (portRangesMatch parsers ranges)

def ruleMatchesPath (rule : SecurityRule) (path : RequiredPath) : Bool :=
  sourceMatchesSubnet parsers rule.sourceAddressPrefixes path.worker &&
    destinationOverlapsSubnet parsers rule.destinationAddressPrefixes path.destination &&
    portRangesMatch parsers rule.destinationPortRanges path.port

def isAllow (rule : SecurityRule) : Bool :=
  rule.access = .allow

/-! ## The violations -/

def formatNSGAddressPrefixesForMessage (prefixes : List String) : String :=
  if isAnyAddressPrefixes prefixes then "Any"
  else ", ".intercalate <| prefixes.map fun p =>
    let p := trimSpace p
    if isVirtualNetworkTag p then "VirtualNetwork"
    else if isInternetTag p then "Internet"
    else p

def formatRuleSourceToDestination (sourcePrefixes destinationPrefixes : List String) : String :=
  let source := formatNSGAddressPrefixesForMessage sourcePrefixes
  let destination := formatNSGAddressPrefixesForMessage destinationPrefixes
  s!"source {source} to destination {destination}"

def outboundBlockedRuleEndpoints (deny : SecurityRule) (path : RequiredPath) : String :=
  if isAnyAddressPrefixes deny.sourceAddressPrefixes &&
      isAnyAddressPrefixes deny.destinationAddressPrefixes then
    "source Any to destination Any"
  else
    let source := formatNSGAddressPrefixesForMessage deny.sourceAddressPrefixes
    let subnet := parsers.string path.destination
    s!"source {source} to destination overlapping subnet {subnet}"

def inboundBlockedRuleEndpoints (deny : SecurityRule) (path : RequiredPath) : String :=
  let srcAny := isAnyAddressPrefixes deny.sourceAddressPrefixes
  let dstAny := isAnyAddressPrefixes deny.destinationAddressPrefixes
  let srcWorker := sourceSpecificallyFromWorker parsers deny.sourceAddressPrefixes path.worker
  let dstVNetOrIntegration :=
    destinationIsVNetOrSubnet parsers deny.destinationAddressPrefixes path.destination
  if srcAny && dstAny then "source Any to destination Any"
  else if srcAny && dstVNetOrIntegration then
    "source Any to destination VirtualNetwork/vnet-integration subnet"
  else if srcWorker && dstAny then "source Worker subnet to destination Any"
  else if srcWorker && dstVNetOrIntegration then
    "source Worker subnet to destination VirtualNetwork/vnet-integration subnet"
  else formatRuleSourceToDestination deny.sourceAddressPrefixes deny.destinationAddressPrefixes

def pathMissingAllowViolation (path : RequiredPath) (direction : Direction) : ViolationDetails where
  direction := direction
  ruleName := ""
  rulePriority := 0
  protocol := "Tcp"
  sourcePortRanges := []
  blockedPorts := [path.port]
  source := []
  destination := []
  pathWorker := path.worker
  pathDestination := path.destination
  reason := "no Allow rule permits this traffic"

def pathBlockedViolation (deny : SecurityRule) (path : RequiredPath) (direction : Direction)
    (requiredPorts : List Int) : ViolationDetails :=
  let blockedPorts := matchingPorts parsers deny.destinationPortRanges requiredPorts
  { direction := direction
    ruleName := deny.name
    rulePriority := deny.priority
    protocol := deny.protocol
    sourcePortRanges := deny.sourcePortRanges
    blockedPorts := if blockedPorts.isEmpty then [path.port] else blockedPorts
    source := deny.sourceAddressPrefixes
    destination := deny.destinationAddressPrefixes
    pathWorker := path.worker
    pathDestination := path.destination
    reason := match direction with
      | .outbound => outboundBlockedRuleEndpoints parsers deny path
      | .inbound => inboundBlockedRuleEndpoints parsers deny path }

/-! ## The destinations allowed so far -/

def appendPartialAllowDestinations (partials : List Prefix) (rule : SecurityRule) (dest : Prefix) :
    List Prefix :=
  partials ++ rule.destinationAddressPrefixes.filterMap fun p =>
    let p := trimSpace p
    if isAnyAddressPrefix p || isVirtualNetworkTag p || isInternetTag p then none
    else match parsePrefixOrAddr parsers p with
      | .ok rulePrefix => if rulePrefix.overlaps dest then some rulePrefix else none
      | .error _ => none

def partialRanges (partials : List Prefix) (dest : Prefix) : List NatRange :=
  (partials.filter (·.overlaps dest)).map fun p => p.range.inter dest.range

def addrRangeCovers (ranges : List NatRange) (dest : NatRange) : Bool :=
  !ranges.isEmpty && NatRange.covers (NatRange.merge ranges) dest

def prefixUnionCoversDest (partials : List Prefix) (dest : Prefix) : Bool :=
  !(partialRanges partials dest).isEmpty &&
    addrRangeCovers (NatRange.merge (partialRanges partials dest)) dest.range

def partialSubnetsCoverDestination (partials : List Prefix) (dest : Prefix) : Bool :=
  !partials.isEmpty && (allowCoversPrefix parsers (partials.map parsers.string) dest ||
    prefixUnionCoversDest partials dest)

/-! ## The evaluation -/

/-- The loop over the sorted rules, with the prefixes allowed so far. -/
def evaluateRules (path : RequiredPath) (direction : Direction) (requiredPorts : List Int) :
    List SecurityRule → List Prefix → Option ViolationDetails
  | [], partialSubnets =>
    if partialSubnetsCoverDestination parsers partialSubnets path.destination then none
    else some (pathMissingAllowViolation path direction)
  | rule :: sorted, partialSubnets =>
    if !protocolMatchesTCP rule.protocol || !ruleMatchesPath parsers rule path then
      evaluateRules path direction requiredPorts sorted partialSubnets
    else if isAllow rule then
      if allowCoversPrefix parsers rule.destinationAddressPrefixes path.destination then none
      else evaluateRules path direction requiredPorts sorted
        (appendPartialAllowDestinations parsers partialSubnets rule path.destination)
    else if partialSubnetsCoverDestination parsers partialSubnets path.destination then none
    else some (pathBlockedViolation parsers rule path direction requiredPorts)

def evaluateSingleRequiredNSGPath (sorted : List SecurityRule) (path : RequiredPath)
    (direction : Direction) (requiredPorts : List Int) : Option ViolationDetails :=
  evaluateRules parsers path direction requiredPorts sorted []

def sortByPriority (rules : List SecurityRule) : List SecurityRule :=
  rules.insertionSort fun a b => a.priority ≤ b.priority

def requiredPortsFromPaths (paths : List RequiredPath) : List Int :=
  paths.foldl (fun ports path => if path.port ∈ ports then ports else ports ++ [path.port]) []

def evaluateRequiredNSGPathViolations (rules : List SecurityRule) (paths : List RequiredPath)
    (direction : Direction) : Except String (List ViolationDetails) :=
  .ok <| paths.filterMap fun path => evaluateSingleRequiredNSGPath parsers (sortByPriority rules) path
    direction (requiredPortsFromPaths paths)

/-! ## The validation -/

def buildRequiredNSGPaths (workerPrefixes : List Prefix) (workerLabel : String)
    (destinationPrefixes : List Prefix) (destLabel : String) (ports : List Int) :
    Except String (List RequiredPath) :=
  if workerPrefixes.isEmpty then .error s!"no {workerLabel} prefixes provided"
  else if destinationPrefixes.isEmpty then .error s!"no {destLabel} prefixes provided"
  else .ok <| workerPrefixes.flatMap fun worker => destinationPrefixes.flatMap fun dest =>
    ports.map fun port => ⟨worker, dest, port⟩

def validateNSGPortRange (field part : String) : Except String Unit :=
  let part := trimSpace part
  let quoted := quote part
  if isAnyPort part then .ok ()
  else match parsers.parsePortRange part with
    | .ok _ => .ok ()
    | .error err => .error s!"invalid {field} port range {quoted}: {err}"

def validateNSGPortRanges (ranges : List String) (field : String) : Except String Unit :=
  ranges.forM fun r =>
    let r := trimSpace r
    if isAnyPort r then .ok ()
    else (split r ',').forM (validateNSGPortRange parsers field)

def preValidationPortCheck (rules : List SecurityRule) : Except String Unit :=
  rules.forM fun rule => do
    validateNSGPortRanges parsers rule.sourcePortRanges "source"
    validateNSGPortRanges parsers rule.destinationPortRanges "destination"

def validateOutboundNSGRules (rules : List SecurityRule)
    (workerSubnetPrefixes destinationPrefixes : List Prefix) (ports : List Int) :
    Except String (List ViolationDetails) := do
  preValidationPortCheck parsers rules
  let paths ← buildRequiredNSGPaths workerSubnetPrefixes "worker subnet" destinationPrefixes
    "destination subnet" ports
  evaluateRequiredNSGPathViolations parsers rules paths .outbound

def validateInboundNSGRules (rules : List SecurityRule)
    (workerSubnetPrefixes vnetIntegrationSubnetPrefixes : List Prefix) (ports : List Int) :
    Except String (List ViolationDetails) := do
  preValidationPortCheck parsers rules
  let paths ← buildRequiredNSGPaths workerSubnetPrefixes "worker subnet"
    vnetIntegrationSubnetPrefixes "vnet-integration subnet" ports
  evaluateRequiredNSGPathViolations parsers rules paths .inbound

end Nsg
