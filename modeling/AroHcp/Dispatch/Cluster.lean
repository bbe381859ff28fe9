import AroHcp.Dispatch.NodePool
import AroHcp.Lib.GoFmt
import AroHcp.Lib.GoTime

/-! The dispatch of cluster updates to Cluster Service. The desired size of the control plane and
the sizing of its pods share one property there, in lower case. -/

namespace AroHcp.Dispatch.Cluster

open OmitEmpty GoFmt
open NodePool (CSValue csNodeDrainGracePeriodUnit int32OfFloat int32OfFloat_toInt)

/-! ## What is desired -/

inductive ControlPlaneAvailability where
  | default
  | singleReplica
deriving DecidableEq

inductive ControlPlanePodSizing where
  | default
  | minimal
deriving DecidableEq

def ControlPlaneAvailability.text : ControlPlaneAvailability → String
  | .default => ""
  | .singleReplica => "SingleReplica"

def ControlPlanePodSizing.text : ControlPlanePodSizing → String
  | .default => ""
  | .minimal => "Minimal"

structure ExperimentalFeatures where
  controlPlaneAvailability : ControlPlaneAvailability := .default
  controlPlanePodSizing : ControlPlanePodSizing := .default
  controlPlaneOperatorImage : String := ""
deriving DecidableEq

structure ImageDigestMirror where
  source : String
  mirrors : List String
deriving DecidableEq

structure Autoscaling where
  maxNodesTotal : Int32
  maxPodGracePeriodSeconds : Int32
  maxNodeProvisionTimeSeconds : Int32
  podPriorityThreshold : Int32
deriving DecidableEq

/-- Customer-managed keys are always those of a KMS. -/
inductive EtcdDataEncryption where
  | platformManaged
  | customerManaged (activeKeyVersion : String)
deriving DecidableEq

structure ClusterProperties where
  nodeDrainTimeoutMinutes : Int32
  authorizedCIDRs : Option (List String)
  imageDigestMirrors : List ImageDigestMirror
  autoscaling : Autoscaling
  experimentalFeatures : ExperimentalFeatures
  etcd : EtcdDataEncryption
  pullManagedIdentity : Option String
deriving DecidableEq

def ClusterProperties.provisionSeconds (cluster : ClusterProperties) : Int :=
  cluster.autoscaling.maxNodeProvisionTimeSeconds.toInt

structure Validated (cluster : ClusterProperties) : Prop where
  authorizedCIDRs : cluster.authorizedCIDRs ≠ some []
  maxNodeProvisionTime : 1 ≤ cluster.provisionSeconds
  pullManagedIdentity : cluster.pullManagedIdentity ≠ some ""

structure ServiceProviderCluster where
  desiredHostedClusterControlPlaneSize : Option String
deriving DecidableEq

def isValidHostedClusterControlPlaneSize (s : String) : Bool :=
  s ∈ ["Small", "Medium", "Large", "Xlarge", "XXlarge"]

/-- The admin API stores a size that is valid, or none. -/
def ServiceProviderCluster.Stored (serviceProviderCluster : ServiceProviderCluster) : Prop :=
  ∀ size ∈ serviceProviderCluster.desiredHostedClusterControlPlaneSize,
    isValidHostedClusterControlPlaneSize size = true

/-! ## What Cluster Service has

A field that is not set is `none`. An object without fields that are set reads as one that is
absent, so that its fields are those of the cluster here. -/

structure CSImageMirror where
  source : Option String
  mirrors : Option (List String)
deriving DecidableEq

structure CSAutoscaler where
  maxNodeProvisionTime : Option String
  maxPodGracePeriod : Option Int64
  podPriorityThreshold : Option Int64
  maxNodesTotal : Option Int64
deriving DecidableEq

structure CSEtcdDataEncryption where
  keyManagementMode : Option String := none
  encryptionType : Option String := none
  kmsActiveKeyVersion : Option String := none
deriving DecidableEq

/-- The managed identity of the registry's credentials, by its resource ID. -/
structure CSContainerRegistry where
  managedIdentity : Option String
deriving DecidableEq

abbrev Properties := String → Option String

/-- The fields of a cluster of Cluster Service that are dispatched; also those that the builders
set. -/
structure CSCluster where
  nodeDrainGracePeriod : Option CSValue := none
  cidrAllowMode : Option String := none
  cidrAllowValues : Option (List String) := none
  imageDigestMirrors : Option (List CSImageMirror) := none
  autoscaler : Option CSAutoscaler := none
  etcd : CSEtcdDataEncryption := {}
  containerRegistry : Option CSContainerRegistry := none
  properties : Option Properties := none

def csPropertySingleReplica : String := "hosted_cluster_single_replica"

def csPropertySizeOverride : String := "hosted_cluster_size_override"

def csPropertyCPOImageOverride : String := "control_plane_operator_image"

def csPropertyEnabled : String := "true"

def csPropertyE2EMinimalControlPlaneSize : String := "e2e_minimal"

def csKeyManagementModePlatformManaged : String := "platform_managed"

def csCIDRBlockAllowAccessModeAllowAll : String := "allow_all"

def csCIDRBlockAllowAccessModeAllowList : String := "allow_list"

/-! ## The form in which they are compared -/

structure DispatchConfig where
  nodeDrainTimeoutMinutes : Int32
  k8sAPIServerAuthorizedCIDRs : Option (List String)
  imageDigestMirrors : List ImageDigestMirror
  autoscaling : Autoscaling
  experimentalFeatures : ExperimentalFeatures
  desiredHostedClusterControlPlaneSize : Option String
  etcdKmsActiveKeyVersion : Option String
  containerRegistryPullManagedIdentityResourceID : Option String
deriving DecidableEq

/-- `clusterUpdateDispatchEtcdFromRP` -/
def etcdFromRP : EtcdDataEncryption → Option String
  | .platformManaged => none
  | .customerManaged version => some version

def configFromRP (cluster : ClusterProperties)
    (serviceProviderCluster : Option ServiceProviderCluster) : DispatchConfig where
  nodeDrainTimeoutMinutes := cluster.nodeDrainTimeoutMinutes
  k8sAPIServerAuthorizedCIDRs := cluster.authorizedCIDRs
  imageDigestMirrors := cluster.imageDigestMirrors
  autoscaling := cluster.autoscaling
  experimentalFeatures := cluster.experimentalFeatures
  desiredHostedClusterControlPlaneSize :=
    serviceProviderCluster.bind ServiceProviderCluster.desiredHostedClusterControlPlaneSize
  etcdKmsActiveKeyVersion := etcdFromRP cluster.etcd
  containerRegistryPullManagedIdentityResourceID := cluster.pullManagedIdentity

def nodeDrainTimeoutFromCS (cs : CSCluster) : Int32 :=
  match cs.nodeDrainGracePeriod with
  | none => 0
  | some period =>
    if period.unit = some csNodeDrainGracePeriodUnit then int32OfFloat (period.value.getD 0) else 0

/-- `ClusterUpdateDispatchConfigAuthorizedCIDRsFromCS` -/
def authorizedCIDRsFromCS (cs : CSCluster) : Option (List String) :=
  if cs.cidrAllowMode = some csCIDRBlockAllowAccessModeAllowList then cs.cidrAllowValues else none

def imageDigestMirrorsFromCS (cs : CSCluster) : List ImageDigestMirror :=
  (cs.imageDigestMirrors.getD []).filterMap fun mirror =>
    mirror.source.map fun source => ⟨source, mirror.mirrors.getD []⟩

def CSCluster.property (cs : CSCluster) (key : String) : Option String :=
  cs.properties.bind fun properties => properties key

/-- `clusterUpdateDispatchConfigExperimentalFeaturesFromCS` -/
def experimentalFeaturesFromCS (cs : CSCluster) : ExperimentalFeatures where
  controlPlaneAvailability :=
    if cs.property csPropertySingleReplica = some csPropertyEnabled then .singleReplica else .default
  controlPlanePodSizing :=
    if cs.property csPropertySizeOverride = some csPropertyE2EMinimalControlPlaneSize then .minimal
    else .default
  controlPlaneOperatorImage := (cs.property csPropertyCPOImageOverride).getD ""

def desiredHostedClusterControlPlaneSizeFromCS (cs : CSCluster) : Option String :=
  match cs.property csPropertySizeOverride with
  | none => none
  | some property =>
    if property = "" then none
    else if property = csPropertyE2EMinimalControlPlaneSize then none
    else some property

/-- `clusterUpdateDispatchConfigAutoscalingFromCS` -/
def autoscalingFromCS (text : GoTime.Texts) : Option CSAutoscaler → Except String Autoscaling
  | none => .ok ⟨0, 0, 0, 0⟩
  | some autoscaler => do
    let time := autoscaler.maxNodeProvisionTime.getD ""
    let maxNodeProvisionTime ←
      if time = "" then pure 0
      else do
        let duration ← text.parseDuration time
        pure (int32OfFloat (GoTime.seconds duration))
    pure
      { maxNodesTotal := (autoscaler.maxNodesTotal.getD 0).toInt32
        maxPodGracePeriodSeconds := (autoscaler.maxPodGracePeriod.getD 0).toInt32
        maxNodeProvisionTimeSeconds := maxNodeProvisionTime
        podPriorityThreshold := (autoscaler.podPriorityThreshold.getD 0).toInt32 }

def containerRegistryPullMIFromCS (cs : CSCluster) : Option String :=
  cs.containerRegistry.bind CSContainerRegistry.managedIdentity

/-- `clusterUpdateDispatchConfigEtcdFromCS` -/
def etcdFromCS (etcd : CSEtcdDataEncryption) : Option String :=
  if etcd.keyManagementMode = none ∨
      etcd.keyManagementMode = some csKeyManagementModePlatformManaged then none
  else if etcd.encryptionType.getD "" = "" then none
  else some (etcd.kmsActiveKeyVersion.getD "")

def configFromCS (text : GoTime.Texts) (cs : CSCluster) : Except String DispatchConfig := do
  let autoscaling ← autoscalingFromCS text cs.autoscaler
  pure
    { nodeDrainTimeoutMinutes := nodeDrainTimeoutFromCS cs
      k8sAPIServerAuthorizedCIDRs := authorizedCIDRsFromCS cs
      imageDigestMirrors := imageDigestMirrorsFromCS cs
      etcdKmsActiveKeyVersion := etcdFromCS cs.etcd
      containerRegistryPullManagedIdentityResourceID := containerRegistryPullMIFromCS cs
      experimentalFeatures := experimentalFeaturesFromCS cs
      desiredHostedClusterControlPlaneSize := desiredHostedClusterControlPlaneSizeFromCS cs
      autoscaling := autoscaling }

def ImageDigestMirror.toJson (mirror : ImageDigestMirror) : Json :=
  members [("mirrors", listField .str mirror.mirrors), ("source", strField mirror.source)]

def Autoscaling.toJson (autoscaling : Autoscaling) : Json :=
  members
    [("maxNodeProvisionTimeSeconds", numField autoscaling.maxNodeProvisionTimeSeconds),
      ("maxNodesTotal", numField autoscaling.maxNodesTotal),
      ("maxPodGracePeriodSeconds", numField autoscaling.maxPodGracePeriodSeconds),
      ("podPriorityThreshold", numField autoscaling.podPriorityThreshold)]

def ExperimentalFeatures.toJson (features : ExperimentalFeatures) : Json :=
  members
    [("controlPlaneAvailability", strField features.controlPlaneAvailability.text),
      ("controlPlaneOperatorImage", strField features.controlPlaneOperatorImage),
      ("controlPlanePodSizing", strField features.controlPlanePodSizing.text)]

/-- `clusterUpdateDispatchConfigEtcdDataEncryptionCustomerManaged` -/
def customerManagedJson (version : String) : Json :=
  members [("kms", some (members [("activeKey", some (members [("version", strField version)]))]))]

def etcdJson (version : Option String) : Json :=
  members
    [("dataEncryption", some (members [("customerManaged", version.map customerManagedJson)]))]

/-- The value of `canonicalJSON`. A struct that is not behind a pointer is never left out. -/
def DispatchConfig.canonicalJSON (config : DispatchConfig) : Json :=
  members
    [("autoscaling", some config.autoscaling.toJson),
      ("containerRegistryPullManagedIdentityResourceID",
        config.containerRegistryPullManagedIdentityResourceID.map .str),
      ("etcd", some (etcdJson config.etcdKmsActiveKeyVersion)),
      ("experimentalFeatures", some config.experimentalFeatures.toJson),
      ("imageDigestMirrors", listField ImageDigestMirror.toJson config.imageDigestMirrors),
      ("k8sAPIServerAuthorizedCIDRs", listField .str (config.k8sAPIServerAuthorizedCIDRs.getD [])),
      ("nodeDrainTimeoutMinutes", numField config.nodeDrainTimeoutMinutes),
      ("serviceProviderClusterDispatch",
        some (members [("desiredHostedClusterControlPlaneSize",
          config.desiredHostedClusterControlPlaneSize.map .str)]))]

def configJSONFromRP (cluster : ClusterProperties)
    (serviceProviderCluster : Option ServiceProviderCluster) : Json :=
  (configFromRP cluster serviceProviderCluster).canonicalJSON

def configJSONFromCS (text : GoTime.Texts) (cs : CSCluster) : Except String Json := do
  let config ← configFromCS text cs
  pure config.canonicalJSON

/-! ## The patch -/

def convertHostedClusterSizeOverrideToCS (podSizing : ControlPlanePodSizing)
    (desiredSize : Option String) : Option String :=
  match desiredSize with
  | some size => some (toLower size)
  | none => if podSizing = .minimal then some csPropertyE2EMinimalControlPlaneSize else none

def convertCIDRBlockAllowAccessRPToCS (authorizedCIDRs : Option (List String)) :
    Except String (Option String × Option (List String)) :=
  match authorizedCIDRs with
  | none => .ok (some csCIDRBlockAllowAccessModeAllowAll, none)
  | some cidrs =>
    if cidrs = [] then .error "AuthorizedCIDRs cannot be an empty list"
    else .ok (some csCIDRBlockAllowAccessModeAllowList, some cidrs)

def convertRpAutoscalarToCSBuilder (text : GoTime.Texts) (autoscaling : Autoscaling) :
    Except String CSAutoscaler := do
  let duration ← text.parseDuration
    (GoInt.formatInt autoscaling.maxNodeProvisionTimeSeconds.toInt ++ "s")
  pure
    { maxNodeProvisionTime := some (text.sprintFloat (GoTime.minutes duration) ++ "m")
      maxPodGracePeriod := some autoscaling.maxPodGracePeriodSeconds.toInt64
      podPriorityThreshold := some autoscaling.podPriorityThreshold.toInt64
      maxNodesTotal := some autoscaling.maxNodesTotal.toInt64 }

/-- The properties with one that is set, or deleted if there is no value for it. -/
def Properties.overlay (properties : Properties) (key : String) (value : Option String) : Properties :=
  Function.update properties key value

def DispatchConfig.properties (config : DispatchConfig) (baseProperties : Properties) : Properties :=
  let features := config.experimentalFeatures
  baseProperties
    |>.overlay csPropertySingleReplica
      (if features.controlPlaneAvailability = .singleReplica then some csPropertyEnabled else none)
    |>.overlay csPropertySizeOverride
      (convertHostedClusterSizeOverrideToCS features.controlPlanePodSizing
        config.desiredHostedClusterControlPlaneSize)
    |>.overlay csPropertyCPOImageOverride
      (if features.controlPlaneOperatorImage ≠ "" then some features.controlPlaneOperatorImage
      else none)

/-- `applyToCSBuilders` on the builders of an update. A builder takes any number of mirrors, none
also, as a field that is set. -/
def DispatchConfig.applyToCSBuilders (config : DispatchConfig) (text : GoTime.Texts)
    (baseProperties : Properties) : Except String CSCluster := do
  let (cidrAllowMode, cidrAllowValues) ←
    convertCIDRBlockAllowAccessRPToCS config.k8sAPIServerAuthorizedCIDRs
  let autoscaler ← convertRpAutoscalarToCSBuilder text config.autoscaling
  pure
    { nodeDrainGracePeriod :=
        some ⟨some csNodeDrainGracePeriodUnit, some (config.nodeDrainTimeoutMinutes.toInt : Rat)⟩
      cidrAllowMode := cidrAllowMode
      cidrAllowValues := cidrAllowValues
      imageDigestMirrors :=
        some (config.imageDigestMirrors.map fun mirror => ⟨some mirror.source, some mirror.mirrors⟩)
      -- neither the mode nor the type of the encryption is sent
      etcd := { kmsActiveKeyVersion := config.etcdKmsActiveKeyVersion }
      properties := some (config.properties baseProperties)
      containerRegistry :=
        config.containerRegistryPullManagedIdentityResourceID.map fun resourceID => ⟨some resourceID⟩
      autoscaler := some autoscaler }

def buildCSCluster (text : GoTime.Texts) (cluster : ClusterProperties)
    (requiredProperties : Properties) (oldClusterServiceCluster : CSCluster)
    (serviceProviderCluster : Option ServiceProviderCluster) : Except String CSCluster :=
  let properties : Properties := fun key =>
    (requiredProperties key).or (oldClusterServiceCluster.property key)
  let config := configFromRP cluster serviceProviderCluster
  let config :=
    if config.containerRegistryPullManagedIdentityResourceID = none ∧
        oldClusterServiceCluster.containerRegistry ≠ none then
      -- the empty text clears the identity
      { config with containerRegistryPullManagedIdentityResourceID := some "" }
    else config
  config.applyToCSBuilders text properties

def CSAutoscaler.patch (existing update : CSAutoscaler) : CSAutoscaler where
  maxNodeProvisionTime := update.maxNodeProvisionTime.or existing.maxNodeProvisionTime
  maxPodGracePeriod := update.maxPodGracePeriod.or existing.maxPodGracePeriod
  podPriorityThreshold := update.podPriorityThreshold.or existing.podPriorityThreshold
  maxNodesTotal := update.maxNodesTotal.or existing.maxNodesTotal

def CSEtcdDataEncryption.patch (existing update : CSEtcdDataEncryption) : CSEtcdDataEncryption where
  keyManagementMode := update.keyManagementMode.or existing.keyManagementMode
  encryptionType := update.encryptionType.or existing.encryptionType
  kmsActiveKeyVersion := update.kmsActiveKeyVersion.or existing.kmsActiveKeyVersion

/-- An identity that is sent replaces the one there is, and the empty text leaves none. -/
def CSContainerRegistry.patch (existing : Option CSContainerRegistry) (update : CSContainerRegistry) :
    CSContainerRegistry where
  managedIdentity :=
    match update.managedIdentity with
    | some resourceID => if resourceID = "" then none else some resourceID
    | none => existing.bind managedIdentity

/-- Cluster Service changes the fields that are set and keeps the others. -/
def CSCluster.patch (existing update : CSCluster) : CSCluster where
  nodeDrainGracePeriod := update.nodeDrainGracePeriod.or existing.nodeDrainGracePeriod
  cidrAllowMode := update.cidrAllowMode.or existing.cidrAllowMode
  cidrAllowValues := update.cidrAllowValues.or existing.cidrAllowValues
  imageDigestMirrors := update.imageDigestMirrors.or existing.imageDigestMirrors
  autoscaler :=
    match update.autoscaler, existing.autoscaler with
    | some autoscaler, some old => some (old.patch autoscaler)
    | some autoscaler, none => some autoscaler
    | none, old => old
  etcd := existing.etcd.patch update.etcd
  containerRegistry :=
    match update.containerRegistry with
    | some registry => some (.patch existing.containerRegistry registry)
    | none => existing.containerRegistry
  properties := update.properties.or existing.properties

/-! ## The comparison -/

theorem members_singleton_inj {key : String} {value value' : Option Json}
    (h : members [(key, value)] = members [(key, value')]) : value = value' := by
  have hfields : [value] = [value'] := members_inj [key] (by simp) rfl rfl h
  exact List.cons.inj hfields |>.1

theorem etcdJson_inj : Function.Injective etcdJson := by
  intro version version' h
  refine Option.map_injective ?_ (members_singleton_inj (Option.some.inj (members_singleton_inj h)))
  intro v v' hv
  have hkms := Option.some.inj (members_singleton_inj hv)
  have hactiveKey := Option.some.inj (members_singleton_inj hkms)
  exact strField_inj (members_singleton_inj hactiveKey)

/-- Equal values have the same size and the same key. -/
theorem of_canonicalJSON_eq {config config' : DispatchConfig}
    (h : config.canonicalJSON = config'.canonicalJSON) :
    config.desiredHostedClusterControlPlaneSize = config'.desiredHostedClusterControlPlaneSize ∧
      config.etcdKmsActiveKeyVersion = config'.etcdKmsActiveKeyVersion := by
  let fields (c : DispatchConfig) : List (Option Json) :=
    [some c.autoscaling.toJson, c.containerRegistryPullManagedIdentityResourceID.map .str,
      some (etcdJson c.etcdKmsActiveKeyVersion), some c.experimentalFeatures.toJson,
      listField ImageDigestMirror.toJson c.imageDigestMirrors,
      listField .str (c.k8sAPIServerAuthorizedCIDRs.getD []), numField c.nodeDrainTimeoutMinutes,
      some (members [("desiredHostedClusterControlPlaneSize",
        c.desiredHostedClusterControlPlaneSize.map .str)])]
  have hfields : fields config = fields config' :=
    members_inj ["autoscaling", "containerRegistryPullManagedIdentityResourceID", "etcd",
      "experimentalFeatures", "imageDigestMirrors", "k8sAPIServerAuthorizedCIDRs",
      "nodeDrainTimeoutMinutes", "serviceProviderClusterDispatch"] (by decide) rfl rfl h
  simp only [fields, List.cons.injEq, Option.some.injEq] at hfields
  obtain ⟨-, -, hetcd, -, -, -, -, hsize, -⟩ := hfields
  refine ⟨Option.map_injective ?_ (members_singleton_inj hsize), etcdJson_inj hetcd⟩
  exact fun _ _ => Json.str.inj

/-! ## After the patch -/

def updateOf (text : GoTime.Texts) (cluster : ClusterProperties) (requiredProperties : Properties)
    (existing : CSCluster) (serviceProviderCluster : Option ServiceProviderCluster) : CSCluster where
  nodeDrainGracePeriod :=
    some ⟨some csNodeDrainGracePeriodUnit, some (cluster.nodeDrainTimeoutMinutes.toInt : Rat)⟩
  cidrAllowMode :=
    some (if cluster.authorizedCIDRs = none then csCIDRBlockAllowAccessModeAllowAll
      else csCIDRBlockAllowAccessModeAllowList)
  cidrAllowValues := cluster.authorizedCIDRs
  imageDigestMirrors :=
    some (cluster.imageDigestMirrors.map fun mirror => ⟨some mirror.source, some mirror.mirrors⟩)
  etcd := { kmsActiveKeyVersion := etcdFromRP cluster.etcd }
  properties := some ((configFromRP cluster serviceProviderCluster).properties fun key =>
    (requiredProperties key).or (existing.property key))
  containerRegistry :=
    if cluster.pullManagedIdentity = none ∧ existing.containerRegistry ≠ none then some ⟨some ""⟩
    else cluster.pullManagedIdentity.map fun resourceID => ⟨some resourceID⟩
  autoscaler :=
    some ⟨some (text.sprintFloat
        (GoTime.minutes (cluster.provisionSeconds * 10 ^ 9)) ++ "m"),
      some cluster.autoscaling.maxPodGracePeriodSeconds.toInt64,
      some cluster.autoscaling.podPriorityThreshold.toInt64,
      some cluster.autoscaling.maxNodesTotal.toInt64⟩

/-- Cluster Service encrypts etcd with customer-managed keys exactly if the cluster wants it. -/
def EtcdModesAgree (cluster : ClusterProperties) (existing : CSCluster) : Prop :=
  (etcdFromCS existing.etcd).isSome = (etcdFromRP cluster.etcd).isSome

section Patch

variable {text : GoTime.Texts} {cluster : ClusterProperties} {requiredProperties : Properties}
  {existing cs : CSCluster} {serviceProviderCluster : Option ServiceProviderCluster}

theorem buildCSCluster_eq (hvalid : Validated cluster) :
    buildCSCluster text cluster requiredProperties existing serviceProviderCluster =
      .ok (updateOf text cluster requiredProperties existing serviceProviderCluster) := by
  have hcidrs : convertCIDRBlockAllowAccessRPToCS cluster.authorizedCIDRs =
      .ok (some (if cluster.authorizedCIDRs = none then csCIDRBlockAllowAccessModeAllowAll
        else csCIDRBlockAllowAccessModeAllowList), cluster.authorizedCIDRs) := by
    have hne := hvalid.authorizedCIDRs
    cases h : cluster.authorizedCIDRs with
    | none => rfl
    | some cidrs =>
      have hcidrs : cidrs ≠ [] := fun hnil => hne (by rw [h, hnil])
      rw [convertCIDRBlockAllowAccessRPToCS, if_neg hcidrs, if_neg (Option.some_ne_none cidrs)]
  have hduration : text.parseDuration (GoInt.formatInt cluster.provisionSeconds ++ "s") =
      .ok (cluster.provisionSeconds * 10 ^ 9) := by
    have hpos := hvalid.maxNodeProvisionTime
    have hlt : cluster.provisionSeconds < 2 ^ 31 := Int32.toInt_lt _
    generalize cluster.provisionSeconds = seconds at hpos hlt ⊢
    obtain ⟨n, rfl⟩ := Int.eq_ofNat_of_zero_le (by omega : 0 ≤ seconds)
    exact text.parseDuration_seconds n (by omega)
  unfold buildCSCluster updateOf
  dsimp only [configFromRP]
  unfold DispatchConfig.applyToCSBuilders convertRpAutoscalarToCSBuilder
  by_cases hclear : cluster.pullManagedIdentity = none ∧ existing.containerRegistry ≠ none
  · rw [if_pos hclear, if_pos hclear]
    rw [hcidrs, ← ClusterProperties.provisionSeconds, hduration]
    rfl
  · rw [if_neg hclear, if_neg hclear]
    rw [hcidrs, ← ClusterProperties.provisionSeconds, hduration]
    rfl

section Updated

variable (hcs : cs = existing.patch
  (updateOf text cluster requiredProperties existing serviceProviderCluster))

include hcs

theorem nodeDrainTimeoutFromCS_updated :
    nodeDrainTimeoutFromCS cs = cluster.nodeDrainTimeoutMinutes := by
  subst hcs
  exact int32OfFloat_toInt _

theorem authorizedCIDRsFromCS_updated : authorizedCIDRsFromCS cs = cluster.authorizedCIDRs := by
  subst hcs
  unfold authorizedCIDRsFromCS CSCluster.patch updateOf
  cases cluster.authorizedCIDRs with
  | none => rfl
  | some cidrs => rfl

theorem imageDigestMirrorsFromCS_updated :
    imageDigestMirrorsFromCS cs = cluster.imageDigestMirrors := by
  subst hcs
  change (cluster.imageDigestMirrors.map _).filterMap _ = _
  rw [List.filterMap_map]
  exact List.filterMap_some

theorem containerRegistryPullMIFromCS_updated (hvalid : Validated cluster) :
    containerRegistryPullMIFromCS cs = cluster.pullManagedIdentity := by
  have hne := hvalid.pullManagedIdentity
  subst hcs
  unfold containerRegistryPullMIFromCS CSCluster.patch updateOf
  cases hidentity : cluster.pullManagedIdentity with
  | none =>
    cases existing.containerRegistry with
    | none => simp
    | some registry => simp [CSContainerRegistry.patch]
  | some resourceID =>
    have hresourceID : resourceID ≠ "" := fun hempty => hne (by rw [hidentity, hempty])
    simp [CSContainerRegistry.patch, hresourceID]

/-- The key is taken over where Cluster Service has one; whether it has one does not change. -/
theorem etcdFromCS_updated_iff :
    etcdFromCS cs.etcd = etcdFromRP cluster.etcd ↔ EtcdModesAgree cluster existing := by
  have hetcd : etcdFromCS cs.etcd =
      (etcdFromCS existing.etcd).map fun version => (etcdFromRP cluster.etcd).getD version := by
    subst hcs
    change etcdFromCS { existing.etcd with
      kmsActiveKeyVersion := (etcdFromRP cluster.etcd).or existing.etcd.kmsActiveKeyVersion } = _
    unfold etcdFromCS
    split_ifs
    · rfl
    · rfl
    · cases etcdFromRP cluster.etcd <;> rfl
  rw [hetcd, EtcdModesAgree]
  cases etcdFromCS existing.etcd <;> cases etcdFromRP cluster.etcd <;> simp

theorem property_updated (key : String) :
    cs.property key = (configFromRP cluster serviceProviderCluster).properties
      (fun key => (requiredProperties key).or (existing.property key)) key := by
  subst hcs
  rfl

theorem property_sizeOverride :
    cs.property csPropertySizeOverride = convertHostedClusterSizeOverrideToCS
      cluster.experimentalFeatures.controlPlanePodSizing
      (serviceProviderCluster.bind ServiceProviderCluster.desiredHostedClusterControlPlaneSize) := by
  rw [property_updated hcs]
  rfl

theorem experimentalFeaturesFromCS_updated (hsize : serviceProviderCluster.bind
      ServiceProviderCluster.desiredHostedClusterControlPlaneSize = none) :
    experimentalFeaturesFromCS cs = cluster.experimentalFeatures := by
  have hreplica : cs.property csPropertySingleReplica =
      if cluster.experimentalFeatures.controlPlaneAvailability = .singleReplica then
        some csPropertyEnabled
      else none := by
    rw [property_updated hcs]
    rfl
  have himage : (cs.property csPropertyCPOImageOverride).getD "" =
      cluster.experimentalFeatures.controlPlaneOperatorImage := by
    rw [property_updated hcs]
    unfold DispatchConfig.properties Properties.overlay
    dsimp only [configFromRP]
    by_cases hempty : cluster.experimentalFeatures.controlPlaneOperatorImage = "" <;> simp [hempty]
  unfold experimentalFeaturesFromCS
  rw [himage, hreplica, property_sizeOverride hcs, hsize]
  obtain ⟨availability, sizing, image⟩ := cluster.experimentalFeatures
  cases availability <;> cases sizing <;> rfl

/-- The size is read back in lower case, and so is no size that is valid. -/
theorem desiredSizeFromCS_updated_iff
    (hstored : ∀ spc ∈ serviceProviderCluster, ServiceProviderCluster.Stored spc) :
    desiredHostedClusterControlPlaneSizeFromCS cs = serviceProviderCluster.bind
        ServiceProviderCluster.desiredHostedClusterControlPlaneSize ↔
      serviceProviderCluster.bind ServiceProviderCluster.desiredHostedClusterControlPlaneSize =
        none := by
  unfold desiredHostedClusterControlPlaneSizeFromCS
  rw [property_sizeOverride hcs]
  cases hsize : serviceProviderCluster.bind
      ServiceProviderCluster.desiredHostedClusterControlPlaneSize with
  | none => cases cluster.experimentalFeatures.controlPlanePodSizing <;> decide
  | some size =>
    have hlower : toLower size ≠ size := by
      obtain ⟨spc, hspc, hdesired⟩ := Option.bind_eq_some_iff.mp hsize
      have hsizes : ∀ size ∈ ["Small", "Medium", "Large", "Xlarge", "XXlarge"],
          toLower size ≠ size := by decide
      exact hsizes size (of_decide_eq_true (hstored spc hspc size hdesired))
    refine iff_of_false ?_ (Option.some_ne_none size)
    dsimp only [convertHostedClusterSizeOverrideToCS]
    split_ifs
    · exact not_false
    · exact not_false
    · exact fun heq => hlower (Option.some.inj heq)

theorem autoscalingFromCS_updated :
    autoscalingFromCS text cs.autoscaler =
      (text.parseDuration (text.sprintFloat
        (GoTime.minutes (cluster.provisionSeconds * 10 ^ 9)) ++ "m")).map fun duration =>
        { cluster.autoscaling with
          maxNodeProvisionTimeSeconds := int32OfFloat (GoTime.seconds duration) } := by
  have hautoscaler : cs.autoscaler =
      (updateOf text cluster requiredProperties existing serviceProviderCluster).autoscaler := by
    subst hcs
    unfold CSCluster.patch updateOf
    cases existing.autoscaler <;> rfl
  rw [hautoscaler]
  dsimp only [updateOf, autoscalingFromCS]
  generalize text.sprintFloat _ = minutes
  have hne : minutes ++ "m" ≠ "" := by
    intro hempty
    have hlist := congrArg String.toList hempty
    exact absurd hlist (by simp)
  rw [Option.getD_some, if_neg hne]
  cases text.parseDuration (minutes ++ "m") with
  | error err => rfl
  | ok duration => simp [bind, Except.bind, pure, Except.pure, Except.map]

/-- The minutes are read back if there are less than a million: from there on their text has an
exponent, and is no duration. -/
theorem autoscalingFromCS_updated_iff (hvalid : Validated cluster)
    (hminutes : 60 ∣ cluster.provisionSeconds) {autoscaling : Autoscaling} :
    autoscalingFromCS text cs.autoscaler = .ok autoscaling ↔
      cluster.provisionSeconds < 60000000 ∧ cluster.autoscaling = autoscaling := by
  obtain ⟨n, hn, hseconds⟩ : ∃ n : Nat, n < 2 ^ 31 ∧ cluster.provisionSeconds = (n * 60 : Nat) := by
    have hpos := hvalid.maxNodeProvisionTime
    have hlt : cluster.provisionSeconds < 2 ^ 31 := Int32.toInt_lt _
    obtain ⟨m, hm⟩ := hminutes
    exact ⟨m.toNat, by omega, by omega⟩
  rw [autoscalingFromCS_updated hcs, hseconds, GoTime.minutes_mul]
  by_cases hsmall : n < 10 ^ 6
  · have hback : int32OfFloat (GoTime.seconds ((n : Int) * 60 * 10 ^ 9)) =
        cluster.autoscaling.maxNodeProvisionTimeSeconds := by
      have hcast : (n : Int) * 60 = cluster.autoscaling.maxNodeProvisionTimeSeconds.toInt := by
        rw [← ClusterProperties.provisionSeconds, hseconds, Nat.cast_mul]
        rfl
      rw [GoTime.seconds_mul, hcast]
      exact int32OfFloat_toInt _
    have hlt : ((n * 60 : Nat) : Int) < 60000000 := by omega
    rw [text.sprintFloat_small n hsmall, text.parseDuration_minutes n hsmall, Except.map, hback,
      Except.ok.injEq, and_iff_right hlt]
  · have hexponent : 'e' ∈ (text.sprintFloat n ++ "m").toList := by
      rw [String.toList_append]
      exact List.mem_append_left _ (text.sprintFloat_large n (by omega) hn)
    obtain ⟨err, herr⟩ := text.parseDuration_exponent _ hexponent
    have hge : ¬((n * 60 : Nat) : Int) < 60000000 := by omega
    rw [herr]
    exact iff_of_false nofun fun h => hge h.1

/-- What Cluster Service has is what is desired exactly if no size is stored, the modes of the
encryption of etcd agree, and the provision time is less than a million minutes. -/
theorem configJSONFromCS_updated_iff (hvalid : Validated cluster)
    (hminutes : 60 ∣ cluster.provisionSeconds)
    (hstored : ∀ spc ∈ serviceProviderCluster, ServiceProviderCluster.Stored spc) :
    configJSONFromCS text cs = .ok (configJSONFromRP cluster serviceProviderCluster) ↔
      (∀ spc ∈ serviceProviderCluster, spc.desiredHostedClusterControlPlaneSize = none) ∧
        EtcdModesAgree cluster existing ∧ cluster.provisionSeconds < 60000000 := by
  have hnone : (∀ spc ∈ serviceProviderCluster, spc.desiredHostedClusterControlPlaneSize = none) ↔
      serviceProviderCluster.bind ServiceProviderCluster.desiredHostedClusterControlPlaneSize =
        none := by
    cases serviceProviderCluster <;> simp
  rw [hnone, ← etcdFromCS_updated_iff hcs, configJSONFromCS, configFromCS]
  cases hautoscaling : autoscalingFromCS text cs.autoscaler with
  | error err =>
    refine iff_of_false nofun ?_
    rintro ⟨-, -, hlt⟩
    rw [(autoscalingFromCS_updated_iff hcs hvalid hminutes).mpr ⟨hlt, rfl⟩] at hautoscaling
    cases hautoscaling
  | ok autoscaling =>
    obtain ⟨hlt, rfl⟩ := (autoscalingFromCS_updated_iff hcs hvalid hminutes).mp hautoscaling
    constructor
    · intro hjson
      obtain ⟨hsize, hetcd⟩ := of_canonicalJSON_eq (Except.ok.inj hjson)
      exact ⟨(desiredSizeFromCS_updated_iff hcs hstored).mp hsize, hetcd, hlt⟩
    · rintro ⟨hsize, hetcd, -⟩
      rw [nodeDrainTimeoutFromCS_updated hcs, authorizedCIDRsFromCS_updated hcs,
        imageDigestMirrorsFromCS_updated hcs, hetcd, containerRegistryPullMIFromCS_updated hcs hvalid,
        experimentalFeaturesFromCS_updated hcs hsize,
        (desiredSizeFromCS_updated_iff hcs hstored).mpr hsize]
      rfl

end Updated

end Patch

/-- The update gives what is desired exactly if no size is stored, the modes of the encryption of
etcd agree, and the provision time is less than a million minutes. -/
theorem cluster_patch_fixed_iff (text : GoTime.Texts) (cluster : ClusterProperties)
    (requiredProperties : Properties) (existing : CSCluster)
    (serviceProviderCluster : Option ServiceProviderCluster) (hvalid : Validated cluster)
    (hminutes : 60 ∣ cluster.provisionSeconds)
    (hstored : ∀ spc ∈ serviceProviderCluster, ServiceProviderCluster.Stored spc) :
    (∃ update,
      buildCSCluster text cluster requiredProperties existing serviceProviderCluster = .ok update ∧
        configJSONFromCS text (existing.patch update) =
          .ok (configJSONFromRP cluster serviceProviderCluster)) ↔
      (∀ spc ∈ serviceProviderCluster, spc.desiredHostedClusterControlPlaneSize = none) ∧
        EtcdModesAgree cluster existing ∧ cluster.provisionSeconds < 60000000 := by
  rw [buildCSCluster_eq hvalid, ← configJSONFromCS_updated_iff rfl hvalid hminutes hstored]
  constructor
  · rintro ⟨update, hupdate, hjson⟩
    cases hupdate
    exact hjson
  · intro hjson
    exact ⟨_, rfl, hjson⟩

/-- A cluster with customer-managed keys, a list of CIDRs and a single replica, that had another key
and no restriction. -/
theorem cluster_patch_fixed_customerManaged :
    let cluster : ClusterProperties :=
      { nodeDrainTimeoutMinutes := 15
        authorizedCIDRs := some ["10.0.0.0/16"]
        imageDigestMirrors := [⟨"quay.io/a", ["mirror.io/a"]⟩]
        autoscaling := ⟨100, 600, 900, -10⟩
        experimentalFeatures := { controlPlaneAvailability := .singleReplica }
        etcd := .customerManaged "v2"
        pullManagedIdentity := none }
    let existing : CSCluster :=
      { cidrAllowMode := some csCIDRBlockAllowAccessModeAllowAll
        etcd := ⟨some "customer_managed", some "kms", some "v1"⟩
        containerRegistry := some ⟨some "identity"⟩ }
    ∃ update, buildCSCluster .whole cluster (fun _ => none) existing (some ⟨none⟩) = .ok update ∧
      configJSONFromCS .whole (existing.patch update) =
        .ok (configJSONFromRP cluster (some ⟨none⟩)) := by
  intro cluster existing
  apply (cluster_patch_fixed_iff .whole cluster (fun _ => none) existing (some ⟨none⟩)
    ⟨by decide, by decide, by decide⟩ (by decide) ?_).mpr
  · refine ⟨?_, rfl, by decide⟩
    rintro spc ⟨rfl⟩
    rfl
  · rintro spc ⟨rfl⟩
    exact nofun

/-- The controller finds nothing to send: nothing differs, or Cluster Service's cluster has no form
in which it could be compared. -/
def sendsNothing (text : GoTime.Texts) (cluster : ClusterProperties)
    (serviceProviderCluster : Option ServiceProviderCluster) (cs : CSCluster) : Bool :=
  match configJSONFromCS text cs with
  | .error _ => true
  | .ok actual => configJSONFromRP cluster serviceProviderCluster = actual

/-- What Cluster Service has after a pass of `SyncOnce` that sends the update. -/
def dispatch (text : GoTime.Texts) (cluster : ClusterProperties)
    (serviceProviderCluster : Option ServiceProviderCluster) (cs : CSCluster) : CSCluster :=
  match buildCSCluster text cluster (fun _ => none) cs serviceProviderCluster with
  | .error _ => cs
  | .ok update => cs.patch update

/-- The patches that `SyncOnce` sends in a number of passes, if all are accepted. -/
def patchesSent (text : GoTime.Texts) (cluster : ClusterProperties)
    (serviceProviderCluster : Option ServiceProviderCluster) (passes : Nat) (existing : CSCluster) :
    Nat :=
  Reconcile.patches (sendsNothing text cluster serviceProviderCluster)
    (dispatch text cluster serviceProviderCluster) passes existing

theorem patchesSent_le_one {text : GoTime.Texts} {cluster : ClusterProperties}
    {serviceProviderCluster : Option ServiceProviderCluster} {existing : CSCluster}
    (hvalid : Validated cluster) (hminutes : 60 ∣ cluster.provisionSeconds)
    (hsize : ∀ spc ∈ serviceProviderCluster, spc.desiredHostedClusterControlPlaneSize = none)
    (hetcd : EtcdModesAgree cluster existing) (hlt : cluster.provisionSeconds < 60000000)
    (passes : Nat) : patchesSent text cluster serviceProviderCluster passes existing ≤ 1 := by
  apply Reconcile.patches_le_one
  have hstored : ∀ spc ∈ serviceProviderCluster, ServiceProviderCluster.Stored spc := by
    intro spc hspc size hmem
    rw [hsize spc hspc] at hmem
    cases hmem
  rw [dispatch, buildCSCluster_eq hvalid, sendsNothing,
    (configJSONFromCS_updated_iff rfl hvalid hminutes hstored).mpr ⟨hsize, hetcd, hlt⟩]
  exact decide_eq_true rfl

theorem patchesSent_le_one_platformManaged :
    patchesSent .whole ⟨5, none, [], ⟨0, 600, 900, -10⟩, {}, .platformManaged, none⟩ none 9 {} ≤ 1 :=
  patchesSent_le_one ⟨by decide, by decide, by decide⟩ (by decide) (by nofun) (by rfl)
    (by decide) 9

/-- A size that the admin API stores is sent for in every pass; so is the update of a cluster with a
provision time of a million minutes, until what Cluster Service has cannot be read. -/
theorem cluster_patch_lowers_size :
    let cluster : ClusterProperties :=
      { nodeDrainTimeoutMinutes := 0
        authorizedCIDRs := none
        imageDigestMirrors := []
        autoscaling := ⟨0, 600, 900, -10⟩
        experimentalFeatures := {}
        etcd := .platformManaged
        pullManagedIdentity := none }
    let slow := { cluster with autoscaling := ⟨0, 600, 60000000, -10⟩ }
    let sized : Option ServiceProviderCluster := some ⟨some "Small"⟩
    let existing : CSCluster := {}
    isValidHostedClusterControlPlaneSize "Small" = true ∧
      (dispatch .whole cluster sized existing).property csPropertySizeOverride = some "small" ∧
      configJSONFromCS .whole (dispatch .whole cluster sized existing) ≠
        .ok (configJSONFromRP cluster sized) ∧
      patchesSent .whole cluster sized 3 existing = 3 ∧
      (configJSONFromCS .whole (dispatch .whole slow none existing)).toOption = none := by
  decide +kernel

end AroHcp.Dispatch.Cluster
