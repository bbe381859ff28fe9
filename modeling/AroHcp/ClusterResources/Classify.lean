import AroHcp.Desires.Documents
import AroHcp.Lib.Unstructured

/-! The resources that Cluster Service reports for a cluster: which desire each of them stands for,
and what is set on a HostedCluster before it is applied. -/

namespace AroHcp.ClusterResources

open Desires GoFmt GoStrings Unstructured

/-- The desire names, which are closed under `classifyClusterResource`. -/
inductive DesireName where
  | hostedCluster
  | nodePool
  | managedCluster
  | hostedClusterNamespace
  | controlPlaneNamespace
  | defaultIngressConfigMap
  | externalAuthCAConfigMap
  | ocpPullSecret
  | externalAuthClientSecret
  | podNetwork
  | podNetworkInstance
  | boundServiceAccountSigningKeySecretSync
  | defaultIngressWildcardCertSecretSync
  | kubeAPIServerServingCertSecretSync
  | boundServiceAccountSigningKeySecretProviderClass
  | defaultIngressWildcardCertSecretProviderClass
  | kubeAPIServerServingCertSecretProviderClass
deriving DecidableEq, Repr

def DesireName.text : DesireName → String
  | hostedCluster => "HostedCluster"
  | nodePool => "NodePool"
  | managedCluster => "ManagedCluster"
  | hostedClusterNamespace => "HostedClusterNamespace"
  | controlPlaneNamespace => "ControlPlaneNamespace"
  | defaultIngressConfigMap => "DefaultIngressConfigMap"
  | externalAuthCAConfigMap => "ExternalAuthCAConfigMap"
  | ocpPullSecret => "OCPPullSecret"
  | externalAuthClientSecret => "ExternalAuthClientSecret"
  | podNetwork => "PodNetwork"
  | podNetworkInstance => "PodNetworkInstance"
  | boundServiceAccountSigningKeySecretSync => "BoundServiceAccountSigningKeySecretSync"
  | defaultIngressWildcardCertSecretSync => "DefaultIngressWildcardCertSecretSync"
  | kubeAPIServerServingCertSecretSync => "KubeAPIServerServingCertSecretSync"
  | boundServiceAccountSigningKeySecretProviderClass =>
    "BoundServiceAccountSigningKeySecretProviderClass"
  | defaultIngressWildcardCertSecretProviderClass => "DefaultIngressWildcardCertSecretProviderClass"
  | kubeAPIServerServingCertSecretProviderClass => "KubeAPIServerServingCertSecretProviderClass"

def hasName (names : List DesireName) (name : String) : Bool :=
  names.any fun n => toLower n.text = toLower name

def managedByKubeAPIServerServingCertificate (name : String) : Bool :=
  hasName [.kubeAPIServerServingCertSecretSync, .kubeAPIServerServingCertSecretProviderClass] name

def legacyACMBasedIngressCertificateWiringDesireName (name : String) : Bool :=
  hasName [.managedCluster, .defaultIngressConfigMap, .defaultIngressWildcardCertSecretSync,
    .defaultIngressWildcardCertSecretProviderClass] name

def shouldCreateReadDesireFor (name : String) : Bool :=
  hasName [.podNetworkInstance, .podNetwork, .hostedClusterNamespace, .controlPlaneNamespace,
    .managedCluster] name

/-! ## Kinds and resources -/

structure GroupVersionKind where
  group : String
  version : String
  kind : String
deriving DecidableEq, Repr

structure GroupVersionResource where
  group : String
  version : String
  resource : String
deriving DecidableEq, Repr

def groupVersionKind (obj : Json) : GroupVersionKind :=
  let apiVersion := stringOrEmpty obj ["apiVersion"]
  match split apiVersion '/' with
  | [version] => ⟨"", version, getKind obj⟩
  | [group, version] => ⟨group, version, getKind obj⟩
  | _ => ⟨"", "", ""⟩

def additionalRESTMappings : List (GroupVersionKind × String) :=
  [(⟨"", "v1", "Namespace"⟩, "namespaces"),
    (⟨"", "v1", "Service"⟩, "services"),
    (⟨"", "v1", "PersistentVolumeClaim"⟩, "persistentvolumeclaims"),
    (⟨"", "v1", "PersistentVolume"⟩, "persistentvolumes"),
    (⟨"", "v1", "Endpoints"⟩, "endpoints"),
    (⟨"", "v1", "ResourceQuota"⟩, "resourcequotas"),
    (⟨"", "v1", "LimitRange"⟩, "limitranges"),
    (⟨"networking.k8s.io", "v1", "Ingress"⟩, "ingresses"),
    (⟨"networking.k8s.io", "v1", "NetworkPolicy"⟩, "networkpolicies"),
    (⟨"policy", "v1", "PodDisruptionBudget"⟩, "poddisruptionbudgets"),
    (⟨"batch", "v1", "CronJob"⟩, "cronjobs"),
    (⟨"autoscaling", "v2", "HorizontalPodAutoscaler"⟩, "horizontalpodautoscalers"),
    (⟨"hypershift.openshift.io", "v1beta1", "HostedCluster"⟩, "hostedclusters"),
    (⟨"hypershift.openshift.io", "v1beta1", "NodePool"⟩, "nodepools"),
    (⟨"multitenancy.acn.azure.com", "v1alpha1", "PodNetwork"⟩, "podnetworks"),
    (⟨"multitenancy.acn.azure.com", "v1alpha1", "PodNetworkInstance"⟩, "podnetworkinstances"),
    (⟨"secrets-store.csi.x-k8s.io", "v1", "SecretProviderClass"⟩, "secretproviderclasses"),
    (⟨"secret-sync.x-k8s.io", "v1alpha1", "SecretSync"⟩, "secretsyncs"),
    (⟨"cluster.open-cluster-management.io", "v1", "ManagedCluster"⟩, "managedclusters")]

/-- Functions of the libraries that the controller calls: the JSON codec, the mapping of library-go
behind the additional one, and the parsing of the resource IDs of scopes and desires. -/
structure Libraries where
  unmarshal : String → Except String Json
  marshal : Json → Except String String
  hardcodedMapping : GroupVersionKind → Option GroupVersionResource
  parseScope : DesireScope → Except String Unit
  parseApplyDesireID : DesireKey → Except String Unit
  parseReadDesireID : DesireKey → Except String Unit

def resourceFor (lib : Libraries) (gvk : GroupVersionKind) : Except String GroupVersionResource :=
  match additionalRESTMappings.lookup gvk with
  | some resource => .ok ⟨gvk.group, gvk.version, resource⟩
  | none =>
    match lib.hardcodedMapping gvk with
    | some gvr => .ok gvr
    | none => .error ("no hardcoded REST mapping for " ++ gvk.kind ++
      if gvk.group = "" then "" else "." ++ gvk.group)

/-! ## Classification -/

structure ClassifiedResource where
  desireName : DesireName
  nodePoolName : String := ""
deriving DecidableEq, Repr

/-- The ones of three kinds of certificate that a SecretSync or a SecretProviderClass is for. -/
def classifyCertificate (name : String) (signingKey ingress apiServer : DesireName) :
    Option DesireName :=
  if contains name "signing-key" then some signingKey
  else if contains name "default-ingress" then some ingress
  else if contains name "kube-apiserver" then some apiServer
  else none

def unrecognized (obj : Json) : String :=
  let gvk := groupVersionKind obj
  "unrecognized cluster resource: group=" ++ quote gvk.group ++ " version=" ++ quote gvk.version ++
    " kind=" ++ quote gvk.kind ++ " namespace=" ++ quote (getNamespace obj) ++ " name=" ++
    quote (getName obj)

def classifyClusterResource (obj : Json) : Except String ClassifiedResource :=
  let name := getName obj
  let externalAuth := getLabel obj "api.openshift.com/type" = "ext-auth"
  let certificate (found : Option DesireName) : Except String ClassifiedResource :=
    match found with
    | some n => .ok ⟨n, ""⟩
    | none => .error (unrecognized obj)
  match (groupVersionKind obj).kind with
  | "HostedCluster" => .ok ⟨.hostedCluster, ""⟩
  | "NodePool" =>
    .ok ⟨.nodePool, trimStart name (stringOrEmpty obj ["spec", "clusterName"] ++ "-")⟩
  | "Namespace" =>
    if hasLabel obj "hypershift.openshift.io/cluster" then .ok ⟨.controlPlaneNamespace, ""⟩
    else .ok ⟨.hostedClusterNamespace, ""⟩
  | "ManagedCluster" => .ok ⟨.managedCluster, ""⟩
  | "ConfigMap" =>
    if externalAuth then .ok ⟨.externalAuthCAConfigMap, ""⟩ else .ok ⟨.defaultIngressConfigMap, ""⟩
  | "Secret" =>
    if externalAuth then .ok ⟨.externalAuthClientSecret, ""⟩ else .ok ⟨.ocpPullSecret, ""⟩
  | "PodNetwork" => .ok ⟨.podNetwork, ""⟩
  | "PodNetworkInstance" => .ok ⟨.podNetworkInstance, ""⟩
  | "SecretSync" =>
    certificate (classifyCertificate name .boundServiceAccountSigningKeySecretSync
      .defaultIngressWildcardCertSecretSync .kubeAPIServerServingCertSecretSync)
  | "SecretProviderClass" =>
    certificate (classifyCertificate name .boundServiceAccountSigningKeySecretProviderClass
      .defaultIngressWildcardCertSecretProviderClass .kubeAPIServerServingCertSecretProviderClass)
  | _ => .error (unrecognized obj)

/-! ## What is set on a HostedCluster -/

def ensureHostedClusterAnnotations (obj : Json) : Json :=
  let name := "hypershift.openshift.io/machine-health-check-node-startup-timeout"
  let kept := (getAnnotations obj).filter (·.1 ≠ name)
  setAnnotations obj (kept.filter (·.1 < name) ++ (name, "10m") :: kept.filter (name < ·.1))

/-- The loop of `removeNullUsernamePrefixes`: the providers without null prefixes, and whether one
was dropped. The texts of the accessors' errors are shortened. -/
def dropNullPrefixes : List Json → Except String (List Json × Bool)
  | [] => .ok ([], false)
  | provider :: rest =>
    match provider with
    | .obj members =>
      match nestedMap provider ["claimMappings", "username"] with
      | .malformed => .error "claimMappings.username is not a map"
      | .missing => (dropNullPrefixes rest).map fun (found, changed) => (provider :: found, changed)
      | .found username =>
        if username.lookup "prefix" = some .null then
          match setNestedField (.obj members) (.obj (removeMember "prefix" username))
              ["claimMappings", "username"] with
          | .error err => .error err
          | .ok provider' => (dropNullPrefixes rest).map fun (found, _) => (provider' :: found, true)
        else (dropNullPrefixes rest).map fun (found, changed) => (provider :: found, changed)
    | _ => .error "OIDC provider is not an object"

def removeNullUsernamePrefixes (obj : Json) : Except String Json :=
  let path := ["spec", "configuration", "authentication", "oidcProviders"]
  match nestedSlice obj path with
  | .malformed => .error "oidcProviders is not a slice"
  | .missing => .ok obj
  | .found providers =>
    match dropNullPrefixes providers with
    | .error err => .error err
    | .ok (_, false) => .ok obj
    | .ok (providers, true) => setNestedField obj (.arr providers) path

def ensureHostedClusterAutoscaling (obj : Json) : Except String Json :=
  match setNestedField obj (.num 200) ["spec", "autoscaling", "kubeClientQPS"] with
  | .error err => .error ("setting spec.autoscaling.kubeClientQPS: " ++ err)
  | .ok obj =>
    match setNestedField obj (.num 300) ["spec", "autoscaling", "kubeClientBurst"] with
    | .error err => .error ("setting spec.autoscaling.kubeClientBurst: " ++ err)
    | .ok obj => .ok obj

def serviceProviderDefaultIngressWildcardServingCertName : String :=
  "service-provider-default-ingress-wildcard-serving-cert"

/-- What is set on a HostedCluster before its desire is built. -/
def configureHostedCluster (resourceKey : String) (obj : Json) : Except String Json :=
  match removeNullUsernamePrefixes (ensureHostedClusterAnnotations obj) with
  | .error err =>
    .error ("failed to normalize HostedCluster authentication for " ++ resourceKey ++ ": " ++ err)
  | .ok obj =>
    match setNestedField obj (.str serviceProviderDefaultIngressWildcardServingCertName)
        ["spec", "operatorConfiguration", "ingressOperator", "defaultCertificate", "name"] with
    | .error err => .error ("failed to set HostedCluster ingress certificate: " ++ err)
    | .ok obj =>
      match ensureHostedClusterAutoscaling obj with
      | .error err =>
        .error ("failed to set HostedCluster autoscaling for " ++ resourceKey ++ ": " ++ err)
      | .ok obj => .ok obj

end AroHcp.ClusterResources
