import KubeAtlas.Graph.Model

/-!
# `KubeAtlas.Extractor.Identity`: platform identities of service accounts

`pkg/extractor/eks_identity.go`, `aks_identity.go` and
`gke_identity.go`. Cloud platforms bind a ServiceAccount to an
identity of their own through an annotation or a label. The target
of the edge is an identifier in the form of `Resource.ID`, whose
last segment is whatever the annotation says.
-/

set_option autoImplicit false

namespace KubeAtlas.Extractor

open KubeAtlas.Graph Lib

def externalIdentityNamespace : String := "_external"

def irsaAnnotation : String := "eks.amazonaws.com/role-arn"
def aksWorkloadIdentityLabel : String := "azure.workload.identity/client-id"
def gkeWorkloadIdentityAnnotation : String := "iam.gke.io/gcp-service-account"

def eksIRSARolePlatform : String := "IAMRole"
def aksManagedIdentityPlatform : String := "AADManagedIdentity"
def gkeServiceAccountPlatform : String := "GCPServiceAccount"

/-- `externalIdentityID`. -/
def externalIdentityID (clusterID platformKind externalRef : String) : String :=
  let base := externalIdentityNamespace ++ "/" ++ platformKind ++ "/" ++ externalRef
  if clusterID = "" then base else clusterID ++ ":" ++ base

/-- What the three extractors share. `key` is looked up in a map of
the resource's metadata, where a missing key reads as the empty
text. -/
def platformIdentity (platform : String) (metadata : StringMap) (key : String) (r : Resource) :
    List Edge :=
  if r.kind ≠ "ServiceAccount" then []
  else
    let ref := Strings.trimSpace ((metadata.lookup key).getD "")
    if ref = "" then []
    else [{ fromID := r.ID, toID := externalIdentityID r.clusterID platform ref
            type := .bindsPlatformIdentity }]

/-- `EKSIdentityExtractor.Extract`. -/
def eksIdentity (r : Resource) : List Edge :=
  platformIdentity eksIRSARolePlatform r.annotations irsaAnnotation r

/-- `AKSIdentityExtractor.Extract`. -/
def aksIdentity (r : Resource) : List Edge :=
  platformIdentity aksManagedIdentityPlatform r.labels aksWorkloadIdentityLabel r

/-- `GKEIdentityExtractor.Extract`. -/
def gkeIdentity (r : Resource) : List Edge :=
  platformIdentity gkeServiceAccountPlatform r.annotations gkeWorkloadIdentityAnnotation r

end KubeAtlas.Extractor
