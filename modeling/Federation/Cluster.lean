import Federation.Collection.Keyed

/-!
Clusters.

* `Cluster`: a name, and whether it is the cluster of this process. The name alone tells clusters
  apart and orders them.
* `ClusterSet`: clusters by name, so that of two clusters with one name a set holds only one.
-/

namespace Federation

/-- A cluster of the federation. -/
structure Cluster where
  name : String
  isLocal : Bool
deriving DecidableEq

namespace Cluster

/-- The cluster of this process. -/
def ofLocal (name : String) : Cluster := ⟨name, true⟩

/-- A cluster that this process reaches over the network. -/
def ofRemote (name : String) : Cluster := ⟨name, false⟩

/-- A name stands for the remote cluster of that name. -/
instance : Coe String Cluster := ⟨ofRemote⟩

@[simp] theorem ofRemote_name (name : String) : (ofRemote name).name = name := rfl

end Cluster

/-- Clusters in the order of their names. -/
abbrev ClusterSet := Keyed Cluster.name

end Federation
