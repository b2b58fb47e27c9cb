import Federation.Cluster
import Federation.Fault
import Federation.Hashing.Slot
import Federation.Placement.Lookup

/-!
Which cluster holds which data.

* `HashedClusters`: the lookup is hashed to a position among the clusters in the order of their
  names.
* `CustomClusters`: a strategy names the cluster. A name that is not set up, and no name at all, is
  an invalid partition.
* `ClusterPlacement`: one of the two. Setting clusters up replaces those set up before.
-/

namespace Federation

/-- Clusters among which lookups are spread by hashing. -/
structure HashedClusters where
  hash : HashFunction
  clusters : List Cluster

/-- The cluster at the position of the lookup, if there are clusters. -/
def HashedClusters.clusterFor (p : HashedClusters) (l : Lookup) : Option Cluster :=
  if p.clusters.isEmpty then none else p.clusters[p.hash.slot l.text p.clusters.length]?

/-- Answers a lookup with the name of the cluster that holds it. -/
abbrev ClusterStrategy := Lookup → Option String

/-- Clusters that a strategy names. It may name no others. -/
structure CustomClusters where
  strategy : ClusterStrategy
  clusters : ClusterSet

/-- The cluster that the strategy names. -/
def CustomClusters.clusterFor (p : CustomClusters) (l : Lookup) : Except Fault Cluster :=
  match (p.strategy l).bind p.clusters.find? with
  | some c => .ok c
  | none => .error (.invalidPartition l.bucket (p.strategy l))

/-- How data is placed on clusters. -/
inductive ClusterPlacement where
  | hashed (p : HashedClusters)
  | custom (p : CustomClusters)

namespace ClusterPlacement

/-- Placement by hashing, without clusters yet. -/
def ofHash (hash : HashFunction) : ClusterPlacement := hashed ⟨hash, []⟩

/-- Placement by a strategy, without clusters yet. -/
def ofStrategy (strategy : ClusterStrategy) : ClusterPlacement := custom ⟨strategy, ∅⟩

/-- Places data on the given clusters from now on. -/
def setUp (clusters : ClusterSet) : ClusterPlacement → ClusterPlacement
  | hashed p => hashed { p with clusters := clusters.toList }
  | custom p => custom { p with clusters := clusters }

/-- The cluster that holds the lookup. -/
def clusterFor (l : Lookup) : ClusterPlacement → Except Fault (Option Cluster)
  | hashed p => .ok (p.clusterFor l)
  | custom p => (p.clusterFor l).map some

end ClusterPlacement

end Federation
