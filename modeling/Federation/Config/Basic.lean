import Federation.Cluster
import Federation.Pace.Estimate

/-!
The configuration of a process.

* `Mode`: rounds at a fixed interval, or at one that adapts to the changes.
* `Config`: the local cluster, the configured clusters, the seeds of the remote ones and how rounds
  are paced.
* `Config.single`: a process that knows only its own cluster.
* `Config.clusterSet`: the configured clusters, of which the one with the local name is local.
-/

namespace Federation

/-- How the rounds of discovery are paced. -/
inductive Mode where
  | fixed
  | adaptive (a : Adaptation)
deriving DecidableEq

/-- What a process is configured with. A seed is the text of the address at which a remote cluster
is first reached. -/
structure Config where
  localCluster : String
  intervalMs : UInt64
  clusters : List String
  seeds : Assoc String String
  mode : Mode
deriving DecidableEq

namespace Config

/-- Only the local cluster, and rounds every ten seconds. -/
def single (name : String) : Config := ⟨name, 10000, [name], ∅, .fixed⟩

/-- The configured interval. -/
def interval (c : Config) : Duration := .ofMillis c.intervalMs

/-- The cluster of this process. -/
def home (c : Config) : Cluster := .ofLocal c.localCluster

/-- The configured clusters. -/
def clusterSet (c : Config) : ClusterSet :=
  .ofList (c.clusters.map fun name => ⟨name, name == c.localCluster⟩)

end Config

end Federation
