import Federation.Cluster
import Federation.Codec.Basic
import Federation.Membership.View

/-!
Clusters, addresses, members and views as JSON.

A member has the fields of its address beside its name. The members of a view are written in their
order, and read in any order and any number of times.
-/

namespace Federation

instance : Codec Cluster where
  encode c := .obj [("name", encode c.name), ("local", encode c.isLocal)]
  decode? j := do
    return ⟨← Codec.required j "name", ← Codec.required j "local"⟩

instance : Codec Address where
  encode a := .obj [("host", encode a.host), ("port", encode a.port)]
  decode? j := do
    return ⟨← Codec.required j "host", ← Codec.required j "port"⟩

instance : Codec Member where
  encode m :=
    .obj [("name", encode m.name), ("host", encode m.address.host), ("port", encode m.address.port)]
  decode? j := do
    return ⟨← Codec.required j "name", ⟨← Codec.required j "host", ← Codec.required j "port"⟩⟩

instance : Codec View where
  encode v := .obj [("cluster", encode v.cluster), ("members", encode v.members.toList)]
  decode? j := do
    return .ofList (← Codec.required j "cluster") (← Codec.required j "members")

end Federation
