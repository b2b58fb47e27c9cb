import Federation.Config.Violation
import Federation.Text.Quoted

/-!
What can go wrong.

* `Fault`: one constructor for each cause.
* `Fault.message`: the text of a fault. A refused configuration has no text of its own; its
  violations have.
* `Fault.isRecoverable`: whether a later attempt may succeed with nothing else changed. That is so
  of a missing route and of a communication that failed, and of no other fault.
-/

namespace Federation

/-- Why an operation was refused or failed. A node is a duplicate if its cluster has one of that
name, or at that address; a partition is invalid if the placement named no cluster, or one that is
not set up. -/
inductive Fault where
  | missingRoute
  | partitionsExhausted (limit : Nat)
  | duplicateNode (cluster node : String)
  | unknownNode (cluster node : String)
  | unknownCluster (cluster : String)
  | invalidPartition (bucket : String) (partition : Option String)
  | localJoin (cluster : String)
  | invalidSeed (seed : String)
  | communication (node reason : String)
  | processing (node reason : String)
  | configuration (violations : List Config.Violation)
  | shutDown
deriving DecidableEq

namespace Fault

/-- The text of a fault. -/
def message : Fault → Option String
  | missingRoute =>
    some "data currently unavailable: some clusters may be down or unreachable"
  | partitionsExhausted limit =>
    some ("partitions limit reached: a cluster holds at most " ++ toString limit ++ " nodes")
  | duplicateNode cluster node => some ("duplicate node " ++ node ++ " in cluster " ++ cluster)
  | unknownNode cluster node => some ("unknown node " ++ node ++ " in cluster " ++ cluster)
  | unknownCluster cluster => some ("unknown cluster " ++ cluster)
  | invalidPartition bucket partition =>
    some ("null or invalid partition for bucket " ++ bucket ++ ": " ++ Text.quoteOption partition)
  | localJoin cluster => some ("cluster " ++ cluster ++ " is local and cannot be joined")
  | invalidSeed seed => some ("invalid seed " ++ seed ++ ": expected host:port")
  | communication node reason =>
    some ("communication with node " ++ node ++ " failed: " ++ reason)
  | processing node reason =>
    some ("node " ++ node ++ " failed to process command: " ++ reason)
  | configuration _ => none
  | shutDown => some "ensemble discovery has been shut down"

/-- Whether trying again later may succeed. -/
def isRecoverable : Fault → Bool
  | missingRoute | communication _ _ => true
  | _ => false

end Fault

end Federation
