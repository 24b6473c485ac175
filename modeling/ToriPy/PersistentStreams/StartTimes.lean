import ToriPy.PersistentStreams.Progress

/-!
# Starting at an instant

A new group that starts at a timestamp, or at an age before the present, starts at the first record
ever accepted at or after that instant. `firstAt` looks at the retained records only; what makes it
right about all of them is that append times never decrease, so that `removedThrough` is the latest
time a trim removed.
-/

namespace ToriPy.PersistentStreams

/-- The instant a start position asks for, if it asks for one that the clock can give. -/
def StartPosition.target (clock : ClockReading) : StartPosition → Option Instant
  | .timestamp target => some target
  | .relativeTime age =>
    match now clock with
    | .ok instant => if minInstant ≤ instant - age then some (instant - age) else none
    | .error _ => none
  | _ => none

variable {part : PartitionState} {H : List StoredRecord} {target : Instant} {stream : String}
  {partition : Nat}

namespace World

variable {w w' : World} {i : Nat} {env : Env} {f : AcquireFrame} {id : LeaseId} {lease : Lease}
  {stage : InitStage}

/-- An `acquire` that has no cursor to go on from initializes its group at an offset, for its store
or in the log's own table. -/
inductive Initializes (w : World) (i : Nat) (f : AcquireFrame) (id : LeaseId) (key : CheckpointKey)
    (w' : World) (c : Nat) : InitStage → Prop where
  | store :
    w'.calls[i]? = some (.acquire f (.init id (.create (.initialized c)))) →
    Initializes w i f id key w' c .resolve
  | broker :
    w.sys.log.brokerCursors.lookup key = none →
    w'.sys.log.brokerCursors.lookup key = some (.initialized c) →
    Initializes w i f id key w' c .broker

end World

end ToriPy.PersistentStreams
