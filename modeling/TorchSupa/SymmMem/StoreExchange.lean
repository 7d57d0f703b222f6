import TorchSupa.Logic.Transitions
import Mathlib.Logic.Function.Basic

/-!
The exchanges of a rendezvous over the store of a group: `StoreExchange::all_gather`, whose counter
is one of the process, and the calls that `make_peer_alloc_info` makes of it.
-/

namespace TorchSupa.SymmMem.Exchange

open Function

structure RendezvousRequest where
  deviceIdx : Nat
  pid : Nat
  blockSize : Nat
  bufferSize : Nat
  signalPadOffset : Nat
  hasMulticastSupport : Bool
  hostname : String
deriving DecidableEq, Repr

/-- What is put into a store. The handles are fabric handles; file descriptors go over sockets. -/
inductive Payload
  | request (request : RendezvousRequest)
  | blockHandle (handle : Nat)
  | barrier
  | multicastHandle (handle : Option Nat)
  | success (ok : Bool)
deriving DecidableEq, Repr

inductive Site
  | requests
  | blockHandles
  | barrier
  | multicastHandles
  | successes
deriving DecidableEq, Repr

def Payload.isOf : Payload → Site → Bool
  | .request _, .requests => true
  | .blockHandle _, .blockHandles => true
  | .barrier, .barrier => true
  | .multicastHandle _, .multicastHandles => true
  | .success _, .successes => true
  | _, _ => false

/-- The values have as many bytes; both kinds of handle are `SUmemFabricHandle`. -/
def Payload.sizeFits : Payload → Site → Bool
  | .blockHandle _, .multicastHandles => true
  | .multicastHandle _, .blockHandles => true
  | payload, site => payload.isOf site

structure Processes where
  members : Nat → List Nat
  distinct : ∀ group, (members group).Nodup
  fabric : Nat → Bool
  allowOverlapping : Nat → Bool

def sites (fabric : Bool) : List Site :=
  if fabric then [.requests, .blockHandles, .barrier, .multicastHandles, .successes]
  else [.requests, .barrier, .successes]

/-- One call of `all_gather`: the value of the process, and those it has read so far, by rank. -/
structure Gathering where
  payload : Payload
  read : List Payload
deriving DecidableEq, Repr

def Gathering.of (payload : Payload) : Gathering where
  payload := payload
  read := []

structure Visit where
  start : Nat
  cached : Bool := false
  exchanges : List Gathering := []
  broadcast : Option Bool := none
  left : Bool := false
deriving DecidableEq, Repr

def Visit.next (self : Visit) (payload : Payload) : Visit :=
  { self with exchanges := self.exchanges ++ [.of payload] }

def Visit.hear (self : Visit) (last : Gathering) (value : Payload) : Visit :=
  { self with
    exchanges := self.exchanges.dropLast ++ [{ last with read := last.read ++ [value] }] }

def Visit.told (self : Visit) (created : Bool) : Visit := { self with broadcast := some created }

structure Running where
  group : Nat
  block : Nat
  visit : Visit
deriving DecidableEq, Repr

structure World where
  seqId : Nat → Nat := fun _ => 0
  stores : Nat → Nat × Nat → Option Payload := fun _ _ => none
  running : Nat → Option Running := fun _ => none
  /-- by process and group, the calls that have returned or thrown -/
  past : Nat → Nat → List Visit := fun _ _ => []
  sockets : Nat → List Bool := fun _ => []
  symmMems : Nat → Nat → List Nat := fun _ _ => []

def World.visits (self : World) (process group : Nat) : List Visit :=
  self.past process group ++ match self.running process with
    | some running => if running.group = group then [running.visit] else []
    | none => []

def requestsOf (read : List Payload) : List RendezvousRequest :=
  read.filterMap fun payload => match payload with
    | .request request => some request
    | _ => none

def validates (allowOverlapping : Bool) (reqs : List RendezvousRequest) : Bool :=
  (allowOverlapping || decide (reqs.map fun req => (req.hostname, req.deviceIdx)).Nodup) &&
    match reqs with
    | [] => true
    | first :: rest => rest.all fun req => req.blockSize == first.blockSize &&
        req.bufferSize == first.bufferSize && req.signalPadOffset == first.signalPadOffset

def triesMulticast (allowOverlapping : Bool) (reads : List (List Payload)) : Bool :=
  !allowOverlapping && (requestsOf (reads.headD [])).all (·.hasMulticastSupport)

def isHandle : Option Payload → Bool
  | some (.multicastHandle (some _)) => true
  | _ => false

def goesOn (fabric allowOverlapping : Bool) (reads : List (List Payload)) (broadcast : Option Bool) :
    Bool :=
  match (sites fabric)[reads.length - 1]? with
  | some .requests => validates allowOverlapping (requestsOf (reads.headD []))
  | some .blockHandles => true
  | some .barrier => triesMulticast allowOverlapping reads && (fabric || broadcast == some true)
  | some .multicastHandles => isHandle ((reads.getLastD []).head?)
  | _ => false

def Visit.reads (self : Visit) : List (List Payload) := self.exchanges.map (·.read)

def awaitsBroadcast (fabric allowOverlapping : Bool) (visit : Visit) : Bool :=
  !fabric && visit.exchanges.length == 2 && triesMulticast allowOverlapping visit.reads &&
    visit.broadcast.isNone

inductive Action
  | rendezvous (process group block : Nat) (request : RendezvousRequest)
  | gather (process : Nat)
  | broadcastFds (process : Nat) (created : Bool)
  | proceed (process : Nat) (payload : Payload)
  /-- a call of the driver or of the store throws -/
  | fail (process : Nat)
deriving DecidableEq, Repr

def rankOf (processes : Processes) (process group : Nat) : Nat :=
  (processes.members group).idxOf process

/-- The start of `all_gather`: the keys are made, the counter goes up and the value is set. -/
def World.put (self : World) (processes : Processes) (process : Nat) (running : Running)
    (payload : Payload) : World :=
  let key := (self.seqId process, rankOf processes process running.group)
  { self with
    seqId := update self.seqId process (self.seqId process + 1)
    stores := update self.stores running.group
      (update (self.stores running.group) key (some payload))
    running := update self.running process (some { running with
      visit := running.visit.next payload }) }

def World.leave (self : World) (process : Nat) (running : Running) : World :=
  { self with
    running := update self.running process none
    past := update self.past process (update (self.past process) running.group
      (self.past process running.group ++ [{ running.visit with left := true }])) }

def World.rendezvous (self : World) (processes : Processes) (process group block : Nat)
    (request : RendezvousRequest) : Option World :=
  if (self.running process).isNone && (processes.members group).contains process then
    if (self.symmMems process group).contains block then
      some (self.leave process ⟨group, block, { start := self.seqId process, cached := true }⟩)
    else
      let bound := { self with sockets := update self.sockets process [] }
      some (bound.put processes process ⟨group, block, { start := self.seqId process }⟩
        (.request request))
  else none

def World.gathering (self : World) (process : Nat) : Option (Running × Gathering) := do
  let running ← self.running process
  let last ← running.visit.exchanges.getLast?
  pure (running, last)

def World.setRead (self : World) (process : Nat) (running : Running) (last : Gathering)
    (value : Payload) : World :=
  { self with
    running := update self.running process (some { running with
      visit := running.visit.hear last value }) }

def World.gather (self : World) (processes : Processes) (process : Nat) : Option World := do
  let (running, last) ← self.gathering process
  let rank := last.read.length
  if rank < (processes.members running.group).length then
    if rank = rankOf processes process running.group then
      pure (self.setRead process running last last.payload)
    else
      -- the keys were made when the counter was one less
      let value ← self.stores running.group (self.seqId process - 1, rank)
      let site ← (sites (processes.fabric process))[running.visit.exchanges.length - 1]?
      if value.sizeFits site then pure (self.setRead process running last value)
      else pure (self.leave process running)
  else none

def complete (processes : Processes) (running : Running) (last : Gathering) : Bool :=
  last.read.length == (processes.members running.group).length

def World.setBroadcast (self : World) (process : Nat) (running : Running) (created : Bool) : World :=
  { self with
    running := update self.running process (some { running with
      visit := running.visit.told created }) }

def World.broadcastFds (self : World) (processes : Processes) (process : Nat) (created : Bool) :
    Option World := do
  let (running, last) ← self.gathering process
  if complete processes running last && awaitsBroadcast (processes.fabric process)
      (processes.allowOverlapping process) running.visit then
    if rankOf processes process running.group = 0 then
      let sent := { self with
        sockets := fun other =>
          if other ≠ process ∧ other ∈ processes.members running.group then
            self.sockets other ++ [created]
          else self.sockets other }
      pure (sent.setBroadcast process running created)
    else match self.sockets process with
      | [] => none
      | received :: rest =>
        let taken := { self with sockets := update self.sockets process rest }
        pure (taken.setBroadcast process running received)
  else none

def World.proceed (self : World) (processes : Processes) (process : Nat) (payload : Payload) :
    Option World := do
  let (running, last) ← self.gathering process
  let fabric := processes.fabric process
  let allowOverlapping := processes.allowOverlapping process
  if complete processes running last && !awaitsBroadcast fabric allowOverlapping running.visit then
    if goesOn fabric allowOverlapping running.visit.reads running.visit.broadcast then
      let site ← (sites fabric)[running.visit.exchanges.length]?
      if payload.isOf site then pure (self.put processes process running payload) else none
    else
      let left := self.leave process running
      -- an exception of `validate_rendezvous_requests` leaves nothing in the cache
      if running.visit.exchanges.length = 1 then pure left
      else pure { left with
        symmMems := update self.symmMems process
          (update (self.symmMems process) running.group
            (running.block :: self.symmMems process running.group)) }
  else none

def World.fail (self : World) (process : Nat) : Option World := do
  let running ← self.running process
  pure (self.leave process running)

def World.advance (processes : Processes) (self : World) : Action → Option World
  | .rendezvous process group block request =>
    self.rendezvous processes process group block request
  | .gather process => self.gather processes process
  | .broadcastFds process created => self.broadcastFds processes process created
  | .proceed process payload => self.proceed processes process payload
  | .fail process => self.fail process

def exchanging (processes : Processes) : System World Action where
  initial self := self = {}
  step self action after := self.advance processes action = some after

end TorchSupa.SymmMem.Exchange
