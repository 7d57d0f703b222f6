import TorchSupa.Allocator.Blocks

/-!
`free`, `recordStream` and the events that hold a freed block back until the
streams it was used on are done with it.
-/

namespace TorchSupa.Allocator

open Outcome

def removeSupagraphStreamUses (block : BlockId) : M Unit := do
  match (← get).blockToSupagraphStreamUses.find? (·.1 == block) with
  | none => pure ()
  | some captured => do
      update block fun self =>
        { self with streamUses := self.streamUses.filter fun stream => !captured.2.contains stream }
      modify fun state =>
        { state with
          blockToSupagraphStreamUses :=
            state.blockToSupagraphStreamUses.filter fun entry => entry.1 != block }

/-- `create_event_internal` and `supaEventRecord`: a new event behind the work that is
on `stream` now. -/
def recordEvent (driver : Driver) (stream : Stream) (block : BlockId) : M Nat := do
  if driver.eventCallFails (← nextTick) then eventCallFailed
  else if driver.eventCallFails (← nextTick) then eventCallFailed
  else do
    let event := (← get).nextEvent
    modify fun state => { state with nextEvent := event + 1 }
    log (.eventRecord event stream block)
    pure event

def insertEvents (driver : Driver) (block : BlockId) : M Unit := do
  let streams := (← deref block).streamUses
  update block fun self => { self with streamUses := [] }
  let tick := (← get).memory.tick
  forEach (fun stream => do
    let event ← recordEvent driver stream block
    update block fun self => { self with eventCount := self.eventCount + 1 }
    modify fun state =>
      { state with supaEvents := state.supaEvents ++ [⟨stream, some event, block⟩] })
    (driver.order tick streams)

def insertEventsDeferredUntilNoCapture (driver : Driver) : M Unit := do
  forEach (fun block => do
    internalAssert (!(← deref block).streamUses.isEmpty)
    removeSupagraphStreamUses block
    insertEvents driver block
    if (← deref block).eventCount = 0 then freeBlock block else pure ())
    (← get).needsEventsDeferredUntilNoCapture
  modify fun state => { state with needsEventsDeferredUntilNoCapture := [] }

def eventStreams (entries : List EventEntry) : List Stream := (entries.map (·.stream)).dedup

def setFrontEvent (stream : Stream) (event : Option Nat) : List EventEntry → List EventEntry
  | [] => []
  | entry :: rest =>
    if entry.stream = stream then { entry with event } :: rest
    else entry :: setFrontEvent stream event rest

def eventDoneFor (event : Nat) (block : BlockId) : M Unit := do
  log (.eventComplete event)
  update block fun self => { self with eventCount := self.eventCount - 1 }
  if (← deref block).eventCount = 0 then freeBlock block else pure ()

/-- The inner loop of `process_events`; the deque has at most as many entries as turns
are given. -/
def drainStream (driver : Driver) (stream : Stream) : Nat → M Unit
  | 0 => pure ()
  | turns + 1 => do
      match (← get).supaEvents.find? (·.stream == stream) with
      | none => pure ()
      | some entry => do
          modify fun state =>
            { state with supaEvents := setFrontEvent stream none state.supaEvents }
          match entry.event with
          | none => throw .undefinedBehaviour
          | some event => do
              let tick ← nextTick
              if driver.eventCallFails tick then eventCallFailed
              else if !driver.eventDone tick event then
                -- not ready: the entry gets its event back
                modify fun state =>
                  { state with
                    supaEvents := setFrontEvent stream (some event) state.supaEvents }
              else do
                eventDoneFor event entry.block
                modify fun state =>
                  { state with
                    supaEvents := state.supaEvents.eraseP fun other => other.stream == stream }
                drainStream driver stream turns

def processEvents (driver : Driver) : M Unit := do
  insertEventsDeferredUntilNoCapture driver
  let state ← get
  forEach (fun stream => drainStream driver stream state.supaEvents.length)
    (driver.order state.memory.tick (eventStreams state.supaEvents))

def synchronizeEntry (driver : Driver) (pool : Option PrivatePoolId) (entry : EventEntry) :
    M Unit := do
  let block ← deref entry.block
  if pool.isSome && block.pool.owner != pool then
    pure ()
  else do
    let movedFrom := { entry with event := none }
    modify fun state => { state with supaEvents := state.supaEvents.replace entry movedFrom }
    match entry.event with
    | none => throw .undefinedBehaviour
    | some event => do
        let tick ← nextTick
        let finished := max (tick + 1) (driver.waitUntil tick event)
        if driver.eventCallFails tick then eventCallFailed
        else if !driver.eventDone finished event then throw .diverged
        else do
          modify fun state => { state with memory := { state.memory with tick := finished } }
          eventDoneFor event entry.block
          modify fun state => { state with supaEvents := state.supaEvents.erase movedFrom }

def synchronizeAndFreeEvents (driver : Driver) (pool : Option PrivatePoolId) : M Unit := do
  modifyStats fun stats => { stats with numSyncAllStreams := stats.numSyncAllStreams + 1 }
  internalAssert (← get).capturesUnderway.isEmpty
  insertEventsDeferredUntilNoCapture driver
  let state ← get
  forEach (fun stream => do
    forEach (synchronizeEntry driver pool)
      ((← get).supaEvents.filter fun entry => entry.stream == stream))
    (driver.order state.memory.tick (eventStreams state.supaEvents))

def free (driver : Driver) (block : BlockId) : M Unit := do
  update block fun self => { self with allocated := false }
  let freed ← deref block
  let maxSplitSize := (← get).config.maxSplitSize
  modifyStats fun stats =>
    { stats with
      allocation := stats.allocation.forSelected freed.pool.isSmall (·.decrease 1)
      allocatedBytes := stats.allocatedBytes.forSelected freed.pool.isSmall (·.decrease freed.size) }
  recordTrace .freeRequested freed.ptr freed.requestedSize freed.stream freed.device
    (← ownerMempoolId freed.pool)
  log (.free block)
  modifyStats fun stats =>
    { stats with
      oversizeAllocations :=
        if freed.size ≥ maxSplitSize then stats.oversizeAllocations.decrease 1
        else stats.oversizeAllocations }
  if !freed.streamUses.isEmpty then
    if !(← get).capturesUnderway.isEmpty then
      -- an event recorded during a capture must not be queried
      modify fun state =>
        { state with
          needsEventsDeferredUntilNoCapture :=
            state.needsEventsDeferredUntilNoCapture ++ [block] }
    else
      insertEvents driver block
  else
    freeBlock block

def recordStream (block : BlockId) (stream : Stream) : M Unit := do
  if stream = (← deref block).stream then
    -- a use on the allocation stream needs no synchronization
    pure ()
  else do
    update block fun self =>
      { self with
        streamUses := if stream ∈ self.streamUses then self.streamUses
          else self.streamUses ++ [stream] }
    log (.recordStream block stream)

end TorchSupa.Allocator
