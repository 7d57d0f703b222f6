import TorchSupa.Host.World

/-!
The methods of `SUPAHostAllocator`, cut at their lock-protected sections. An operation that a
thread is in is the section it runs next, with its local variables.
-/

namespace TorchSupa.Host

open Allocator

inductive Caller
  | allocate (size : Nat)
  | emptyCache
  | none
deriving DecidableEq, Repr, Inhabited

structure Loop where
  size : Int
  eventCount : Nat := 0
  maxEvents : Nat
  caller : Caller
deriving DecidableEq, Repr, Inhabited

inductive Operation
  | idle
  | allocateFromFreeList (size : Nat)
  | allocateNew (size : Nat)
  | insertNew (block : BlockId)
  | freeBlock (block : BlockId)
  | recordStreams (block : BlockId) (streams : List Stream) (events : List Event)
  | insertFreed (block : BlockId)
  | publishEvents (block : BlockId) (events : List Event)
  | countEvents (size : Int) (caller : Caller)
  | popEvent (loop : Loop)
  | examineEvent (loop : Loop) (event : Event) (block : BlockId)
  | pushFront (loop : Loop) (event : Event) (block : BlockId) (last : Bool)
  | pushBack (loop : Loop) (event : Event) (block : BlockId)
  | countDown (loop : Loop) (event : Event) (block : BlockId)
  | insertProcessed (loop : Loop) (block : BlockId)
  | takeFreeList
  | releaseBlocks (blocks : List BlockId)
deriving DecidableEq, Repr, Inhabited

def Caller.next : Caller → Operation
  | .allocate size => .allocateFromFreeList size
  | .emptyCache => .takeFreeList
  | .none => .idle

section ProcessEvents

def countEvents (size : Int) (caller : Caller) : HostM Operation := do
  pure (.popEvent { size, maxEvents := (← get).supaEvents.length, caller })

def popEvent (loop : Loop) : HostM Operation := do
  match (← get).supaEvents.getLast? with
  | none => pure loop.caller.next
  | some (event, block) => do
      modify fun world => { world with supaEvents := world.supaEvents.dropLast }
      pure (.examineEvent loop event block)

def queryEvent (answers : Answers) (event : Event) : HostM Bool := do
  ensure answers.eventQuery .driver
  pure ((← get).completed.contains event)

def examineEvent (answers : Answers) (loop : Loop) (event : Event) (block : BlockId) :
    HostM Operation := do
  if loop.size ≠ -1 ∧ loop.eventCount > loop.maxEvents then
    pure (.pushFront loop event block true)
  else do
    let self ← getBlock block
    let loop := if loop.size ≠ -1 then { loop with eventCount := loop.eventCount + 1 } else loop
    -- the size of the block is cast to int64_t
    if loop.size ≠ -1 ∧ loop.size ≠ (self.size : Int).bmod (2 ^ 64) then
      pure (.pushFront loop event block false)
    else do
      let ready ← queryEvent answers event
      if ready then pure (.countDown loop event block)
      else if loop.size = -1 then pure (.pushBack loop event block)
      else pure (.pushFront loop event block false)

def pushFront (loop : Loop) (event : Event) (block : BlockId) (last : Bool) : HostM Operation := do
  modify fun world => { world with supaEvents := (event, block) :: world.supaEvents }
  pure (if last then loop.caller.next else .popEvent loop)

def pushBack (loop : Loop) (event : Event) (block : BlockId) : HostM Operation := do
  modify fun world => { world with supaEvents := world.supaEvents ++ [(event, block)] }
  pure loop.caller.next

def countDown (loop : Loop) (block : BlockId) : HostM Operation := do
  let self ← getBlock block
  ensure (!self.allocated) .internalAssert
  let eventCount := wrappingSub self.eventCount 1
  updateBlock block fun self => { self with eventCount }
  pure (if eventCount = 0 then .insertProcessed loop block else .popEvent loop)

def insertFreeList (block : BlockId) (next : Operation) : HostM Operation := do
  modify fun world =>
    { world with freeList := insertOrdered world.key block world.freeList }
  pure next

end ProcessEvents

section Allocate

def allocateFromFreeList (size : Nat) : HostM Operation := do
  match (← get).lowerBound size with
  | some block => do
      updateBlock block fun self => { self with allocated := true }
      modify fun world =>
        { world with freeList := world.freeList.erase block, live := block :: world.live }
      pure .idle
  | none => pure (.allocateNew size)

def registerPages (answers : Answers) (ptr : Nat) : HostM Unit := do
  ensure answers.hostRegister .driver
  match answers.hostGetDevicePointer with
  | none => throw .driver
  | some devptr =>
    ensure (devptr == ptr) (.torchCheck "Host and device pointer dont match with supaHostRegister. ")

def allocWithSupaHostRegister (answers : Answers) : HostM Nat := do
  match answers.pointer with
  | none => throw .undefinedBehaviour
  | some ptr => do
      registerPages answers ptr
      pure ptr

def supaHostAlloc (answers : Answers) : HostM Nat := do
  match answers.pointer with
  | none => throw .driver
  | some ptr => pure ptr

def allocatePinned (answers : Answers) (setting : Bool) : HostM (Nat × Api) :=
  if setting then do
    let ptr ← allocWithSupaHostRegister answers
    pure (ptr, .hostRegister)
  else do
    let ptr ← supaHostAlloc answers
    pure (ptr, .hostAlloc)

def allocateNew (answers : Answers) (size : Nat) : HostM Operation := do
  let roundSize := powerOf2Ceil size
  let setting := (← get).pinnedUseSupaHostRegister
  let (ptr, madeWith) ← allocatePinned answers setting
  let block := (← get).heap.fresh
  modify fun world =>
    { world with
      heap := world.heap.push { size := roundSize, ptr, allocated := true, setting, madeWith } }
  pure (.insertNew block)

def insertNew (block : BlockId) : HostM Operation := do
  let self ← getBlock block
  modify fun world =>
    { world with
      blocks := block :: world.blocks
      ptrToBlock :=
        if world.ptrToBlock.any (·.1 == self.ptr) then world.ptrToBlock
        else (self.ptr, block) :: world.ptrToBlock
      live := block :: world.live }
  pure .idle

end Allocate

section Free

def freeBlock (block : BlockId) : HostM Operation := do
  updateBlock block fun self => { self with allocated := false, lastEvents := [] }
  let self ← getBlock block
  if self.streams.isEmpty then do
    ensure (self.eventCount == 0) .internalAssert
    pure (.insertFreed block)
  else do
    updateBlock block fun self =>
      { self with eventCount := self.eventCount + self.streams.length, streams := [] }
    pure (.recordStreams block self.streams [])

/-- The turns of the loop over the streams, outside any lock; an exception drops the events
that have been recorded. -/
def recordStreams (answers : Answers) (block : BlockId) (streams : List Stream)
    (events : List Event) : HostM Operation := do
  match streams with
  | [] => pure (.publishEvents block events)
  | _ :: rest => do
      ensure answers.eventRecord .driver
      let event := (← get).recordings
      modify fun world => { world with recordings := world.recordings + 1 }
      updateBlock block fun self => { self with lastEvents := event :: self.lastEvents }
      pure (.recordStreams block rest (events ++ [event]))

def publishEvents (block : BlockId) (events : List Event) : HostM Operation := do
  modify fun world =>
    { world with
      supaEvents := events.foldl (fun queue event => (event, block) :: queue) world.supaEvents }
  pure .idle

end Free

def recordEvent (ptr : Nat) (ctx : BlockId) (stream : Stream) : HostM Operation := do
  let world ← get
  let found := if world.blocks.contains ctx then some ctx
    else (world.ptrToBlock.find? (·.1 == ptr)).map (·.2)
  match found with
  | none => pure .idle
  | some block => do
      let self ← getBlock block
      ensure self.allocated .internalAssert
      updateBlock block fun self => { self with streams := self.streams.insert stream }
      pure .idle

section EmptyCache

def takeFreeList : HostM Operation := do
  let blocks := (← get).freeList
  modify fun world => { world with freeList := [], locked := true }
  pure (.releaseBlocks blocks)

/-- `supaHostUnregister` followed by `std::free`, or `supaFreeHost`. -/
def Answers.released (answers : Answers) : Api → Bool
  | .hostRegister => answers.hostUnregister
  | .hostAlloc => answers.freeHost

def releaseBlocks (answers : Answers) (blocks : List BlockId) : HostM Operation := do
  match blocks with
  | [] => do
      modify fun world => { world with locked := false }
      pure .idle
  | block :: rest => do
      let self ← getBlock block
      modify fun world =>
        { world with
          blocks := world.blocks.erase block
          ptrToBlock := world.ptrToBlock.filter (·.1 != self.ptr) }
      let releasedWith :=
        if (← get).pinnedUseSupaHostRegister then Api.hostRegister else Api.hostAlloc
      modify fun world =>
        { world with
          releases := { block, madeWith := self.madeWith, releasedWith } :: world.releases }
      if answers.released releasedWith then do
        modify fun world => { world with heap := world.heap.erase block }
        pure (.releaseBlocks rest)
      else do
        -- the exception lets go of the mutexes
        modify fun world => { world with locked := false }
        throw .driver

end EmptyCache

def consumeToken (config : List String) (i : Nat) (c : Char) : HostM Unit :=
  ensure (config[i]? == some (String.singleton c))
    (.torchCheck "Error parsing CachingAllocator settings, expected ")

def parsePinnedUseSupaHostRegister (config : List String) (i : Nat) : HostM Nat := do
  consumeToken config (i + 1) ':'
  match config[i + 2]? with
  | some token => do
      ensure (token == "True" || token == "False")
        (.torchCheck "Expected a single True/False argument for pinned_use_supa_host_register")
      modify fun world => { world with pinnedUseSupaHostRegister := token == "True" }
      pure (i + 2)
  | none => throw (.torchCheck "Error, expecting pinned_use_supa_host_register value")

def Operation.section (answers : Answers) : Operation → HostM Operation
  | .idle => pure .idle
  | .allocateFromFreeList size => Host.allocateFromFreeList size
  | .allocateNew size => Host.allocateNew answers size
  | .insertNew block => Host.insertNew block
  | .freeBlock block => Host.freeBlock block
  | .recordStreams block streams events => Host.recordStreams answers block streams events
  | .insertFreed block => insertFreeList block .idle
  | .publishEvents block events => Host.publishEvents block events
  | .countEvents size caller => Host.countEvents size caller
  | .popEvent loop => Host.popEvent loop
  | .examineEvent loop event block => Host.examineEvent answers loop event block
  | .pushFront loop event block last => Host.pushFront loop event block last
  | .pushBack loop event block => Host.pushBack loop event block
  | .countDown loop _ block => Host.countDown loop block
  | .insertProcessed loop block => insertFreeList block (.popEvent loop)
  | .takeFreeList => Host.takeFreeList
  | .releaseBlocks blocks => Host.releaseBlocks answers blocks

end TorchSupa.Host
