import TorchSupa.Allocator.Driver
import TorchSupa.Logic.Interleaving

/-!
`ipcMemHandle_to_devptr`, the cache of the handles that `getIpcDevPtr` has opened, and the
threads that call it and drop what it returns.
-/

namespace TorchSupa.HandleCache

open Allocator Interleaving Outcome

abbrev Handle := List UInt8
abbrev ControlId := Nat

structure MemHandleCacheEntry where
  device : Nat
  expandableSegment : Option Nat := none
  supaIpcPtr : Option Nat := none
  wp : Option ControlId := none
  /-- ghost: how many openings came before its own -/
  opening : Nat

structure Control where
  useCount : Nat
  ptr : Nat
  handle : Handle
  /-- ghost: the opening that `ptr` comes from -/
  opening : Nat

structure World where
  ipcMemHandleToDevptr : List (Handle × MemHandleCacheEntry) := []
  controls : Store Control := .empty
  /-- ghost: how many times a handle has been opened -/
  opened : Nat := 0
  /-- ghost: the openings that have been closed -/
  closed : List Nat := []
  /-- ghost: the handles whose entry `getIpcDevPtr` has found expired -/
  missing : List Handle := []

abbrev CacheM := EStateM Exn World

/-- How the calls of the driver turn out; the memory handle and the shared segment are read
from the given bytes. -/
structure Answers where
  getDevice : Option Nat := some 0
  ipcOpenMemHandle : List UInt8 → Option Nat := fun _ => none
  fromShared : Nat → List UInt8 → Option Nat := fun _ _ => none
  setDevice : Bool := true
  ipcCloseMemHandle : Bool := true
  deleteSegment : Bool := true

def shareableSupaMalloc : Int := 99

def shareableSupaExpandableSegment : Int := 101

def shareableHandleVersion : Int := 1

def getChar : List UInt8 → Int × List UInt8
  | [] => (-1, [])
  | byte :: rest => (byte.toNat, rest)

section Cache

variable (ipcHandleSize : Nat)

def readType (handle : Handle) : CacheM (Int × List UInt8) :=
  if handle.length ≠ ipcHandleSize then do
    let (version, ss) := getChar handle
    check (version ≤ shareableHandleVersion) (.torchCheck
      "received sharable handle from a future version of torch that this version does not know how to handle")
    pure (getChar ss)
  else pure (shareableSupaMalloc, handle)

def noteOpening : CacheM Nat := do
  let opening := (← get).opened
  modify fun world => { world with opened := world.opened + 1 }
  pure opening

def newEntry (answers : Answers) (device : Nat) (handle : Handle) : CacheM MemHandleCacheEntry := do
  let (type, ss) ← readType ipcHandleSize handle
  if type = shareableSupaMalloc then do
    let ptr ← demand (answers.ipcOpenMemHandle (ss.take ipcHandleSize)) .driver
    let opening ← noteOpening
    pure { device, supaIpcPtr := some ptr, opening }
  else if type = shareableSupaExpandableSegment then do
    let ptr ← demand (answers.fromShared device ss) .driver
    let opening ← noteOpening
    pure { device, expandableSegment := some ptr, opening }
  else throw .internalAssert

def MemHandleCacheEntry.ptr (entry : MemHandleCacheEntry) : CacheM Nat :=
  match entry.supaIpcPtr with
  | some ptr => pure ptr
  | none => demand entry.expandableSegment .undefinedBehaviour

def noteClosing (opening : Nat) : CacheM Unit :=
  modify fun world => { world with closed := opening :: world.closed }

def MemHandleCacheEntry.clear (answers : Answers) (entry : MemHandleCacheEntry) : CacheM Unit := do
  if entry.supaIpcPtr.isSome then do
    check answers.setDevice .driver
    check answers.ipcCloseMemHandle .driver
    noteClosing entry.opening
  if entry.expandableSegment.isSome then do
    check answers.deleteSegment .driver
    noteClosing entry.opening

def addUse (control : ControlId) : CacheM Unit :=
  modify fun world => { world with
    controls := world.controls.modify control fun self =>
      { self with useCount := self.useCount + 1 } }

def useCount (control : ControlId) : CacheM Nat := do
  pure (((← get).controls.get? control).elim 0 Control.useCount)

def lock (wp : Option ControlId) : CacheM (Option ControlId) :=
  match wp with
  | none => pure none
  | some control => do
      if (← useCount control) = 0 then pure none
      else do
        addUse control
        pure (some control)

def getIpcDevPtr (answers : Answers) (handle : Handle) : CacheM ControlId := do
  match (← get).ipcMemHandleToDevptr.lookup handle with
  | some entry =>
    match ← lock entry.wp with
    | some devptr => pure devptr
    | none => do
        modify fun world => { world with missing := handle :: world.missing }
        throw .internalAssert
  | none => do
      let device ← demand answers.getDevice .driver
      let inserted ← newEntry ipcHandleSize answers device handle
      let ptr ← inserted.ptr
      let sp := (← get).controls.fresh
      modify fun world => { world with
        controls := world.controls.push { useCount := 1, ptr, handle, opening := inserted.opening }
        ipcMemHandleToDevptr := (handle, { inserted with wp := some sp }) ::
          world.ipcMemHandleToDevptr }
      pure sp

end Cache

def deleter (answers : Answers) (control : ControlId) : CacheM Unit := do
  let self ← demand ((← get).controls.get? control) .undefinedBehaviour
  let entry ← demand ((← get).ipcMemHandleToDevptr.lookup self.handle) .internalAssert
  entry.clear answers
  modify fun world => { world with
    ipcMemHandleToDevptr := world.ipcMemHandleToDevptr.filter fun cached => cached.1 != self.handle }

inductive Place
  | idle
  | deleter (control : ControlId)
deriving DecidableEq

inductive Action
  | getIpcDevPtr (handle : Handle) (answers : Answers)
  | copy (control : ControlId)
  | drop (control : ControlId)
  | proceed (answers : Answers)

def dropUse (control : ControlId) : CacheM Place := do
  let count ← useCount control
  modify fun world => { world with
    controls := world.controls.modify control fun self => { self with useCount := count - 1 } }
  pure (if count = 1 then .deleter control else .idle)

def Action.run (ipcHandleSize : Nat) : Place → Action → Option (CacheM Place)
  | .idle, .getIpcDevPtr handle answers => some do
      let _ ← HandleCache.getIpcDevPtr ipcHandleSize answers handle
      pure .idle
  | .idle, .copy control => some do
      addUse control
      pure .idle
  | .idle, .drop control => some (dropUse control)
  | .deleter control, .proceed answers => some do
      HandleCache.deleter answers control
      pure .idle
  | _, _ => none

def Enabled (world : World) : Action → Prop
  | .copy control => ∃ self, world.controls.get? control = some self ∧ 0 < self.useCount
  | .drop control => ∃ self, world.controls.get? control = some self ∧ 0 < self.useCount
  | _ => True

inductive Step (ipcHandleSize : Nat) (world : World) (place : Place) (action : Action) :
    World → Place → Prop
  | returns (program : CacheM Place) (next : Place) (after : World) :
      action.run ipcHandleSize place = some program → Enabled world action →
      program world = .ok next after → Step ipcHandleSize world place action after next
  | throws (program : CacheM Place) (exception : Exn) (after : World) :
      action.run ipcHandleSize place = some program → Enabled world action → place = .idle →
      program world = .error exception after → ¬ exception.Fatal →
      Step ipcHandleSize world place action after .idle

def cacheProgram (ipcHandleSize : Nat) : Program World Place Action where
  initial world := world = {}
  start := .idle
  step := Step ipcHandleSize

abbrev State := Threads World Place

end TorchSupa.HandleCache
