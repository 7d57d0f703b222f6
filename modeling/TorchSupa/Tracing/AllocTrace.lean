import TorchSupa.Allocator.PrivatePools
import TorchSupa.Logic.RingBuffer

/-!
The trace of a `DeviceCachingAllocator`: `recordHistory`, `record_trace` and `trace`, with the
accesses to `alloc_trace` that may lie outside of it.
-/

namespace TorchSupa.Tracing

open Outcome
open Allocator (TraceEntry DeviceCachingAllocator)

inductive RecordContext
  | never
  | state
  | alloc
  | all
deriving DecidableEq, Repr, Inhabited

def RecordContext.level : RecordContext → Nat
  | never => 0
  | state => 1
  | alloc => 2
  | all => 3

variable {Context : Type}

structure Traced (Context : Type) where
  entry : TraceEntry
  time : Nat
  context : Option Context
deriving DecidableEq, Repr, Inhabited

structure AllocTrace (Context : Type) where
  recordHistory : Bool := false
  contextRecorder : Option (Unit → Context) := none
  recordContext : RecordContext := .never
  allocTrace : List (Traced Context) := []
  allocTraceNext : Nat := 0
  allocTraceMaxEntries : Nat := 1
  /-- ghost: what was recorded since recording was enabled -/
  recorded : List (Traced Context) := []
deriving Inhabited

inductive Exn
  | torchCheck
  | undefinedBehaviour
deriving DecidableEq, Repr, Inhabited

abbrev M (Context : Type) := EStateM Exn (AllocTrace Context)

def recordHistory (enabled : Bool) (contextRecorder : Option (Unit → Context))
    (allocTraceMaxEntries : Nat) (when_ : RecordContext) : M Context Unit := do
  check (when_ == .never || contextRecorder.isSome) .torchCheck
  modify fun trace =>
    let trace := { trace with
      recordHistory := enabled
      contextRecorder := if enabled then contextRecorder else none
      allocTraceMaxEntries := max 1 allocTraceMaxEntries
      recordContext := if enabled then when_ else .never }
    if enabled then trace
    else { trace with allocTraceNext := 0, allocTrace := [], recorded := [] }

def AllocTrace.traced (trace : AllocTrace Context) (entry : TraceEntry) (time : Nat)
    (context : Option Context) : Traced Context :=
  ⟨entry, time, if RecordContext.alloc.level ≤ trace.recordContext.level then context else none⟩

def recordTrace (entry : TraceEntry) (time : Nat) (context : Option Context) : M Context Unit := do
  let trace ← get
  if trace.recordHistory then
    let te := trace.traced entry time context
    if trace.allocTrace.length < trace.allocTraceMaxEntries then
      set { trace with
        allocTrace := trace.allocTrace ++ [te]
        recorded := trace.recorded ++ [te] }
    else
      check (trace.allocTraceNext < trace.allocTrace.length) .undefinedBehaviour
      set { trace with
        allocTrace := trace.allocTrace.set trace.allocTraceNext te
        allocTraceNext :=
          if trace.allocTraceNext + 1 = trace.allocTraceMaxEntries then 0
          else trace.allocTraceNext + 1
        recorded := trace.recorded ++ [te] }

/-- `trace`, which converts the times; `none` where an iterator lies outside. -/
def AllocTrace.trace (trace : AllocTrace Context) (tscToUs : Nat → Nat) :
    Option (List (Traced Context)) :=
  if trace.allocTraceNext ≤ trace.allocTrace.length then
    some ((trace.allocTrace.drop trace.allocTraceNext ++
      trace.allocTrace.take trace.allocTraceNext).map fun te => { te with time := tscToUs te.time })
  else none

inductive Op (Context : Type)
  | recordHistory (enabled : Bool) (contextRecorder : Option (Unit → Context))
      (allocTraceMaxEntries : Nat) (when_ : RecordContext)
  | recordTrace (entry : TraceEntry) (time : Nat) (context : Option Context)

def Op.run : Op Context → M Context Unit
  | .recordHistory enabled contextRecorder maxEntries when_ =>
    Tracing.recordHistory enabled contextRecorder maxEntries when_
  | .recordTrace entry time context => Tracing.recordTrace entry time context

inductive Run : List (AllocTrace Context × Op Context) → AllocTrace Context → Prop
  | start : Run [] {}
  | returns {past : List (AllocTrace Context × Op Context)} {trace after : AllocTrace Context}
      (op : Op Context) : Run past trace → op.run trace = .ok () after →
      Run ((trace, op) :: past) after
  | throws {past : List (AllocTrace Context × Op Context)} {trace after : AllocTrace Context}
      (op : Op Context) (exception : Exn) : Run past trace → op.run trace = .error exception after →
      exception ≠ .undefinedBehaviour → Run ((trace, op) :: past) after

def AllocTrace.ring (trace : AllocTrace Context) : RingBuffer (Traced Context) where
  entries := trace.allocTrace
  next := trace.allocTraceNext
  count := trace.recorded.length
  capacity := trace.allocTraceMaxEntries

def ofAllocator (state : DeviceCachingAllocator) (recorded : List (Traced Unit)) :
    AllocTrace Unit where
  recordHistory := state.recordHistory
  allocTrace := state.allocTrace.map (⟨·, 0, none⟩)
  allocTraceNext := state.allocTraceNext
  allocTraceMaxEntries := state.allocTraceMaxEntries
  recorded := recorded

end TorchSupa.Tracing
