import TorchSupa.SymmMem.IpcChannel
import Mathlib.Data.List.Basic

/-!
Every descriptor arrives at the place of the rank it comes from: what is in flight between two
neighbours is the part of the sender's messages that the receiver has not taken yet.
-/

namespace TorchSupa.SymmMem.IpcChannel

open Function List Nat Option

section Numbers

variable {ring : Ring} {rank other step : Nat}

section

variable (below : rank < ring.worldSize)
include below

theorem srcOf_eq (le : step ≤ ring.worldSize) :
    ring.srcOf rank step = if step ≤ rank then rank - step else rank + ring.worldSize - step := by
  unfold Ring.srcOf
  split
  · rw [show rank + ring.worldSize - step = rank - step + ring.worldSize by omega,
      add_mod_right, mod_eq_of_lt (by omega)]
  · exact mod_eq_of_lt (by omega)

theorem dstRank_eq :
    ring.dstRank rank = if rank + 1 = ring.worldSize then 0 else rank + 1 := by
  unfold Ring.dstRank
  split
  · next last => rw [last, mod_self]
  · exact mod_eq_of_lt (by omega)

theorem dstRank_lt : ring.dstRank rank < ring.worldSize := mod_lt _ (by omega)

theorem srcOf_zero : ring.srcOf rank 0 = rank := by
  rw [srcOf_eq below (zero_le _)]
  simp

end

theorem srcOf_dstRank (step : Nat) (below : rank < ring.worldSize) (le : step + 1 ≤ ring.worldSize) :
    ring.srcOf (ring.dstRank rank) (step + 1) = ring.srcOf rank step := by
  rw [srcOf_eq (dstRank_lt below) le, srcOf_eq below (by omega), dstRank_eq below]
  split <;> split <;> split <;> omega

variable (below : rank < ring.worldSize)
include below

theorem dstRank_inj (also : other < ring.worldSize)
    (same : ring.dstRank rank = ring.dstRank other) : rank = other := by
  rw [dstRank_eq below, dstRank_eq also] at same
  split at same <;> split at same <;> omega

theorem srcOf_inj {first second : Nat}
    (le : first < ring.worldSize) (also : second < ring.worldSize)
    (same : ring.srcOf rank first = ring.srcOf rank second) : first = second := by
  rw [srcOf_eq below (by omega), srcOf_eq below (by omega)] at same
  split at same <;> split at same <;> omega

theorem exists_srcOf (also : other < ring.worldSize) :
    ∃ step < ring.worldSize, ring.srcOf rank step = other := by
  by_cases le : other ≤ rank
  · refine ⟨rank - other, by omega, ?_⟩
    rw [srcOf_eq below (by omega), if_pos (by omega)]
    omega
  · refine ⟨rank + ring.worldSize - other, by omega, ?_⟩
    rw [srcOf_eq below (by omega), if_neg (by omega)]
    omega

end Numbers

section Invariant

def Ring.sent (ring : Ring) : Point → Nat
  | .gathering step sent => if sent then step else step - 1
  | _ => ring.worldSize - 1

def Ring.received (ring : Ring) : Point → Nat
  | .gathering step _ => step - 1
  | _ => ring.worldSize - 1

def Point.begun : Point → Bool
  | .gathering _ _ => false
  | .gathered => false
  | _ => true

def Point.told (rank : Nat) : Point → Bool
  | .broadcasting dstRank => decide (rank < dstRank)
  | .returned => true
  | _ => false

variable (ring : Ring) (given : Nat → Int)

def World.passed (world : World) (rank : Nat) : Option (Option File) :=
  (world.processes rank).refers (given rank)

def World.ringPart (world : World) (sender receiver : Nat) : List (Option (Option File)) :=
  if receiver = ring.dstRank sender then
    ((List.range (ring.sent (world.processes sender).point)).drop
      (ring.received (world.processes receiver).point)).map fun index =>
        world.passed given (ring.srcOf sender index)
  else []

def World.broadcastPart (world : World) (sender receiver : Nat) :
    List (Option (Option File)) :=
  if sender = ring.srcRank ∧ receiver ≠ ring.srcRank ∧
      (world.processes sender).point.told receiver = true ∧
      (world.processes receiver).point ≠ .returned then
    [(world.processes sender).refers (world.processes sender).fd]
  else []

structure Ringing (world : World) : Prop where
  steps : ∀ rank < ring.worldSize, ∀ step sent,
    (world.processes rank).point = .gathering step sent → 1 ≤ step ∧ step < ring.worldSize
  barrier : ∀ rank < ring.worldSize, (world.processes rank).point.begun = true →
    ∀ other < ring.worldSize, (world.processes other).point.isGathering = false
  ahead : ∀ rank < ring.worldSize, ring.received (world.processes (ring.dstRank rank)).point ≤
    ring.sent (world.processes rank).point
  latest : ∀ rank < ring.worldSize, (world.processes rank).point.begun = false →
    (world.processes rank).fd = (world.processes rank).fds
      (ring.srcOf rank (ring.received (world.processes rank).point))
  own : ∀ rank < ring.worldSize, (world.processes rank).fds rank = given rank
  heard : ∀ rank < ring.worldSize, ∀ step, 0 < step →
    step ≤ ring.received (world.processes rank).point → ∃ message,
      (world.processes rank).refers ((world.processes rank).fds (ring.srcOf rank step)) =
        some message ∧ world.passed given (ring.srcOf rank step) = some message
  channels : ∀ sender < ring.worldSize, ∀ receiver < ring.worldSize,
    (world.channels sender receiver).map some =
      world.ringPart ring given sender receiver ++ world.broadcastPart ring sender receiver
  source : ∀ rank < ring.worldSize, ∀ dstRank,
    (world.processes rank).point = .broadcasting dstRank →
      rank = ring.srcRank ∧ dstRank < ring.worldSize
  listener : ∀ rank < ring.worldSize, (world.processes rank).point = .awaiting →
    rank ≠ ring.srcRank
  answers : ∀ rank < ring.worldSize, (world.processes rank).point = .returned →
    rank ≠ ring.srcRank → (world.processes ring.srcRank).point.told rank = true ∧ ∃ message,
      (world.processes rank).refers (world.processes rank).fd = some message ∧
        (world.processes ring.srcRank).refers (world.processes ring.srcRank).fd = some message

end Invariant

section Facts

variable {ring : Ring} {given : Nat → Int} {world : World} {rank other sender receiver : Nat}

open World

@[simp]
theorem setProcess_processes (process : Process) (other : Nat) :
    (world.setProcess rank process).processes other =
      if other = rank then process else world.processes other := by
  simp [setProcess, update_apply]

@[simp]
theorem setProcess_channels (process : Process) :
    (world.setProcess rank process).channels = world.channels := rfl

@[simp]
theorem push_processes (message : Option File) :
    (world.push sender receiver message).processes = world.processes := rfl

@[simp]
theorem pop_processes : (world.pop sender receiver).processes = world.processes := rfl

theorem push_channels (message : Option File) (one two : Nat) :
    (world.push sender receiver message).channels one two =
      world.channels one two ++ if one = sender ∧ two = receiver then [message] else [] := by
  simp only [push, update_apply]
  by_cases first : one = sender <;> by_cases second : two = receiver <;>
    simp [first, second]

theorem pop_channels (one two : Nat) : (world.pop sender receiver).channels one two =
      if one = sender ∧ two = receiver then (world.channels one two).tail
      else world.channels one two := by
  simp only [pop, update_apply]
  by_cases first : one = sender <;> by_cases second : two = receiver <;>
    simp [first, second]

variable {point : Point}

theorem sent_of_past (past : point.isGathering = false) :
    ring.sent point = ring.worldSize - 1 := by
  cases point <;> first | rfl | cases past

theorem received_of_past (past : point.isGathering = false) :
    ring.received point = ring.worldSize - 1 := by
  cases point <;> first | rfl | cases past

theorem begun_of_told (told : point.told rank = true) : point.begun = true := by
  cases point <;> simp [Point.told, Point.begun] at told ⊢

theorem broadcastPart_of_pending (ring : Ring)
    (pending : (world.processes sender).point.begun = false)
    (receiver : Nat) : world.broadcastPart ring sender receiver = [] := by
  apply if_neg
  rintro ⟨_, _, told, _⟩
  rw [begun_of_told told] at pending
  cases pending

theorem Ringing.pending (ringing : Ringing ring given world) (below : rank < ring.worldSize)
    (busy : (world.processes rank).point.isGathering = true) (member : other < ring.worldSize) :
    (world.processes other).point.begun = false := by
  by_contra begun
  rw [ringing.barrier other member (by simpa using begun) rank below] at busy
  cases busy

theorem ringPart_of_past (past : (world.processes sender).point.isGathering = false)
    (also : (world.processes receiver).point.isGathering = false) :
    world.ringPart ring given sender receiver = [] := by
  unfold ringPart
  split
  · rw [sent_of_past past, received_of_past also]
    simp
  · rfl

theorem Ringing.in_flight (ringing : Ringing ring given world) (below : sender < ring.worldSize)
    (also : receiver < ring.worldSize) {message : Option (Option File)}
    (there : message ∈ world.ringPart ring given sender receiver ++
      world.broadcastPart ring sender receiver) : ∃ file, message = some file := by
  rw [← ringing.channels sender below receiver also] at there
  obtain ⟨file, _, same⟩ := mem_map.mp there
  exact ⟨file, same.symm⟩

theorem Ringing.grow (ringing : Ringing ring given world) {after : World}
    (points : ∀ rank, (after.processes rank).point = (world.processes rank).point)
    (fd : ∀ rank, (after.processes rank).fd = (world.processes rank).fd)
    (fds : ∀ rank, (after.processes rank).fds = (world.processes rank).fds)
    (channels : after.channels = world.channels)
    (grows : ∀ rank fd message, (world.processes rank).refers fd = some message →
      (after.processes rank).refers fd = some message) : Ringing ring given after where
  steps rank below step sent at_ := ringing.steps rank below step sent (points rank ▸ at_)
  barrier rank below begun other also := by
    rw [points] at begun ⊢
    exact ringing.barrier rank below begun other also
  ahead rank below := by
    rw [points, points]
    exact ringing.ahead rank below
  latest rank below before := by
    rw [points] at before
    rw [fd, fds, points]
    exact ringing.latest rank below before
  own rank below := by
    rw [fds]
    exact ringing.own rank below
  heard rank below step positive le := by
    rw [points] at le
    obtain ⟨message, here, there⟩ := ringing.heard rank below step positive le
    rw [fds]
    exact ⟨message, grows _ _ _ here, grows _ _ _ there⟩
  channels sender below receiver also := by
    rw [channels, ringing.channels sender below receiver also]
    have open' {message : Option (Option File)}
        (there : message ∈ world.ringPart ring given sender receiver ++
          world.broadcastPart ring sender receiver) := ringing.in_flight below also there
    have first : world.ringPart ring given sender receiver =
        after.ringPart ring given sender receiver := by
      unfold ringPart at open' ⊢
      rw [points, points]
      split
      · next here =>
          apply map_congr_left
          intro index there
          obtain ⟨file, same⟩ := open' (mem_append_left _ (by
            rw [if_pos here]
            exact mem_map_of_mem there))
          rw [same]
          exact (grows _ _ _ same).symm
      · rfl
    have second : world.broadcastPart ring sender receiver =
        after.broadcastPart ring sender receiver := by
      unfold broadcastPart at open' ⊢
      rw [points, points, fd]
      split
      · next here =>
          obtain ⟨file, same⟩ := open' (mem_append_right _ (by
            rw [if_pos here]
            exact .head _))
          rw [same, grows _ _ _ same]
      · rfl
    rw [first, second]
  source rank below dstRank at_ := ringing.source rank below dstRank (points rank ▸ at_)
  listener rank below at_ := ringing.listener rank below (points rank ▸ at_)
  answers rank below at_ apart := by
    rw [points] at at_ ⊢
    obtain ⟨told, message, here, there⟩ := ringing.answers rank below at_ apart
    refine ⟨told, message, ?_, ?_⟩
    · rw [fd]
      exact grows _ _ _ here
    · rw [fd]
      exact grows _ _ _ there

end Facts

section Steps

variable {ring : Ring} {given : Nat → Int} {world : World} {rank sender : Nat}

variable {after : World}

variable {descriptor : Int}

theorem Ringing.openFile (ringing : Ringing ring given world) {file : File}
    (opened : world.openFile rank descriptor file = some after) :
    Ringing ring given after := by
  unfold World.openFile at opened
  obtain ⟨unused, rfl⟩ : _ ∧ _ = after := by
    simpa only [ite_none_right_eq_some, some.injEq] using opened
  apply ringing.grow
  · intro other
    simp only [setProcess_processes]
    split <;> simp [*]
  · intro other
    simp only [setProcess_processes]
    split <;> simp [*]
  · intro other
    simp only [setProcess_processes]
    split <;> simp [*]
  · rfl
  · intro other fd message refers
    simp only [setProcess_processes]
    split
    · next here =>
        subst here
        unfold Process.refers at refers ⊢
        by_cases same : fd = descriptor
        · subst same
          split at refers
          · next minus => rwa [if_pos minus]
          · rw [unused] at refers
            cases refers
        · simpa [same] using refers
    · exact refers

theorem passed_setProcess (process : Process)
    (table : process.table = (world.processes rank).table) (other : Nat) :
    (world.setProcess rank process).passed given other = world.passed given other := by
  unfold World.passed Process.refers
  simp only [setProcess_processes]
  by_cases here : other = rank
  · rw [if_pos here, table, here]
  · rw [if_neg here]

theorem Ringing.moved (ringing : Ringing ring given world) (below : rank < ring.worldSize)
    (busy : (world.processes rank).point.isGathering = true) (process : Process)
    (processes : after.processes = (world.setProcess rank process).processes)
    (table : process.table = (world.processes rank).table) (pending : process.point.begun = false)
    (steps : ∀ step sent, process.point = .gathering step sent → 1 ≤ step ∧ step < ring.worldSize)
    (latest : process.fd = process.fds (ring.srcOf rank (ring.received process.point)))
    (own : process.fds rank = given rank)
    (heard : ∀ step, 0 < step → step ≤ ring.received process.point → ∃ message,
      process.refers (process.fds (ring.srcOf rank step)) = some message ∧
        world.passed given (ring.srcOf rank step) = some message)
    (sent : ring.sent (world.processes rank).point ≤ ring.sent process.point)
    (received : ∀ other < ring.worldSize, ring.dstRank other = rank →
      ring.received process.point ≤ ring.sent (world.processes other).point)
    (channels : ∀ sender < ring.worldSize, ∀ receiver < ring.worldSize,
      (after.channels sender receiver).map some =
        (world.setProcess rank process).ringPart ring given sender receiver) :
    Ringing ring given after := by
  have at_ (other : Nat) : after.processes other =
      if other = rank then process else world.processes other := by
    rw [processes, setProcess_processes]
  have passed (other : Nat) : after.passed given other = world.passed given other := by
    rw [← passed_setProcess process table]
    unfold World.passed
    rw [processes]
  have nobody (other : Nat) (member : other < ring.worldSize) :
      (after.processes other).point.begun = false := by
    rw [at_]
    split
    · exact pending
    · exact ringing.pending below busy member
  have smaller : 2 ≤ ring.worldSize := by
    cases point : (world.processes rank).point with
    | gathering step sent =>
      have bounds := ringing.steps rank below step sent point
      omega
    | _ =>
      rw [point] at busy
      cases busy
  have apart : ring.dstRank rank ≠ rank := by
    rw [dstRank_eq below]
    split <;> omega
  exact {
    steps := fun other member step sent here => by
      rw [at_] at here
      split at here
      · exact steps step sent here
      · exact ringing.steps other member step sent here
    barrier := fun other member begun => by
      rw [nobody other member] at begun
      cases begun
    ahead := fun other member => by
      rw [at_, at_]
      by_cases here : other = rank
      · subst here
        rw [if_neg apart, if_pos rfl]
        exact Nat.le_trans (ringing.ahead other member) sent
      · rw [if_neg here]
        split
        · next next => exact received other member next
        · exact ringing.ahead other member
    latest := fun other member _ => by
      rw [at_]
      split
      · next here =>
          subst here
          exact latest
      · next other' =>
          have before := nobody other member
          rw [at_, if_neg other'] at before
          exact ringing.latest other member before
    own := fun other member => by
      rw [at_]
      split
      · next here =>
          subst here
          exact own
      · exact ringing.own other member
    heard := fun other member step positive le => by
      rw [at_] at le ⊢
      rw [passed]
      split at le
      · next here =>
          subst here
          rw [if_pos rfl]
          exact heard step positive le
      · next other' =>
          rw [if_neg other']
          exact ringing.heard other member step positive le
    channels := fun sender member receiver also => by
      have none := broadcastPart_of_pending ring (nobody sender member) receiver
      have ring_ : after.ringPart ring given sender receiver =
          (world.setProcess rank process).ringPart ring given sender receiver := by
        unfold World.ringPart World.passed
        rw [processes]
      rw [none, append_nil, ring_]
      exact channels sender member receiver also
    source := fun other member dstRank here => by
      have before := nobody other member
      rw [here] at before
      cases before
    listener := fun other member here => by
      have before := nobody other member
      rw [here] at before
      cases before
    answers := fun other member here => by
      have before := nobody other member
      rw [here] at before
      cases before }

theorem dstRank_ne (below : rank < ring.worldSize) (several : 2 ≤ ring.worldSize) :
    ring.dstRank rank ≠ rank := by
  rw [dstRank_eq below]
  split <;> omega

variable {message : Option File}

section

variable (ringing : Ringing ring given world)
include ringing

variable {step : Nat}

theorem Ringing.sendGathering (below : rank < ring.worldSize)
    (at_ : (world.processes rank).point = .gathering step false)
    (refers : (world.processes rank).refers (world.processes rank).fd = some message) :
    Ringing ring given ((world.push rank (ring.dstRank rank) message).setProcess rank
      { world.processes rank with point := .gathering step true }) := by
  have bounds := ringing.steps rank below step false at_
  have busy : (world.processes rank).point.isGathering = true := by
    rw [at_]
    rfl
  have latest := ringing.latest rank below (ringing.pending below busy below)
  have heard := ringing.heard rank below
  have ahead := ringing.ahead rank below
  rw [at_] at latest heard ahead
  have passed : world.passed given (ring.srcOf rank (step - 1)) = some message := by
    change _ = (world.processes rank).fds (ring.srcOf rank (step - 1)) at latest
    rw [latest] at refers
    by_cases first : step - 1 = 0
    · rw [first, srcOf_zero below, ringing.own rank below] at refers
      rw [first, srcOf_zero below]
      exact refers
    · obtain ⟨got, here, there⟩ := heard (step - 1) (by omega) (Nat.le_refl _)
      rw [here] at refers
      rw [there, refers]
  refine ringing.moved below busy { world.processes rank with point := .gathering step true }
    ?_ rfl rfl ?_ latest (ringing.own rank below) heard ?_ ?_ ?_
  · rfl
  · rintro _ _ ⟨rfl, rfl⟩
    exact bounds
  · rw [at_]
    simp [Ring.sent]
  · rintro other member rfl
    have behind := ringing.ahead other member
    rw [at_] at behind
    exact behind
  · intro sender member receiver also
    have before := ringing.channels sender member receiver also
    rw [broadcastPart_of_pending ring (ringing.pending below busy member), append_nil] at before
    simp only [setProcess_channels, push_channels, map_append, before]
    unfold World.ringPart
    simp only [passed_setProcess { world.processes rank with point := .gathering step true } rfl,
      setProcess_processes]
    have apart := dstRank_ne below (by omega)
    by_cases next : receiver = ring.dstRank sender
    · by_cases here : sender = rank
      · subst here
        subst next
        have split_ : range step = range (step - 1) ++ [step - 1] := by
          rw [← range_succ, Nat.succ_eq_add_one, Nat.sub_add_cancel bounds.1]
        have short : ring.received (world.processes (ring.dstRank sender)).point ≤ step - 1 := ahead
        simp [apart, at_, Ring.sent, split_, drop_append_of_le_length, short, passed]
      · have same : ring.received (if receiver = rank then
            { world.processes rank with point := .gathering step true }
            else world.processes receiver).point =
            ring.received (world.processes receiver).point := by
          split
          · next mine => simp [mine, at_, Ring.received]
          · rfl
        simp [next, here]
        rw [← next, same]
    · simp [next]
      rintro rfl
      exact next

theorem Ringing.next_message (below : rank < ring.worldSize)
    (member : sender < ring.worldSize) {sent : Bool}
    (at_ : (world.processes rank).point = .gathering step sent)
    (head : (world.channels sender rank).head? = some message) :
    rank = ring.dstRank sender ∧ step ≤ ring.sent (world.processes sender).point ∧
      world.passed given (ring.srcOf rank step) = some message ∧
      (world.channels sender rank).tail.map some =
        ((List.range (ring.sent (world.processes sender).point)).drop step).map fun index =>
          world.passed given (ring.srcOf sender index) := by
  have bounds := ringing.steps rank below step sent at_
  have busy : (world.processes rank).point.isGathering = true := by
    rw [at_]
    rfl
  have flight := ringing.channels sender member rank below
  rw [broadcastPart_of_pending ring (ringing.pending below busy member), append_nil] at flight
  unfold World.ringPart at flight
  obtain ⟨rest, here⟩ := head?_eq_some_iff.mp head
  by_cases next : rank = ring.dstRank sender
  · have more : step - 1 < (range (ring.sent (world.processes sender).point)).length := by
      by_contra short
      rw [if_pos next, at_, here, Ring.received, drop_eq_nil_of_le (Nat.not_lt.mp short)] at flight
      cases flight
    have again : step - 1 + 1 = step := Nat.sub_add_cancel bounds.1
    rw [if_pos next, at_, here, Ring.received, drop_eq_getElem_cons more, again] at flight
    simp only [map_cons, cons.injEq, getElem_range] at flight
    rw [length_range] at more
    refine ⟨next, by omega, ?_, ?_⟩
    · have earlier := srcOf_dstRank (step - 1) member (by omega)
      rw [again, ← next] at earlier
      rw [earlier, flight.1]
    · rw [here]
      exact flight.2
  · rw [if_neg next, here] at flight
    cases flight

theorem Ringing.recvGathering (below : rank < ring.worldSize)
    (member : sender < ring.worldSize) {fd : Int}
    (at_ : (world.processes rank).point = .gathering step true)
    (head : (world.channels sender rank).head? = some message)
    (refers : (world.processes rank).refers fd = some message) :
    Ringing ring given ((world.pop sender rank).setProcess rank { world.processes rank with
      fd := fd
      fds := update (world.processes rank).fds (ring.srcOf rank step) fd
      point := ring.enterStep (step + 1) }) := by
  have bounds := ringing.steps rank below step true at_
  have busy : (world.processes rank).point.isGathering = true := by
    rw [at_]
    rfl
  obtain ⟨next, ready, passed, rest⟩ := ringing.next_message below member at_ head
  have heard := ringing.heard rank below
  rw [at_] at heard
  have received : ring.received (ring.enterStep (step + 1)) = step := by
    unfold Ring.enterStep
    split
    · simp only [Ring.received]
      omega
    · simp only [Ring.received]
      omega
  have sent : ring.sent (ring.enterStep (step + 1)) = step := by
    unfold Ring.enterStep
    split
    · simp [Ring.sent]
    · simp only [Ring.sent]
      omega
  have apart : ring.srcOf rank step ≠ rank := by
    rw [srcOf_eq below (by omega)]
    split <;> omega
  refine ringing.moved below busy { world.processes rank with
      fd := fd
      fds := update (world.processes rank).fds (ring.srcOf rank step) fd
      point := ring.enterStep (step + 1) } ?_ rfl ?_ ?_ ?_ ?_ ?_ ?_ ?_ ?_
  · rfl
  · unfold Ring.enterStep
    split <;> rfl
  · intro other done here
    simp only [Ring.enterStep] at here
    split at here
    · cases here
      omega
    · cases here
  · simp [received]
  · simpa [apart.symm] using ringing.own rank below
  · intro other positive le
    change other ≤ ring.received (ring.enterStep (step + 1)) at le
    rw [received] at le
    by_cases same : other = step
    · subst same
      refine ⟨message, ?_, passed⟩
      change (world.processes rank).refers
        (update (world.processes rank).fds _ fd (ring.srcOf rank other)) = _
      rw [update_self, refers]
    · have different : ring.srcOf rank other ≠ ring.srcOf rank step := fun equal =>
        same (srcOf_inj below (by omega) bounds.2 equal)
      obtain ⟨got, here, there⟩ := heard other positive (by simp only [Ring.received]; omega)
      refine ⟨got, ?_, there⟩
      change (world.processes rank).refers
        (update (world.processes rank).fds _ fd (ring.srcOf rank other)) = _
      rw [update_of_ne different, here]
  · change _ ≤ ring.sent (ring.enterStep (step + 1))
    rw [at_, sent]
    exact Nat.le_refl _
  · intro other also mine
    change ring.received (ring.enterStep (step + 1)) ≤ _
    obtain rfl : other = sender := dstRank_inj also member (mine.trans next)
    rw [received]
    exact ready
  · intro first also second another
    have before := ringing.channels first also second another
    rw [broadcastPart_of_pending ring (ringing.pending below busy also), append_nil] at before
    simp only [setProcess_channels, pop_channels]
    unfold World.ringPart at before ⊢
    simp only [passed_setProcess { world.processes rank with
      fd := fd
      fds := update (world.processes rank).fds (ring.srcOf rank step) fd
      point := ring.enterStep (step + 1) } rfl, setProcess_processes]
    have same : ring.sent (if first = rank then { world.processes rank with
        fd := fd
        fds := update (world.processes rank).fds (ring.srcOf rank step) fd
        point := ring.enterStep (step + 1) } else world.processes first).point =
        ring.sent (world.processes first).point := by
      split
      · next mine => rw [sent, mine, at_]; rfl
      · rfl
    rw [same]
    by_cases here : first = sender ∧ second = rank
    · obtain ⟨rfl, rfl⟩ := here
      rw [if_pos ⟨rfl, rfl⟩, rest, if_pos next]
      simp [received]
    · rw [if_neg here, before]
      by_cases mine : second = rank
      · subst mine
        have other : ¬second = ring.dstRank first := fun equal =>
          here ⟨dstRank_inj also member (equal.symm.trans next), rfl⟩
        rw [if_neg other, if_neg other]
      · simp [mine]

variable (idle : ∀ other < ring.worldSize, (world.processes other).point.isGathering = false)
include idle

theorem Ringing.past
    (process : Process) (processes : after.processes = (world.setProcess rank process).processes)
    (table : process.table = (world.processes rank).table)
    (fds : process.fds = (world.processes rank).fds) (begun : process.point.begun = true)
    (source : ∀ dstRank, process.point = .broadcasting dstRank →
      rank = ring.srcRank ∧ dstRank < ring.worldSize)
    (listener : process.point = .awaiting → rank ≠ ring.srcRank)
    (channels : ∀ sender < ring.worldSize, ∀ receiver < ring.worldSize,
      (after.channels sender receiver).map some =
        (world.setProcess rank process).broadcastPart ring sender receiver)
    (answers : ∀ other < ring.worldSize,
      ((world.setProcess rank process).processes other).point = .returned → other ≠ ring.srcRank →
      ((world.setProcess rank process).processes ring.srcRank).point.told other = true ∧
        ∃ message, ((world.setProcess rank process).processes other).refers
            ((world.setProcess rank process).processes other).fd = some message ∧
          ((world.setProcess rank process).processes ring.srcRank).refers
            ((world.setProcess rank process).processes ring.srcRank).fd = some message) :
    Ringing ring given after := by
  have at_ (other : Nat) : after.processes other =
      if other = rank then process else world.processes other := by
    rw [processes, setProcess_processes]
  have passed (other : Nat) : after.passed given other = world.passed given other := by
    rw [← passed_setProcess process table]
    unfold World.passed
    rw [processes]
  have ended : process.point.isGathering = false := by
    cases point : process.point <;> rw [point] at begun <;> first | rfl | cases begun
  have still (other : Nat) (member : other < ring.worldSize) :
      (after.processes other).point.isGathering = false := by
    rw [at_]
    split
    · exact ended
    · exact idle other member
  have refers (other : Nat) (fd : Int) :
      (after.processes other).refers fd = (world.processes other).refers fd := by
    rw [at_]
    unfold Process.refers
    by_cases here : other = rank
    · rw [if_pos here, table, here]
    · rw [if_neg here]
  have same (other : Nat) : (after.processes other).fds = (world.processes other).fds := by
    rw [at_]
    split
    · next here => rw [fds, here]
    · rfl
  exact {
    steps := fun other member step sent here => by
      have no := still other member
      rw [here] at no
      cases no
    barrier := fun _ _ _ other member => still other member
    ahead := fun other member => Nat.le_of_eq (by
      rw [sent_of_past (still other member), received_of_past (still _ (dstRank_lt member))])
    latest := fun other member before => by
      rw [at_] at before
      split at before
      · rw [begun] at before
        cases before
      · next apart =>
          rw [at_, if_neg apart]
          exact ringing.latest other member before
    own := fun other member => by
      rw [same]
      exact ringing.own other member
    heard := fun other member step positive le => by
      rw [received_of_past (still other member)] at le
      rw [same, refers, passed]
      apply ringing.heard other member step positive
      rw [received_of_past (idle other member)]
      exact le
    channels := fun sender member receiver also => by
      rw [ringPart_of_past (still sender member) (still receiver also), nil_append]
      have part : after.broadcastPart ring sender receiver =
          (world.setProcess rank process).broadcastPart ring sender receiver := by
        unfold World.broadcastPart
        rw [processes]
      rw [part]
      exact channels sender member receiver also
    source := fun other member dstRank here => by
      rw [at_] at here
      split at here
      · next mine => exact mine ▸ source dstRank here
      · exact ringing.source other member dstRank here
    listener := fun other member here => by
      rw [at_] at here
      split at here
      · next mine => exact mine ▸ listener here
      · exact ringing.listener other member here
    answers := fun other member here apart => by
      rw [processes] at here ⊢
      exact answers other member here apart }

theorem Ringing.flight_past
    {receiver : Nat} (below : sender < ring.worldSize) (also : receiver < ring.worldSize) :
    (world.channels sender receiver).map some = world.broadcastPart ring sender receiver := by
  rw [ringing.channels sender below receiver also,
    ringPart_of_past (idle sender below) (idle receiver also), nil_append]

end

theorem told_next (dstRank : Nat) {other : Nat} (member : other < ring.worldSize) :
    Point.told other (if dstRank + 1 < ring.worldSize then .broadcasting (dstRank + 1)
      else .returned) = true ↔ other < dstRank ∨ other = dstRank := by
  split
  · simp only [Point.told, decide_eq_true_eq]
    omega
  · simp only [Point.told, true_iff]
    omega

section

variable (ringing : Ringing ring given world) (below : rank < ring.worldSize)
include ringing below

theorem Ringing.sendBroadcast {dstRank : Nat} (message : Option File)
    (at_ : (world.processes rank).point = .broadcasting dstRank)
    (refers : dstRank ≠ rank → (world.processes rank).refers (world.processes rank).fd =
      some message)
    (processes : after.processes = (world.setProcess rank { world.processes rank with
      point := if dstRank + 1 < ring.worldSize then .broadcasting (dstRank + 1)
        else .returned }).processes)
    (channels : ∀ sender receiver, after.channels sender receiver = world.channels sender receiver ++
      if dstRank ≠ rank ∧ sender = rank ∧ receiver = dstRank then [message] else []) :
    Ringing ring given after := by
  obtain ⟨rfl, inside⟩ := ringing.source rank below dstRank at_
  have idle := ringing.barrier ring.srcRank below (by rw [at_]; rfl)
  refine ringing.past idle { world.processes ring.srcRank with
    point := if dstRank + 1 < ring.worldSize then .broadcasting (dstRank + 1) else .returned }
    processes rfl rfl ?_ ?_ ?_ ?_ ?_
  · split <;> rfl
  · intro next here
    split at here
    · cases here
      exact ⟨rfl, by omega⟩
    · cases here
  · intro here
    split at here <;> cases here
  · intro sender member receiver also
    rw [channels, map_append, ringing.flight_past idle member also]
    have next := told_next dstRank also
    unfold World.broadcastPart
    simp only [setProcess_processes]
    generalize (if dstRank + 1 < ring.worldSize then Point.broadcasting (dstRank + 1)
      else Point.returned) = point at next
    by_cases from_ : sender = ring.srcRank
    · subst from_
      by_cases self : receiver = ring.srcRank
      · subst self
        simp only [ne_eq, not_true_eq_false, false_and, and_false, ↓reduceIte, nil_append,
          true_and, map_eq_nil_iff, ite_eq_right_iff]
        rintro ⟨other, same⟩
        exact absurd same.symm other
      · by_cases here : receiver = dstRank
        · subst here
          have waits : (world.processes receiver).point ≠ .returned := fun returned => by
            have told := (ringing.answers receiver also returned self).1
            rw [at_] at told
            simp [Point.told] at told
          have known := refers self
          have told : point.told receiver = true := next.mpr (.inr rfl)
          have untold : (Point.broadcasting receiver).told receiver = false := by
            simp [Point.told]
          simp only [Process.refers] at known ⊢
          simp [self, waits, told, at_, untold, known]
        · have told : point.told receiver = (Point.broadcasting dstRank).told receiver := by
            rw [Bool.eq_iff_iff, next]
            simp [Point.told, here]
          simp only [Process.refers]
          simp [self, here, told, at_]
    · simp [from_]
  · intro other member here apart
    simp only [setProcess_processes, if_neg apart, if_pos] at here ⊢
    obtain ⟨told, got, mine, its⟩ := ringing.answers other member here apart
    rw [at_] at told
    refine ⟨(told_next _ member).mpr (.inl (by simpa [Point.told] using told)), got, mine, its⟩

theorem Ringing.recvAwaiting
    (member : sender < ring.worldSize) {fd : Int} (at_ : (world.processes rank).point = .awaiting)
    (head : (world.channels sender rank).head? = some message)
    (refers : (world.processes rank).refers fd = some message) :
    Ringing ring given ((world.pop sender rank).setProcess rank { world.processes rank with
      fd := fd
      point := .returned }) := by
  have idle := ringing.barrier rank below (by rw [at_]; rfl)
  have apart := ringing.listener rank below at_
  have flight := ringing.flight_past idle member below
  obtain ⟨from_, told, origin⟩ : sender = ring.srcRank ∧
      (world.processes sender).point.told rank = true ∧
      (world.processes sender).refers (world.processes sender).fd = some message ∧
      (world.channels sender rank).tail = [] := by
    unfold World.broadcastPart at flight
    split at flight
    · next here =>
        obtain ⟨rest, begins⟩ := head?_eq_some_iff.mp head
        rw [begins] at flight ⊢
        simp only [map_cons, cons.injEq, map_eq_nil_iff] at flight
        exact ⟨here.1, here.2.2.1, flight.1.symm, flight.2⟩
    · rw [map_eq_nil_iff] at flight
      rw [flight] at head
      cases head
  subst from_
  refine ringing.past idle { world.processes rank with fd := fd, point := .returned } ?_ rfl rfl rfl
    ?_ ?_ ?_ ?_
  · rfl
  · intro dstRank here
    cases here
  · intro here
    cases here
  · intro first also second another
    have before := ringing.flight_past idle also another
    simp only [setProcess_channels, pop_channels]
    by_cases here : first = ring.srcRank ∧ second = rank
    · obtain ⟨rfl, rfl⟩ := here
      simp [World.broadcastPart, origin.2]
    · rw [if_neg here, before]
      unfold World.broadcastPart
      by_cases source : first = ring.srcRank
      · have other : second ≠ rank := fun same => here ⟨source, same⟩
        simp [source, other, apart.symm]
      · simp [source]
  · intro other also here source
    have same : ring.srcRank ≠ rank := apart.symm
    simp only [setProcess_processes, if_neg same] at here ⊢
    by_cases mine : other = rank
    · subst mine
      rw [if_pos rfl]
      exact ⟨told, message, refers, origin.1⟩
    · rw [if_neg mine] at here ⊢
      exact ringing.answers other also here source

theorem Ringing.enterBroadcast (fd : Int) (at_ : (world.processes rank).point = .gathered)
    (idle : ∀ other < ring.worldSize, (world.processes other).point.isGathering = false) :
    Ringing ring given (world.setProcess rank { world.processes rank with
      fd := fd
      point := if rank = ring.srcRank then .broadcasting 0 else .awaiting }) := by
  refine ringing.past idle { world.processes rank with
      fd := fd
      point := if rank = ring.srcRank then .broadcasting 0 else .awaiting } rfl rfl rfl ?_ ?_ ?_ ?_ ?_
  · split <;> rfl
  · intro dstRank here
    split at here
    · next source =>
        cases here
        exact ⟨source, by omega⟩
    · cases here
  · intro here
    split at here
    · cases here
    · next other => exact other
  · intro sender member receiver also
    rw [setProcess_channels, ringing.flight_past idle member also]
    unfold World.broadcastPart
    by_cases from_ : sender = ring.srcRank
    · subst from_
      by_cases source : rank = ring.srcRank
      · subst source
        simp [at_, Point.told]
      · have still : (world.processes receiver).point = .returned ↔
            (if receiver = rank then { world.processes rank with
              fd := fd
              point := if rank = ring.srcRank then Point.broadcasting 0 else Point.awaiting }
            else world.processes receiver).point = .returned := by
          split
          · next mine => simp [mine, at_]
          · rfl
        simp only [setProcess_processes, if_neg (Ne.symm source), ne_eq, still]
    · simp [from_]
  · intro other also here apart
    simp only [setProcess_processes] at here ⊢
    by_cases source : rank = ring.srcRank
    · subst source
      rw [if_neg apart] at here
      have told := (ringing.answers other also here apart).1
      rw [at_] at told
      cases told
    · rw [if_neg (Ne.symm source)]
      by_cases mine : other = rank
      · subst mine
        rw [if_pos rfl, if_neg apart] at here
        cases here
      · rw [if_neg mine] at here ⊢
        exact ringing.answers other also here apart

end

theorem receive_spec {process received : Process}
    (took : process.receive message descriptor = some received) :
    received.refers received.fd = some message ∧ received.fds = process.fds ∧
      received.point = process.point ∧
      (∀ fd other, process.refers fd = some other → received.refers fd = some other) := by
  unfold Process.receive at took
  cases message with
  | none =>
    cases took
    exact ⟨rfl, rfl, rfl, fun _ _ refers => refers⟩
  | some file =>
    simp only [ite_none_right_eq_some, some.injEq] at took
    obtain ⟨⟨natural, unused⟩, rfl⟩ := took
    refine ⟨?_, rfl, rfl, ?_⟩
    · have open' : descriptor ≠ -1 := by omega
      simp [Process.refers, open']
    · intro fd other refers
      unfold Process.refers at refers ⊢
      by_cases minus : fd = -1
      · rwa [if_pos minus] at refers ⊢
      · rw [if_neg minus] at refers ⊢
        have apart : fd ≠ descriptor := by
          rintro rfl
          rw [unused] at refers
          cases refers
        simpa [apart] using refers

variable (ringing : Ringing ring given world)
include ringing

theorem Ringing.recvFd (below : rank < ring.worldSize) (member : sender < ring.worldSize)
    (received : world.recvFd ring rank sender descriptor = some after) :
    Ringing ring given after := by
  unfold World.recvFd at received
  simp only [bind_eq_bind, bind_eq_some_iff] at received
  obtain ⟨message, head, got, took, received⟩ := received
  obtain ⟨refers, fds, point, grows⟩ := receive_spec took
  -- First the process opens what it is given, then it takes note of it.
  let opened := world.setProcess rank { world.processes rank with table := got.table }
  have grown : Ringing ring given opened := by
    apply ringing.grow
    · intro other
      simp only [opened, setProcess_processes]
      split <;> simp [*]
    · intro other
      simp only [opened, setProcess_processes]
      split <;> simp [*]
    · intro other
      simp only [opened, setProcess_processes]
      split <;> simp [*]
    · rfl
    · intro other fd file known
      simp only [opened, setProcess_processes]
      split
      · next mine => exact grows fd file (mine ▸ known)
      · exact known
  have here : opened.processes rank = { world.processes rank with table := got.table } := by
    simp [opened]
  have overwritten (process : Process) : (opened.pop sender rank).setProcess rank process =
        (world.pop sender rank).setProcess rank process := by
    simp [opened, World.setProcess, World.pop, update_idem]
  split at received
  · next step at_ =>
      cases received
      have taken := grown.recvGathering below member (by rw [here]; exact at_) head
        (by rw [here]; exact refers)
      rw [overwritten, here] at taken
      simpa only [fds] using taken
  · next at_ =>
      cases received
      have taken := grown.recvAwaiting below member (by rw [here]; exact at_) head
        (by rw [here]; exact refers)
      rw [overwritten, here] at taken
      simpa only [← fds] using taken
  · cases received

theorem Ringing.sendFd (below : rank < ring.worldSize)
    (sent : world.sendFd ring rank = some after) : Ringing ring given after := by
  simp only [World.sendFd] at sent
  split at sent
  · next step at_ =>
      simp only [bind_eq_bind, bind_eq_some_iff, some.injEq] at sent
      obtain ⟨message, refers, rfl⟩ := sent
      exact ringing.sendGathering below at_ refers
  · next dstRank at_ =>
      by_cases self : dstRank = rank
      · rw [if_pos self] at sent
        cases sent
        refine ringing.sendBroadcast below none at_ (fun other => absurd self other) rfl ?_
        intro sender receiver
        simp [self]
      · rw [if_neg self] at sent
        simp only [bind_eq_bind, bind_eq_some_iff, some.injEq] at sent
        obtain ⟨message, refers, rfl⟩ := sent
        refine ringing.sendBroadcast below message at_ (fun _ => refers) rfl ?_
        intro sender receiver
        simp [push_channels, self]
  · cases sent

theorem Ringing.advance {action : Action}
    (taken : world.advance ring action = some after) : Ringing ring given after := by
  cases action with
  | sendFd rank =>
    obtain ⟨below, sent⟩ := ite_none_right_eq_some.mp taken
    exact ringing.sendFd below sent
  | recvFd rank sender descriptor =>
    obtain ⟨⟨below, member⟩, received⟩ := ite_none_right_eq_some.mp taken
    exact ringing.recvFd below member received
  | broadcast rank fd =>
    obtain ⟨below, entered⟩ := ite_none_right_eq_some.mp taken
    obtain ⟨⟨at_, idle⟩, enters⟩ := ite_none_right_eq_some.mp entered
    cases enters
    exact ringing.enterBroadcast below fd at_ idle
  | openFile rank descriptor file => exact ringing.openFile taken

end Steps

section Runs

theorem ringing_start (ring : Ring) (tables : Nat → Int → Option File) (given : Nat → Int) :
    Ringing ring given (World.start ring tables given) := by
  have point : ring.enterStep 1 = .gathering 1 false ∨
      ring.enterStep 1 = .gathered ∧ ring.worldSize ≤ 1 := by
    unfold Ring.enterStep
    split
    · exact .inl rfl
    · exact .inr ⟨rfl, by omega⟩
  have nobody : (ring.enterStep 1).begun = false := by
    rcases point with first | ⟨done, _⟩
    · rw [first]
      rfl
    · rw [done]
      rfl
  have received : ring.received (ring.enterStep 1) = 0 := by
    rcases point with first | ⟨done, few⟩
    · rw [first]
      rfl
    · rw [done]
      simp only [Ring.received]
      omega
  have sent : ring.sent (ring.enterStep 1) = 0 := by
    rcases point with first | ⟨done, few⟩
    · rw [first]
      rfl
    · rw [done]
      simp only [Ring.sent]
      omega
  exact {
    steps := fun rank below step sent here => by
      change ring.enterStep 1 = _ at here
      unfold Ring.enterStep at here
      split at here
      · cases here
        omega
      · cases here
    barrier := fun rank below begun => by
      change (ring.enterStep 1).begun = true at begun
      rw [nobody] at begun
      cases begun
    ahead := fun rank below => by
      change ring.received (ring.enterStep 1) ≤ _
      rw [received]
      exact zero_le _
    latest := fun rank below _ => by
      simp [World.start, received, srcOf_zero below]
    own := fun rank below => by simp [World.start]
    heard := fun rank below step positive le => by
      change step ≤ ring.received (ring.enterStep 1) at le
      omega
    channels := fun sender below receiver also => by
      rw [broadcastPart_of_pending ring nobody]
      unfold World.ringPart
      split
      · change [] = (drop _ (range (ring.sent (ring.enterStep 1)))).map _ ++ []
        rw [sent]
        simp
      · rfl
    source := fun rank below dstRank here => by
      change ring.enterStep 1 = _ at here
      rw [here] at nobody
      cases nobody
    listener := fun rank below here => by
      change ring.enterStep 1 = _ at here
      rw [here] at nobody
      cases nobody
    answers := fun rank below here => by
      change ring.enterStep 1 = _ at here
      rw [here] at nobody
      cases nobody }

theorem ringing_reachable {ring : Ring} {tables : Nat → Int → Option File} {given : Nat → Int}
    {world : World} (reached : (gathering ring tables given).Reachable (fun _ _ => True) world) :
    Ringing ring given world :=
  reached.invariant (fun _ begins => begins ▸ ringing_start ring tables given)
    fun _ _ _ ringing _ taken => ringing.advance taken

/-- When all ranks have returned from `all_gather_fds`, every descriptor refers to what its rank
passed; and what `broadcast_fds` returns refers to what the source passed, or is -1 as that is. -/
theorem fds_delivered (ring : Ring) (tables : Nat → Int → Option File) (given : Nat → Int)
    (world : World) (reached : (gathering ring tables given).Reachable (fun _ _ => True) world) :
    ((∀ rank < ring.worldSize, (world.processes rank).point.isGathering = false) →
      ∀ rank < ring.worldSize, ∀ other < ring.worldSize,
        (world.processes rank).refers ((world.processes rank).fds other) =
          (world.processes other).refers (given other)) ∧
    ∀ rank < ring.worldSize, (world.processes rank).point = .returned →
      (world.processes rank).refers (world.processes rank).fd =
        (world.processes ring.srcRank).refers (world.processes ring.srcRank).fd := by
  have ringing := ringing_reachable reached
  constructor
  · intro all rank below other also
    obtain ⟨step, within, here⟩ := exists_srcOf below also
    by_cases first : step = 0
    · subst first
      rw [srcOf_zero below] at here
      subst here
      rw [ringing.own rank below]
    · obtain ⟨message, mine, its⟩ := ringing.heard rank below step (by omega) (by
        rw [received_of_past (all rank below)]
        omega)
      rw [here] at mine its
      exact mine.trans its.symm
  · intro rank below returned
    by_cases source : rank = ring.srcRank
    · rw [source]
    · obtain ⟨_, message, mine, its⟩ := ringing.answers rank below returned source
      exact mine.trans its.symm

section Sample

def sampleRing : Ring where
  worldSize := 2
  srcRank := 0

def sampleTables (rank : Nat) (descriptor : Int) : Option File :=
  if descriptor = 3 then some (10 + rank) else if descriptor = 4 ∧ rank = 0 then some 20 else none

def sampleRun : World :=
  (System.runs (World.advance sampleRing) (fun _ _ => true)
    (World.start sampleRing sampleTables fun _ => 3)
    [.sendFd 1, .sendFd 0, .recvFd 0 1 5, .recvFd 1 0 6, .broadcast 0 4, .sendFd 0, .sendFd 0,
      .broadcast 1 3, .recvFd 1 0 7]).getD (World.start sampleRing sampleTables fun _ => 3)

theorem sampleRun_reachable :
    (gathering sampleRing sampleTables fun _ => 3).Reachable (fun _ _ => True) sampleRun := by
  exact System.Reachable.ended (.initial rfl) (fun _ _ _ taken => taken) (fun _ _ _ => trivial)
    (by decide +kernel) _

theorem fds_delivered_sample :
    (((∀ rank < sampleRing.worldSize, (sampleRun.processes rank).point.isGathering = false) →
      ∀ rank < sampleRing.worldSize, ∀ other < sampleRing.worldSize,
        (sampleRun.processes rank).refers ((sampleRun.processes rank).fds other) =
          (sampleRun.processes other).refers 3) ∧
    ∀ rank < sampleRing.worldSize, (sampleRun.processes rank).point = .returned →
      (sampleRun.processes rank).refers (sampleRun.processes rank).fd =
        (sampleRun.processes sampleRing.srcRank).refers
          (sampleRun.processes sampleRing.srcRank).fd) ∧
    (sampleRun.processes 1).refers ((sampleRun.processes 1).fds 0) = some (some 10) ∧
    (sampleRun.processes 1).point = .returned ∧
    (sampleRun.processes 1).refers (sampleRun.processes 1).fd = some (some 20) :=
  ⟨fds_delivered sampleRing sampleTables (fun _ => 3) sampleRun sampleRun_reachable,
    by decide +kernel, by decide +kernel, by decide +kernel⟩

end Sample

end Runs

end TorchSupa.SymmMem.IpcChannel
