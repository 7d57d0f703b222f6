import TorchSupa.Logic.Lists
import TorchSupa.SymmMem.Allocations
import Mathlib.Data.List.Pairwise

/-!
Where the addresses that a rendezvous hands out lead to.
-/

namespace TorchSupa.SymmMem.Address

open Function List Nat Option

/-- The addresses of a handle lead where its description says: to the starts of the allocations,
to their signal pads, and to the bytes of a tensor whose storage starts at the offset. -/
structure Addressed (cluster : Cluster) (world : World) (memory : SUPASymmetricMemory) : Prop where
  buffers : ∀ rank peer : Nat, (cluster.members memory.group)[rank]? = some peer →
    memory.pai.buffers[rank]?.bind (resolve (world.mapped memory.process)) =
      some (⟨peer, memory.number⟩, 0)
  signalPads : ∀ rank peer : Nat, (cluster.members memory.group)[rank]? = some peer →
    memory.pai.signalPads[rank]?.bind (resolve (world.mapped memory.process)) =
      some (⟨peer, memory.number⟩, signalPadOffset memory.pai.bufferSize)
  bytes : ∀ rank peer byte : Nat, (cluster.members memory.group)[rank]? = some peer →
    memory.offset + byte < memory.pai.bufferSize →
    (kernelAddress memory.pai rank byte).bind (resolve (world.mapped memory.process)) =
      some (⟨peer, memory.number⟩, memory.offset + byte)

def SUPAPeerAllocInfo.start (self : SUPAPeerAllocInfo) (process peer : Nat) : Nat :=
  if peer = process then self.madeAt else 0

structure WellMade (cluster : Cluster) (mapped : List AllocationRef) (process group number : Nat)
    (pai : SUPAPeerAllocInfo) : Prop where
  member : process ∈ cluster.members group
  entries : ∀ rank peer : Nat, (cluster.members group)[rank]? = some peer → ∃ ref ∈ mapped,
    ref.handle = ⟨peer, number⟩ ∧ pai.allocRefs[rank]? = some ref ∧
    pai.buffers[rank]? = some (ref.ptr + pai.start process peer) ∧
    pai.signalPads[rank]? =
      some (ref.ptr + pai.start process peer + signalPadOffset pai.bufferSize) ∧
    signalPadOffset pai.bufferSize < ref.blockSize
  early : pai.madeAt < pai.bufferSize

structure Sound (cluster : Cluster) (world : World) : Prop where
  apart : ∀ process, (world.mapped process).Pairwise fun one two => one.apart two = true
  own : ∀ process, ∀ block ∈ world.blocks process, block.allocRef ∈ world.mapped process ∧
    block.allocRef.handle.owner = process ∧ block.allocRef.blockSize = block.blockSize ∧
    block.signalPadOffset = signalPadOffset block.bufferSize ∧
    block.signalPadOffset < block.blockSize
  unique : ∀ process, ∀ one ∈ world.blocks process, ∀ two ∈ world.blocks process,
    one.allocRef = two.allocRef → one.bufferSize = two.bufferSize
  cached : ∀ process, ∀ block ∈ world.blocks process, ∀ entry ∈ block.symmMems,
    WellMade cluster (world.mapped process) process entry.1 block.allocRef.handle.number entry.2 ∧
    entry.2.bufferSize = block.bufferSize
  handed : ∀ memory ∈ world.symmMems,
    WellMade cluster (world.mapped memory.process) memory.process memory.group memory.number
      memory.pai ∧ memory.offset < memory.pai.bufferSize

section Resolving

variable {mapped : List AllocationRef} {one two ref : AllocationRef} {offset : Nat}

instance : Std.Symm fun one two : AllocationRef => one.apart two = true where
  symm := by
    intro one two apart
    unfold AllocationRef.apart at apart ⊢
    rw [Bool.or_comm]
    exact apart

theorem holder_unique (address : Nat) (apart : mapped.Pairwise fun one two => one.apart two = true)
    (first : one ∈ mapped) (second : two ∈ mapped) (above : one.ptr ≤ address)
    (below : address < one.ptr + one.blockSize) (beyond : two.ptr ≤ address)
    (under : address < two.ptr + two.blockSize) : one = two := by
  by_contra different
  have distinct := apart.forall first second different
  unfold AllocationRef.apart at distinct
  rw [Bool.or_eq_true, decide_eq_true_eq, decide_eq_true_eq] at distinct
  omega

theorem resolve_mapped (apart : mapped.Pairwise fun one two => one.apart two = true)
    (member : ref ∈ mapped) (within : offset < ref.blockSize) :
    resolve mapped (ref.ptr + offset) = some (ref.handle, offset) := by
  unfold resolve
  cases found : mapped.find? fun ref' => decide (ref'.ptr ≤ ref.ptr + offset) &&
      decide (ref.ptr + offset < ref'.ptr + ref'.blockSize) with
  | none =>
    have missed := find?_eq_none.mp found ref member
    simp at missed
    omega
  | some other =>
    have holds := find?_some found
    rw [Bool.and_eq_true, decide_eq_true_eq, decide_eq_true_eq] at holds
    obtain rfl := holder_unique _ apart member (mem_of_find?_eq_some found)
      (Nat.le_add_right _ _) (Nat.add_lt_add_left within _) holds.1 holds.2
    rw [map_some, Nat.add_sub_cancel_left]

end Resolving

section Handles

variable {cluster : Cluster} {world : World} {process group number : Nat}
  {pai : SUPAPeerAllocInfo}

theorem WellMade.mono {mapped grown : List AllocationRef}
    (wellMade : WellMade cluster mapped process group number pai)
    (keeps : ∀ ref ∈ pai.allocRefs, ref ∈ mapped → ref ∈ grown) :
    WellMade cluster grown process group number pai where
  member := wellMade.member
  entries := by
    intro rank peer atRank
    obtain ⟨ref, mapped, handle, at_, rest⟩ := wellMade.entries rank peer atRank
    exact ⟨ref, keeps ref (mem_of_getElem? at_) mapped, handle, at_, rest⟩
  early := wellMade.early

theorem Sound.addressed_iff (sound : Sound cluster world) {memory : SUPASymmetricMemory}
    (there : memory ∈ world.symmMems) :
    Addressed cluster world memory ↔ memory.pai.madeAt = 0 ∧ memory.offset = 0 := by
  obtain ⟨wellMade, within⟩ := sound.handed memory there
  have apart := sound.apart memory.process
  have fits : memory.pai.bufferSize ≤ signalPadOffset memory.pai.bufferSize :=
    le_roundUp (by decide)
  constructor
  · intro addressed
    obtain ⟨rank, own⟩ := getElem?_of_mem wellMade.member
    obtain ⟨ref, mapped, handle, _, buffer, _, large⟩ := wellMade.entries rank _ own
    have early := wellMade.early
    have found : resolve (world.mapped memory.process) (ref.ptr + memory.pai.madeAt) =
        some (ref.handle, memory.pai.madeAt) := resolve_mapped apart mapped (by omega)
    have starts : memory.pai.start memory.process memory.process = memory.pai.madeAt := if_pos rfl
    rw [starts] at buffer
    have first := addressed.buffers rank _ own
    rw [buffer, bind_some, found] at first
    have zeroth := addressed.bytes rank _ 0 own (by omega)
    unfold kernelAddress at zeroth
    rw [buffer, map_some, bind_some, add_zero, found] at zeroth
    have made : memory.pai.madeAt = 0 := (Prod.mk.inj (some.inj first)).2
    have offset : memory.pai.madeAt = memory.offset := (Prod.mk.inj (some.inj zeroth)).2
    exact ⟨made, offset ▸ made⟩
  · rintro ⟨made, offset⟩
    have starts : ∀ peer, memory.pai.start memory.process peer = 0 := by
      intro peer
      unfold SUPAPeerAllocInfo.start
      rw [made]
      exact ite_self 0
    constructor
    · intro rank peer atRank
      obtain ⟨ref, mapped, handle, _, buffer, _, large⟩ := wellMade.entries rank peer atRank
      rw [buffer, starts, bind_some, ← handle]
      exact resolve_mapped apart mapped (by omega)
    · intro rank peer atRank
      obtain ⟨ref, mapped, handle, _, _, pad, large⟩ := wellMade.entries rank peer atRank
      rw [pad, starts, add_zero, bind_some, ← handle]
      exact resolve_mapped apart mapped large
    · intro rank peer byte atRank inside
      obtain ⟨ref, mapped, handle, _, buffer, _, large⟩ := wellMade.entries rank peer atRank
      unfold kernelAddress
      rw [buffer, starts, map_some, bind_some, ← handle, offset, zero_add, add_zero]
      exact resolve_mapped apart mapped (by omega)

end Handles

structure Grows (world after : World) : Prop where
  blocks : after.blocks = world.blocks
  symmMems : after.symmMems = world.symmMems
  mapped : ∀ process, ∀ ref ∈ world.mapped process, ref ∈ after.mapped process
  apart : (∀ process, (world.mapped process).Pairwise fun one two => one.apart two = true) →
    ∀ process, (after.mapped process).Pairwise fun one two => one.apart two = true

structure Call.Fits (world : World) (number : Nat) (call : Call) : Prop where
  mapped : call.block.allocRef ∈ world.mapped call.process
  handle : call.block.allocRef.handle = ⟨call.process, number⟩
  ptr : call.ptr = call.block.allocRef.ptr + call.offset
  within : call.offset < call.block.bufferSize
  size : call.block.allocRef.blockSize = call.block.blockSize
  pad : call.block.signalPadOffset = signalPadOffset call.block.bufferSize
  large : call.block.signalPadOffset < call.block.blockSize
  unique : ∀ block ∈ world.blocks call.process, block.allocRef = call.block.allocRef →
    block.bufferSize = call.block.bufferSize

section Growing

variable {cluster : Cluster} {world after later : World} {process group number : Nat}
  {ref : AllocationRef} {call : Call}

theorem Grows.refl (world : World) : Grows world world :=
  ⟨rfl, rfl, fun _ _ there => there, fun apart => apart⟩

theorem Grows.trans (first : Grows world after) (second : Grows after later) : Grows world later where
  blocks := second.blocks.trans first.blocks
  symmMems := second.symmMems.trans first.symmMems
  mapped := fun process ref there => second.mapped process ref (first.mapped process ref there)
  apart := fun apart => second.apart (first.apart apart)

theorem mapBlock_grows (taken : world.mapBlock process ref = some after) :
    Grows world after ∧ ref ∈ after.mapped process ∧
      ∀ other ∈ world.mapped process, ref.apart other = true := by
  unfold World.mapBlock at taken
  split at taken
  · next free =>
      cases taken
      have free := all_eq_true.mp free
      refine ⟨⟨rfl, rfl, fun other old there => ?_, fun apart other => ?_⟩, ?_, free⟩
      · by_cases same : other = process
        · subst same
          simp [there]
        · simp [same, there]
      · by_cases same : other = process
        · subst same
          simp only [update_self]
          exact pairwise_cons.mpr ⟨free, apart other⟩
        · simp only [update_of_ne same]
          exact apart other
      · simp
  · cases taken

theorem Sound.grow (sound : Sound cluster world) (grows : Grows world after) :
    Sound cluster after where
  apart := grows.apart sound.apart
  own := by
    rw [grows.blocks]
    intro process block there
    obtain ⟨mapped, rest⟩ := sound.own process block there
    exact ⟨grows.mapped _ _ mapped, rest⟩
  unique := by
    rw [grows.blocks]
    exact sound.unique
  cached := by
    rw [grows.blocks]
    intro process block there entry listed
    obtain ⟨wellMade, size⟩ := sound.cached process block there entry listed
    exact ⟨wellMade.mono fun ref _ => grows.mapped _ ref, size⟩
  handed := by
    rw [grows.symmMems]
    intro memory there
    obtain ⟨wellMade, within⟩ := sound.handed memory there
    exact ⟨wellMade.mono fun ref _ => grows.mapped _ ref, within⟩

theorem Call.Fits.grow (fits : call.Fits world number) (grows : Grows world after) :
    call.Fits after number :=
  { fits with
    mapped := grows.mapped _ _ fits.mapped
    unique := by
      rw [grows.blocks]
      exact fits.unique }

theorem Sound.found {offset : Nat} (sound : Sound cluster world)
    (made : world.call process number offset = some call) :
    call.Fits world number ∧ call.process = process ∧ call.block ∈ world.blocks process := by
  obtain ⟨own, found, made⟩ := bind_eq_some_iff.mp made
  split at made
  · next within =>
      obtain ⟨⟨block, at_⟩, covering, made⟩ := bind_eq_some_iff.mp made
      cases made
      obtain ⟨holder, search, same⟩ := map_eq_some_iff.mp covering
      obtain ⟨rfl, rfl⟩ := Prod.mk.inj same
      have holds := find?_some search
      rw [Bool.and_eq_true, decide_eq_true_eq, decide_eq_true_eq] at holds
      have isOwn : own.allocRef.handle = ⟨process, number⟩ := by
        have named := find?_some found
        exact beq_iff_eq.mp named
      have listed := mem_of_find?_eq_some search
      have also := mem_of_find?_eq_some found
      obtain ⟨mapped, _, size, pad, large⟩ := sound.own process holder listed
      obtain ⟨ownMapped, _, ownSize, ownPad, ownLarge⟩ := sound.own process own also
      have fits : holder.bufferSize ≤ signalPadOffset holder.bufferSize := le_roundUp (by decide)
      have ownFits : own.bufferSize ≤ signalPadOffset own.bufferSize := le_roundUp (by decide)
      -- the block that covers the address is the one it was computed from
      have same : own.allocRef = holder.allocRef :=
        holder_unique (own.allocRef.ptr + offset) (sound.apart process) ownMapped mapped
          (le_add_right _ _) (by omega) holds.1 (by omega)
      refine ⟨⟨mapped, same ▸ isOwn, ?_, holds.2, size, pad, large, fun block there equal =>
        sound.unique process block there holder listed equal⟩, rfl, listed⟩
      exact (add_sub_of_le holds.1).symm
  · cases made

end Growing

section Exchanging

variable {cluster : Cluster} {group number : Nat} {addresses : Nat → Nat} {call : Call}

theorem entries_spec (peers : List Call) : ∀ {world after : World} {entries : List Entry},
    call.Fits world number →
    (∀ peer ∈ peers, peer.block.allocRef.handle = ⟨peer.process, number⟩) →
    World.entries call addresses world peers = some (after, entries) →
    Grows world after ∧ ∀ (rank : Nat) (peer : Call), peers[rank]? = some peer →
      ∃ ref ∈ after.mapped call.process, ref.handle = ⟨peer.process, number⟩ ∧
        ref.blockSize = call.block.blockSize ∧
        entries[rank]? = some { allocRef := ref
                                buffer := ref.ptr + if peer.process = call.process then call.offset
                                  else 0
                                signalPad := ref.ptr + (if peer.process = call.process then
                                  call.offset else 0) + call.block.signalPadOffset } := by
  induction peers with
  | nil =>
    intro world after entries _ _ made
    obtain ⟨rfl, rfl⟩ := Prod.mk.inj (some.inj made)
    refine ⟨.refl _, fun rank peer there => ?_⟩
    cases there
  | cons first rest ih =>
    intro world after entries fits named made
    unfold World.entries at made
    split at made
    · next own =>
        obtain ⟨⟨last, more⟩, ran, same⟩ := bind_eq_some_iff.mp made
        obtain ⟨rfl, rfl⟩ := Prod.mk.inj (some.inj same)
        obtain ⟨grows, found⟩ := ih fits (fun peer there => named peer (.tail _ there)) ran
        refine ⟨grows, fun rank peer there => ?_⟩
        cases rank with
        | zero =>
          cases there
          refine ⟨call.block.allocRef, grows.mapped _ _ fits.mapped, ?_, fits.size, ?_⟩
          · rw [own]
            exact fits.handle
          · rw [if_pos own, ← fits.ptr]
            rfl
        | succ rank => exact found rank peer there
    · next other =>
        obtain ⟨grown, mapped, made⟩ := bind_eq_some_iff.mp made
        obtain ⟨⟨last, more⟩, ran, same⟩ := bind_eq_some_iff.mp made
        obtain ⟨rfl, rfl⟩ := Prod.mk.inj (some.inj same)
        obtain ⟨before, there, _⟩ := mapBlock_grows mapped
        obtain ⟨grows, found⟩ := ih (fits.grow before)
          (fun peer there => named peer (.tail _ there)) ran
        refine ⟨before.trans grows, fun rank peer at_ => ?_⟩
        cases rank with
        | zero =>
          cases at_
          refine ⟨_, grows.mapped _ _ there, named first (.head _), rfl, ?_⟩
          rw [if_neg other]
          rfl
        | succ rank => exact found rank peer at_

def CallsOf (cluster : Cluster) (group : Nat) (calls : List Call) : Prop :=
  ∀ rank peer : Nat, (cluster.members group)[rank]? = some peer → ∃ call, calls[rank]? = some call ∧
    call.process = peer

theorem wellMade_made {world after : World} {calls : List Call} {entries : List Entry}
    (fits : call.Fits world number) (member : call.process ∈ cluster.members group)
    (named : ∀ peer ∈ calls, peer.block.allocRef.handle = ⟨peer.process, number⟩)
    (ofMembers : CallsOf cluster group calls)
    (made : World.entries call addresses world calls = some (after, entries)) :
    Grows world after ∧ WellMade cluster (after.mapped call.process) call.process group number
      (makePeerAllocInfo call entries) := by
  obtain ⟨grows, found⟩ := entries_spec calls fits named made
  refine ⟨grows, member, fun rank peer atRank => ?_, fits.within⟩
  obtain ⟨theirs, at_, rfl⟩ := ofMembers rank peer atRank
  obtain ⟨ref, mapped, handle, size, entry⟩ := found rank theirs at_
  have large : signalPadOffset call.block.bufferSize < ref.blockSize := by
    rw [size, ← fits.pad]
    exact fits.large
  refine ⟨ref, mapped, handle, ?_, ?_, ?_, large⟩
  · unfold makePeerAllocInfo
    rw [getElem?_map, entry]
    rfl
  · unfold makePeerAllocInfo
    rw [getElem?_map, entry]
    rfl
  · unfold makePeerAllocInfo
    rw [getElem?_map, entry, map_some, fits.pad]
    rfl

end Exchanging

section Handing

variable {cluster : Cluster} {world after : World} {process group number : Nat} {call other : Call}
  {pai : SUPAPeerAllocInfo}

theorem Sound.hand (sound : Sound cluster world)
    (wellMade : WellMade cluster (world.mapped call.process) call.process group number pai)
    (within : call.offset < pai.bufferSize) :
    Sound cluster (world.hand group number call pai) :=
  { sound with
    handed := by
      intro memory there
      rcases mem_cons.mp there with rfl | old
      · exact ⟨wellMade, within⟩
      · exact sound.handed memory old }

theorem emplace_blocks {block : Block}
    (there : block ∈ (world.emplace group call pai).blocks process) :
    ∃ old ∈ world.blocks process, block.allocRef = old.allocRef ∧
      block.bufferSize = old.bufferSize ∧ block.blockSize = old.blockSize ∧
      block.signalPadOffset = old.signalPadOffset ∧ ∀ entry ∈ block.symmMems, entry ∈ old.symmMems ∨
        process = call.process ∧ old.allocRef = call.block.allocRef ∧ entry = (group, pai) := by
  unfold World.emplace at there
  dsimp only at there
  by_cases same : process = call.process
  · rw [same, update_self] at there
    obtain ⟨old, listed, rfl⟩ := mem_map.mp there
    refine ⟨old, same ▸ listed, ?_⟩
    split
    · next own =>
        refine ⟨rfl, rfl, rfl, rfl, fun entry at_ => ?_⟩
        rcases mem_cons.mp at_ with rfl | before
        · exact .inr ⟨same, own, rfl⟩
        · exact .inl before
    · exact ⟨rfl, rfl, rfl, rfl, fun _ at_ => .inl at_⟩
  · rw [update_of_ne same] at there
    exact ⟨block, there, rfl, rfl, rfl, rfl, fun _ at_ => .inl at_⟩

theorem Sound.emplace (sound : Sound cluster world) (fits : call.Fits world number)
    (wellMade : WellMade cluster (world.mapped call.process) call.process group number pai)
    (size : pai.bufferSize = call.block.bufferSize) :
    Sound cluster (world.emplace group call pai) :=
  { sound with
    own := by
      intro process block there
      obtain ⟨old, listed, ref, buffer, size, pad, _⟩ := emplace_blocks there
      rw [ref, buffer, size, pad]
      exact sound.own process old listed
    unique := by
      intro process one first two second same
      obtain ⟨old, listed, ref, buffer, _⟩ := emplace_blocks first
      obtain ⟨also, known, refs, buffers, _⟩ := emplace_blocks second
      rw [buffer, buffers]
      exact sound.unique process old listed also known (by rw [← ref, same, refs])
    cached := by
      intro process block there entry at_
      obtain ⟨old, listed, ref, buffer, _, _, entries⟩ := emplace_blocks there
      rw [ref, buffer]
      rcases entries entry at_ with before | ⟨rfl, own, rfl⟩
      · exact sound.cached process old listed entry before
      · refine ⟨?_, size.trans (fits.unique old listed own).symm⟩
        rw [own, fits.handle]
        exact wellMade }

theorem Call.Fits.emplace (fits : other.Fits world number) :
    other.Fits (world.emplace group call pai) number :=
  { fits with
    unique := by
      intro block there same
      obtain ⟨old, listed, ref, buffer, _⟩ := emplace_blocks there
      rw [buffer]
      exact fits.unique old listed (ref.symm.trans same) }

end Handing

section Steps

variable {cluster : Cluster} {world after : World} {process group number : Nat} {calls : List Call}

theorem Sound.exchange {addresses : Nat → Nat → Nat} (ofMembers : CallsOf cluster group calls)
    (named : ∀ peer ∈ calls, peer.block.allocRef.handle = ⟨peer.process, number⟩)
    (rest : List Call) : ∀ {world after : World}, Sound cluster world →
    (∀ call ∈ rest, call.Fits world number ∧ call.process ∈ cluster.members group) →
    World.exchange group number calls addresses world rest = some after → Sound cluster after := by
  induction rest with
  | nil =>
    intro world after sound _ taken
    exact some.inj taken ▸ sound
  | cons call rest ih =>
    intro world after sound fit taken
    obtain ⟨⟨grown, entries⟩, made, taken⟩ := bind_eq_some_iff.mp taken
    obtain ⟨fits, member⟩ := fit call (.head _)
    obtain ⟨grows, wellMade⟩ := wellMade_made fits member named ofMembers made
    have emplaced := (sound.grow grows).emplace (fits.grow grows) wellMade rfl
    refine ih (emplaced.hand wellMade fits.within) (fun other there => ?_) taken
    obtain ⟨otherFits, within⟩ := fit other (.tail _ there)
    have kept : other.Fits (grown.emplace group call (makePeerAllocInfo call entries)) number :=
      (otherFits.grow grows).emplace
    exact ⟨{ kept with }, within⟩

theorem Sound.reuse (rest : List Call) : ∀ {world after : World}, Sound cluster world →
    (∀ call ∈ rest, call.Fits world number ∧ call.block ∈ world.blocks call.process) →
    World.reuse group number world rest = some after → Sound cluster after := by
  induction rest with
  | nil =>
    intro world after sound _ taken
    exact some.inj taken ▸ sound
  | cons call rest ih =>
    intro world after sound fit taken
    obtain ⟨pai, cached, taken⟩ := bind_eq_some_iff.mp taken
    obtain ⟨fits, listed⟩ := fit call (.head _)
    obtain ⟨wellMade, size⟩ := sound.cached _ _ listed _ (Lists.mem_of_lookup cached)
    rw [fits.handle] at wellMade
    have within : call.offset < pai.bufferSize := size ▸ fits.within
    refine ih (sound.hand wellMade within) (fun other there => ?_) taken
    obtain ⟨otherFits, known⟩ := fit other (.tail _ there)
    exact ⟨{ otherFits with }, known⟩

section

variable (sound : Sound cluster world)
include sound

theorem Sound.rendezvous {offset : Nat} {addresses : Nat → Nat → Nat}
    (taken : world.rendezvous cluster group number offset addresses = some after) :
    Sound cluster after := by
  obtain ⟨calls, gathered, taken⟩ := bind_eq_some_iff.mp taken
  have each := Lists.mapM_getElem? gathered
  have ofMembers : CallsOf cluster group calls := by
    intro rank peer atRank
    obtain ⟨call, at_, made⟩ := (each rank).1 peer atRank
    exact ⟨call, at_, (sound.found made).2.1⟩
  have known : ∀ call ∈ calls, call.Fits world number ∧ call.process ∈ cluster.members group ∧
      call.block ∈ world.blocks call.process := by
    intro call there
    obtain ⟨rank, at_⟩ := getElem?_of_mem there
    obtain ⟨peer, atRank, made⟩ := (each rank).2 call at_
    obtain ⟨fits, rfl, listed⟩ := sound.found made
    exact ⟨fits, mem_of_getElem? atRank, listed⟩
  split at taken
  · exact sound.reuse calls (fun call there => ⟨(known call there).1, (known call there).2.2⟩) taken
  · split at taken
    · split at taken
      · exact sound.exchange ofMembers (fun call there => (known call there).1.handle) calls
          (fun call there => ⟨(known call there).1, (known call there).2.1⟩) taken
      · exact some.inj taken ▸ sound
    · cases taken

theorem Sound.alloc {size address : Nat}
    (taken : world.alloc cluster process number size address = some after) :
    Sound cluster after := by
  unfold World.alloc at taken
  dsimp only at taken
  split at taken
  · obtain ⟨grown, mapped, rfl⟩ := map_eq_some_iff.mp taken
    obtain ⟨grows, there, apart⟩ := mapBlock_grows mapped
    have bigger := sound.grow grows
    have large : signalPadOffset size <
        roundUp (signalPadOffset size + cluster.signalPadSize) cluster.granularity := by
      have bound : signalPadOffset size + cluster.signalPadSize ≤
          roundUp (signalPadOffset size + cluster.signalPadSize) cluster.granularity :=
        le_roundUp cluster.granularityPositive
      have positive := cluster.padPositive
      omega
    -- a block that was there is mapped elsewhere
    have fresh : ∀ block ∈ world.blocks process, block.allocRef ≠
        { ptr := address
          handle := ⟨process, number⟩
          blockSize := roundUp (signalPadOffset size + cluster.signalPadSize)
            cluster.granularity } := by
      intro block listed same
      have away := apart block.allocRef (sound.own process block listed).1
      rw [same] at away
      unfold AllocationRef.apart at away
      simp only [Bool.or_self, decide_eq_true_eq] at away
      omega
    constructor
    · exact bigger.apart
    · intro other block listed
      dsimp only at listed
      by_cases same : other = process
      · subst same
        rw [update_self] at listed
        rcases mem_cons.mp listed with rfl | old
        · exact ⟨there, rfl, rfl, rfl, large⟩
        · exact bigger.own other block old
      · rw [update_of_ne same] at listed
        exact bigger.own other block listed
    · intro other one first two second equal
      dsimp only at first second
      by_cases same : other = process
      · subst same
        rw [update_self] at first second
        rw [grows.blocks] at first second
        rcases mem_cons.mp first with rfl | old
        · rcases mem_cons.mp second with rfl | before
          · rfl
          · exact absurd equal.symm (fresh two before)
        · rcases mem_cons.mp second with rfl | before
          · exact absurd equal (fresh one old)
          · exact sound.unique other one old two before equal
      · rw [update_of_ne same] at first second
        exact bigger.unique other one first two second equal
    · intro other block listed entry at_
      dsimp only at listed
      by_cases same : other = process
      · subst same
        rw [update_self] at listed
        rcases mem_cons.mp listed with rfl | old
        · cases at_
        · exact bigger.cached other block old entry at_
      · rw [update_of_ne same] at listed
        exact bigger.cached other block listed entry at_
    · exact bigger.handed
  · cases taken

theorem Sound.free {ptr : Nat} : Sound cluster (world.free process ptr) := by
  have kept : ∀ other, ∀ block ∈ (world.free process ptr).blocks other,
      block ∈ world.blocks other := by
    intro other block there
    unfold World.free at there
    dsimp only at there
    by_cases same : other = process
    · subst same
      rw [update_self] at there
      exact (mem_filter.mp there).1
    · rw [update_of_ne same] at there
      exact there
  exact { sound with
      own := fun other block there => sound.own other block (kept other block there)
      unique := fun other one first two second =>
        sound.unique other one (kept other one first) two (kept other two second)
      cached := fun other block there => sound.cached other block (kept other block there) }

theorem Sound.unmap {ref : AllocationRef}
    (taken : world.unmap process ref = some after) : Sound cluster after := by
  unfold World.unmap at taken
  split at taken
  · next unused =>
      cases taken
      obtain ⟨blocks, handles⟩ := Bool.and_eq_true_iff.mp unused
      have blocks := all_eq_true.mp blocks
      have handles := all_eq_true.mp handles
      have stays : ∀ {other kept}, kept ∈ world.mapped other → (other = process → kept ≠ ref) →
          kept ∈ update world.mapped process ((world.mapped process).erase ref) other := by
        intro other kept there different
        by_cases same : other = process
        · subst same
          rw [update_self]
          exact (mem_erase_of_ne (different rfl)).mpr there
        · rw [update_of_ne same]
          exact there
      constructor
      · intro other
        dsimp only
        by_cases same : other = process
        · subst same
          rw [update_self]
          exact (sound.apart other).sublist erase_sublist
        · rw [update_of_ne same]
          exact sound.apart other
      · intro other block there
        obtain ⟨mapped, rest⟩ := sound.own other block there
        refine ⟨stays mapped fun same => ?_, rest⟩
        subst same
        have used := (Bool.and_eq_true_iff.mp (blocks block there)).1
        exact bne_iff_ne.mp used
      · exact sound.unique
      · intro other block there entry listed
        obtain ⟨wellMade, size⟩ := sound.cached other block there entry listed
        refine ⟨wellMade.mono fun kept within mapped => stays mapped fun same => ?_, size⟩
        subst same
        rintro rfl
        have used := (Bool.and_eq_true_iff.mp (blocks block there)).2
        have absent := all_eq_true.mp used entry listed
        simp [within] at absent
      · intro memory there
        obtain ⟨wellMade, size⟩ := sound.handed memory there
        refine ⟨wellMade.mono fun kept within mapped => stays mapped fun same => ?_, size⟩
        rintro rfl
        have absent := handles memory there
        simp [same, within] at absent
  · cases taken

theorem Sound.step {action : Action}
    (taken : world.advance cluster action = some after) : Sound cluster after := by
  cases action with
  | alloc process number size address => exact sound.alloc taken
  | free process ptr =>
    cases taken
    exact sound.free
  | unmap process ref => exact sound.unmap taken
  | rendezvous group number offset addresses => exact sound.rendezvous taken
  | drop index =>
    cases taken
    exact { sound with
      handed := fun memory there => sound.handed memory (mem_of_mem_eraseIdx there) }

end

theorem sound_initial : Sound cluster {} where
  apart := fun _ => .nil
  own := by
    intro process block there
    cases there
  unique := by
    intro process one there
    cases there
  cached := by
    intro process block there
    cases there
  handed := by
    intro memory there
    cases there

end Steps

/-- In every run a handle leads to the memory it stands for just if the group exchanged the
allocation through its start, and the handle is for its start. -/
theorem addresses_right (cluster : Cluster) (world : World) (memory : SUPASymmetricMemory)
    (reached : (mapping cluster).Reachable (fun _ _ => True) world)
    (there : memory ∈ world.symmMems) :
    Addressed cluster world memory ↔ memory.pai.madeAt = 0 ∧ memory.offset = 0 := by
  have sound : Sound cluster world :=
    reached.invariant (fun _ begins => begins ▸ sound_initial)
      fun _ _ _ sound _ taken => sound.step taken
  exact sound.addressed_iff there

/-- In every run, whatever is freed, unmapped or dropped meanwhile, the addresses that a handle
has for the other members of its group lead to the starts of their allocations and to their signal
pads, and its own buffer leads to the byte of its own allocation that it was exchanged through. -/
theorem addresses_stay (cluster : Cluster) (world : World) (memory : SUPASymmetricMemory)
    (reached : (mapping cluster).Reachable (fun _ _ => True) world)
    (there : memory ∈ world.symmMems) (rank peer : Nat)
    (atRank : (cluster.members memory.group)[rank]? = some peer) :
    memory.pai.buffers[rank]?.bind (resolve (world.mapped memory.process)) =
        some (⟨peer, memory.number⟩, memory.pai.start memory.process peer) ∧
      (peer ≠ memory.process →
        memory.pai.signalPads[rank]?.bind (resolve (world.mapped memory.process)) =
          some (⟨peer, memory.number⟩, signalPadOffset memory.pai.bufferSize)) := by
  have sound : Sound cluster world :=
    reached.invariant (fun _ begins => begins ▸ sound_initial)
      fun _ _ _ sound _ taken => sound.step taken
  obtain ⟨wellMade, _⟩ := sound.handed memory there
  have apart := sound.apart memory.process
  have fits : memory.pai.bufferSize ≤ signalPadOffset memory.pai.bufferSize :=
    le_roundUp (by decide)
  have early := wellMade.early
  obtain ⟨ref, mapped, handle, _, buffer, pad, large⟩ := wellMade.entries rank peer atRank
  constructor
  · have within : memory.pai.start memory.process peer < ref.blockSize := by
      unfold SUPAPeerAllocInfo.start
      split <;> omega
    rw [buffer, bind_some, ← handle]
    exact resolve_mapped apart mapped within
  · intro other
    have starts : memory.pai.start memory.process peer = 0 := if_neg other
    rw [pad, starts, add_zero, bind_some, ← handle]
    exact resolve_mapped apart mapped large

section Runs

def pair : Cluster where
  members _ := [0, 1]
  distinct _ := by decide
  hostname _ := "host"
  deviceIdx process := process
  hasMulticastSupport _ := false
  allowOverlapping := false
  signalPadSize := 2048
  padPositive := by decide
  granularity := 4096
  granularityPositive := by decide

def finalWorld (actions : List Action) : World :=
  (System.runs (World.advance pair) (fun _ _ => true) {} actions).getD {}

theorem reachable_finalWorld (actions : List Action)
    (ends : (System.runs (World.advance pair) (fun _ _ => true) {} actions).isSome = true) :
    (mapping pair).Reachable (fun _ _ => True) (finalWorld actions) := by
  exact System.Reachable.ended (.initial rfl) (fun _ _ _ taken => taken) (fun _ _ _ => trivial) ends _

def exchangeAt (offset : Nat) : List Action :=
  [.alloc 0 7 1024 65536, .alloc 1 7 1024 131072,
    .rendezvous 0 7 offset fun process peer => 1048576 * (2 * process + peer + 1)]

def ownPai (made : Nat) : SUPAPeerAllocInfo where
  allocRefs := [⟨65536, ⟨0, 7⟩, 4096⟩, ⟨2097152, ⟨1, 7⟩, 4096⟩]
  buffers := [65536 + made, 2097152]
  signalPads := [66560 + made, 2098176]
  bufferSize := 1024
  madeAt := made

theorem addresses_right_sample :
    let memory : SUPASymmetricMemory := ⟨0, 0, 7, ownPai 0, 0⟩
    memory ∈ (finalWorld (exchangeAt 0)).symmMems ∧
      Addressed pair (finalWorld (exchangeAt 0)) memory := by
  intro memory
  have there : memory ∈ (finalWorld (exchangeAt 0)).symmMems := by decide +kernel
  exact ⟨there, (addresses_right pair _ memory (reachable_finalWorld _ (by decide +kernel))
    there).mpr ⟨rfl, rfl⟩⟩

/-- Through the byte at 16, a rank's own buffer is found 16 bytes into its allocation. -/
theorem addresses_wrong : ¬ ∀ (cluster : Cluster) (world : World) (memory : SUPASymmetricMemory),
    (mapping cluster).Reachable (fun _ _ => True) world → memory ∈ world.symmMems →
    Addressed cluster world memory := by
  intro all
  have addressed := all pair (finalWorld (exchangeAt 16)) ⟨0, 0, 7, ownPai 16, 16⟩
    (reachable_finalWorld _ (by decide +kernel)) (by decide +kernel)
  have own := addressed.buffers 0 0 rfl
  have found : (ownPai 16).buffers[0]?.bind (resolve ((finalWorld (exchangeAt 16)).mapped 0)) =
      some (⟨0, 7⟩, 16) := by decide +kernel
  exact absurd (found.symm.trans own) (by decide)

/-- The allocations are freed while the first member keeps its handle. -/
theorem addresses_stay_sample :
    let final := finalWorld (exchangeAt 16 ++ [.free 0 65536, .free 1 131072])
    (ownPai 16).buffers[1]?.bind (resolve (final.mapped 0)) = some (⟨1, 7⟩, 0) :=
  (addresses_stay pair _ ⟨0, 0, 7, ownPai 16, 16⟩ (reachable_finalWorld _ (by decide +kernel))
    (by decide +kernel) 1 1 rfl).1

end Runs

end TorchSupa.SymmMem.Address
