import TorchSupa.Aten.TransposeKernels

/-!
The kernel for permuted tensors with a contiguous tail, plane by plane: what its threads load and
store, and when they copy the tail of their plane and touch nothing else.
-/

namespace TorchSupa.Aten.DirectCopy

open Nat

variable {α : Type}

inductive Access
  | load (address width : Nat)
  | store (address width : Nat)
deriving DecidableEq, Repr

def Access.Aligned : Access → Prop
  | .load address width | .store address width => width ∣ address

section Accesses

def scalarAccesses (srcBase dstBase thread : Nat) (start bound : Int) : List Access :=
  (loop (start + thread * 2) (256 * 2) bound).flatMap fun k =>
    (List.range 2).flatMap fun (p : Nat) =>
      let elemIdx : Int := k + p
      if elemIdx < bound then
        [.load (srcBase + 2 * elemIdx.toNat) 2, .store (dstBase + 2 * elemIdx.toNat) 2]
      else []

def burstAccesses (srcBase dstBase thread : Nat) (start bound : Int) : List Access :=
  (loop (start + thread * 16) (256 * 16) bound).flatMap fun k =>
    [.load (srcBase + 2 * k.toNat) 16, .load (srcBase + 2 * (k.toNat + 8)) 16,
      .store (dstBase + 2 * k.toNat) 16, .store (dstBase + 2 * (k.toNat + 8)) 16]

def planeAccesses (srcBase dstBase : Nat) (tailLen : Int) (thread : Nat) : List Access :=
  scalarAccesses srcBase dstBase thread 0 (alignElems srcBase dstBase) ++
    burstAccesses srcBase dstBase thread (alignElems srcBase dstBase)
      (burstEnd srcBase dstBase tailLen) ++
    scalarAccesses srcBase dstBase thread (burstEnd srcBase dstBase tailLen) tailLen

variable {srcBase dstBase thread : Nat} {start bound : Int} {access : Access}

open List

theorem mem_scalarAccesses (low : 0 ≤ start)
    (member : access ∈ scalarAccesses srcBase dstBase thread start bound) :
    ∃ elem : Nat, start ≤ elem ∧ elem < bound ∧
      (access = .load (srcBase + 2 * elem) 2 ∨ access = .store (dstBase + 2 * elem) 2) := by
  simp only [scalarAccesses, mem_flatMap, mem_range,
    mem_loop (show (0 : Int) < 256 * 2 by decide)] at member
  obtain ⟨k, ⟨first, _, _⟩, p, _, accessed⟩ := member
  split at accessed
  · next inside =>
      simp only [mem_cons, not_mem_nil, or_false] at accessed
      exact ⟨(k + p).toNat, by omega, by omega, accessed⟩
  · cases accessed

theorem mem_burstAccesses (low : 0 ≤ start) (whole : (bound - start) % 16 = 0)
    (member : access ∈ burstAccesses srcBase dstBase thread start bound) :
    ∃ elem : Nat, start ≤ elem ∧ elem + 8 ≤ bound ∧ (elem - start) % 8 = 0 ∧
      (access = .load (srcBase + 2 * elem) 16 ∨ access = .store (dstBase + 2 * elem) 16) := by
  simp only [burstAccesses, mem_flatMap, mem_cons, not_mem_nil, or_false,
    mem_loop (show (0 : Int) < 256 * 16 by decide)] at member
  obtain ⟨k, ⟨first, before, multiple⟩, rfl | rfl | rfl | rfl⟩ := member
  · exact ⟨k.toNat, by omega, by omega, by omega, .inl rfl⟩
  · exact ⟨k.toNat + 8, by omega, by omega, by omega, .inl rfl⟩
  · exact ⟨k.toNat, by omega, by omega, by omega, .inr rfl⟩
  · exact ⟨k.toNat + 8, by omega, by omega, by omega, .inr rfl⟩

end Accesses

section Made

def Access.stored : Access → List Nat
  | .load _ _ => []
  | .store address width => (List.range (width / 2)).map (address + 2 * ·)

def Access.vectors : Access → List Nat
  | .load address width | .store address width => if width = 16 then [address] else []

def Event.stored : Event α → List Nat
  | .store address _ => [address]
  | _ => []

def Event.vectors : Event α → List Nat
  | .vector address => [address]
  | _ => []

/-- The accesses are those that make the events: the elements stored and the vectors are the same, in
the same order. -/
structure Made (events : List (Event α)) (accesses : List Access) : Prop where
  stored : events.flatMap Event.stored = accesses.flatMap Access.stored
  vectors : events.flatMap Event.vectors = accesses.flatMap Access.vectors

open List

theorem Made.append {one two : List (Event α)} {first second : List Access} (ones : Made one first)
    (twos : Made two second) : Made (one ++ two) (first ++ second) := by
  constructor
  · rw [flatMap_append, flatMap_append, ones.stored, twos.stored]
  · rw [flatMap_append, flatMap_append, ones.vectors, twos.vectors]

theorem Made.flatMap {β : Type} {events : β → List (Event α)} {accesses : β → List Access}
    (each : ∀ item, Made (events item) (accesses item)) (items : List β) :
    Made (items.flatMap events) (items.flatMap accesses) := by
  induction items with
  | nil => exact ⟨rfl, rfl⟩
  | cons item rest ih => exact (each item).append ih

theorem Made.counter {events : List (Event α)} {accesses : List Access} (made : Made events accesses)
    (value : Int) : Made (.counter value :: events) accesses :=
  ⟨made.stored, made.vectors⟩

variable (contents : Nat → α) (srcBase dstBase thread : Nat)

theorem made_scalarAccesses (start bound : Int) :
    Made (scalarLoop contents srcBase dstBase thread start bound)
      (scalarAccesses srcBase dstBase thread start bound) := by
  refine .counter (.flatMap (fun k => .flatMap (fun p => ?_) _) _) _
  dsimp only
  split
  · exact ⟨rfl, rfl⟩
  · exact ⟨rfl, rfl⟩

theorem made_burstAccesses (start bound : Int) :
    Made (burstLoop contents srcBase dstBase thread start bound)
      (burstAccesses srcBase dstBase thread start bound) :=
  .counter (.flatMap (fun _ => ⟨rfl, rfl⟩) _) _

theorem made_planeAccesses (tailLen : Int) :
    Made (planeEvents contents srcBase dstBase tailLen thread)
      (planeAccesses srcBase dstBase tailLen thread) := by
  refine .append (.append (made_scalarAccesses ..) ?_) (made_scalarAccesses ..)
  exact (made_burstAccesses ..).counter _

end Made

section Planes

variable {srcBase dstBase : Nat} {tailLen : Int}

def Access.Inside (srcBase dstBase : Nat) (tailLen : Int) : Access → Prop
  | .load address width => srcBase ≤ address ∧ (address + width : Int) ≤ srcBase + 2 * tailLen
  | .store address width => dstBase ≤ address ∧ (address + width : Int) ≤ dstBase + 2 * tailLen

theorem planeAccesses_aligned {thread : Nat} (forward : 0 ≤ tailLen)
    (even : srcBase % 2 = 0 ∧ dstBase % 2 = 0) :
    ∀ access ∈ planeAccesses srcBase dstBase tailLen thread, access.Aligned := by
  have stop := burstEnd_cases srcBase dstBase tailLen
  have singles : ∀ start bound, 0 ≤ start →
      ∀ access ∈ scalarAccesses srcBase dstBase thread start bound, access.Aligned := by
    intro start bound low access member
    obtain ⟨elem, _, _, rfl | rfl⟩ := mem_scalarAccesses low member
    · exact dvd_of_mod_eq_zero (by omega)
    · exact dvd_of_mod_eq_zero (by omega)
  have small := alignElems_le srcBase dstBase
  intro access member
  simp only [planeAccesses, List.mem_append] at member
  rcases member with (first | vectors) | last
  · exact singles _ _ (le_refl _) access first
  · rcases stop with ⟨together, whole, _⟩ | ⟨apart, none⟩
    · have aligned : (srcBase + 2 * alignElems srcBase dstBase) % 16 = 0 := by
        unfold alignElems
        split <;> omega
      obtain ⟨elem, _, _, multiple, rfl | rfl⟩ := mem_burstAccesses (by omega) whole vectors
      · exact dvd_of_mod_eq_zero (by omega)
      · exact dvd_of_mod_eq_zero (by omega)
    · have first := alignElems_of_ne apart
      rw [none, first] at vectors
      obtain ⟨elem, _, _, _⟩ := mem_burstAccesses (le_refl _) (by simp) vectors
      omega
  · exact singles _ _ (by omega) access last

theorem planeAccesses_inside {thread : Nat} (long : alignElems srcBase dstBase ≤ tailLen) :
    ∀ access ∈ planeAccesses srcBase dstBase tailLen thread,
      access.Inside srcBase dstBase tailLen := by
  have stop := burstEnd_cases srcBase dstBase tailLen
  have singles : ∀ start bound, 0 ≤ start → bound ≤ tailLen →
      ∀ access ∈ scalarAccesses srcBase dstBase thread start bound,
        access.Inside srcBase dstBase tailLen := by
    intro start bound low high access member
    obtain ⟨elem, _, _, rfl | rfl⟩ := mem_scalarAccesses low member
    · exact ⟨by omega, by push_cast; omega⟩
    · exact ⟨by omega, by push_cast; omega⟩
  intro access member
  simp only [planeAccesses, List.mem_append] at member
  rcases member with (first | vectors) | last
  · exact singles _ _ (le_refl _) long access first
  · rcases stop with ⟨together, whole, _⟩ | ⟨apart, none⟩
    · obtain ⟨elem, _, _, _, rfl | rfl⟩ := mem_burstAccesses (by omega) whole vectors
      · exact ⟨by omega, by push_cast; omega⟩
      · exact ⟨by omega, by push_cast; omega⟩
    · have first := alignElems_of_ne apart
      rw [none, first] at vectors
      obtain ⟨elem, _, _, _⟩ := mem_burstAccesses (le_refl _) (by simp) vectors
      omega
  · exact singles _ _ (by omega) (le_refl _) access last

end Planes

section Kernel

variable (contents : Nat → α) (src dst : Nat) (cfg : ContiguousTail) (planeJMapsToBlockX : Bool)
  (i j : Nat)

def planeKernel (thread : Nat) : List (Event α) :=
  permute102ContigTailKernel contents src dst cfg planeJMapsToBlockX
    (if planeJMapsToBlockX then j else i) (if planeJMapsToBlockX then i else j) thread

/-- The block copies the tail of its plane, and nothing else; its vectors are aligned, and no
variable of its loops overflows. -/
structure CopiesTail : Prop where
  stores : ∀ address value,
    (∃ thread < 256, .store address value ∈ planeKernel contents src dst cfg planeJMapsToBlockX i j
      thread) ↔ ∃ elem : Nat, elem < cfg.tailLen ∧ address = cfg.dstBase dst i j + 2 * elem ∧
        value = some (contents (cfg.srcBase src i j + 2 * elem))
  inside : ∀ thread < 256, ∀ access ∈ planeAccesses (cfg.srcBase src i j) (cfg.dstBase dst i j)
    cfg.tailLen thread, access.Inside (cfg.srcBase src i j) (cfg.dstBase dst i j) cfg.tailLen
  aligned : ∀ thread < 256, ∀ access ∈ planeAccesses (cfg.srcBase src i j) (cfg.dstBase dst i j)
    cfg.tailLen thread, access.Aligned
  fine : ∀ thread < 256, ∀ event ∈ planeKernel contents src dst cfg planeJMapsToBlockX i j thread,
    ¬ event.Bad

variable {contents src dst cfg planeJMapsToBlockX i j}

theorem planeKernel_eq (row : (i : Int) < cfg.planeRows) (col : (j : Int) < cfg.planeCols)
    (thread : Nat) :
    planeKernel contents src dst cfg planeJMapsToBlockX i j thread =
      planeEvents contents (cfg.srcBase src i j) (cfg.dstBase dst i j) cfg.tailLen thread := by
  unfold planeKernel
  rw [kernel_eq]
  cases planeJMapsToBlockX
  · exact if_neg (by simp; omega)
  · exact if_neg (by simp; omega)

/-- A block does what it should if and only if the elements before its first vector are in the tail,
and the tail is not within a round of the block of the largest int. -/
theorem permute_102_contig_tail_iff (contents : Nat → α) (src dst : Nat) (cfg : ContiguousTail)
    (planeJMapsToBlockX : Bool) (i j : Nat) (row : (i : Int) < cfg.planeRows)
    (col : (j : Int) < cfg.planeCols) (forward : 0 ≤ cfg.tailLen) (int : cfg.tailLen < 2 ^ 31)
    (bases : src % 2 = 0 ∧ dst % 2 = 0)
    (srcStrides : cfg.srcStrideRowBytes % 2 = 0 ∧ cfg.srcStrideColBytes % 2 = 0)
    (dstStrides : cfg.dstStrideRowBytes % 2 = 0 ∧ cfg.dstStrideColBytes % 2 = 0) :
    CopiesTail contents src dst cfg planeJMapsToBlockX i j ↔
      alignElems (cfg.srcBase src i j) (cfg.dstBase dst i j) ≤ cfg.tailLen ∧
        CountersFit (cfg.srcBase src i j) (cfg.dstBase dst i j) cfg.tailLen := by
  have even : ∀ base row col : Nat, base % 2 = 0 → row % 2 = 0 → col % 2 = 0 →
      (base + i * row + j * col) % 2 = 0 := by
    intro base row col one two three
    have rows := mod_eq_zero_of_dvd ((dvd_of_mod_eq_zero two).mul_left i)
    have cols := mod_eq_zero_of_dvd ((dvd_of_mod_eq_zero three).mul_left j)
    omega
  have evenSrc : cfg.srcBase src i j % 2 = 0 := even _ _ _ bases.1 srcStrides.1 srcStrides.2
  have evenDst : cfg.dstBase dst i j % 2 = 0 := even _ _ _ bases.2 dstStrides.1 dstStrides.2
  have bad := @bad_plane _ contents _ (cfg.dstBase dst i j) _ forward int evenSrc
  constructor
  · intro copies
    refine ⟨?_, not_not.mp fun overflows => ?_⟩
    · by_contra short
      have early := (copies.stores (cfg.dstBase dst i j + 2 * cfg.tailLen.toNat) _).mp
        (by simp only [planeKernel_eq row col]
            exact store_plane.mpr ⟨cfg.tailLen.toNat, Or.inl (by omega), rfl, rfl⟩)
      obtain ⟨elem, inside, same, _⟩ := early
      omega
    · obtain ⟨thread, member, event, here, wrong⟩ := bad.mpr overflows
      refine copies.fine thread member event ?_ wrong
      rwa [planeKernel_eq row col]
  · rintro ⟨long, fits⟩
    refine ⟨fun address value => ?_, fun _ _ => planeAccesses_inside long,
      fun _ _ => planeAccesses_aligned forward ⟨evenSrc, evenDst⟩, fun thread member event here wrong => ?_⟩
    · simp only [planeKernel_eq row col]
      rw [store_plane]
      refine exists_congr fun elem => and_congr_left fun _ => ?_
      omega
    · rw [planeKernel_eq row col] at here
      exact bad.mp ⟨thread, member, event, here, wrong⟩ fits

def exchangedHalves (tailLen : Nat) : ContiguousTail :=
  ⟨2, 2, tailLen, 2 * tailLen, 4 * tailLen, 4 * tailLen, 2 * tailLen⟩

theorem permute_102_contig_tail_iff_sample :
    CopiesTail (fun address => address) 2048 1024 (exchangedHalves 8) true 1 1 :=
  (permute_102_contig_tail_iff (fun address => address) 2048 1024 (exchangedHalves 8) true 1 1
    (by decide) (by decide) (by decide) (by decide) (by decide) (by decide) (by decide)).mpr
    ⟨by decide, by unfold CountersFit; decide⟩

/-- The last plane begins two bytes behind a multiple of 16: seven elements come before its first
vector, and it has three. -/
theorem permute_102_contig_tail_overruns :
    ¬ CopiesTail (fun address => address) 2048 1024 (exchangedHalves 3) true 1 1 := by
  intro copies
  have outside := copies.inside 1 (by decide) (.store 1048 2) (by decide)
  exact absurd outside.2 (by decide)

end Kernel

end TorchSupa.Aten.DirectCopy
