import Mathlib.Data.List.Nodup

/-!
Work that is shared out: the items that a group of workers goes through. An item that says whose it
is comes up once.
-/

namespace Visits

variable {α β : Type}

theorem nodup_flatMap {workers : List α} {visits : α → List β} (owner : β → α)
    (nodup : workers.Nodup) (each : ∀ worker ∈ workers, (visits worker).Nodup)
    (owned : ∀ worker ∈ workers, ∀ item ∈ visits worker, owner item = worker) :
    (workers.flatMap visits).Nodup := by
  refine List.nodup_flatMap.mpr ⟨each, ?_⟩
  refine nodup.imp_of_mem fun here there different item first second => ?_
  exact different ((owned _ here item first).symm.trans (owned _ there item second))

end Visits
