import Replication.Collection.Progress

/-!
# Reports of lanes

A report is taken exactly while its epoch goes on (`Status.admits`). Neither a report that is taken
nor the publication that follows it opens, ends or changes an epoch.
-/

namespace Replication

theorem Status.admits_iff {s : Status} {epoch : Nat} :
    s.admits epoch = true ↔ s.stopped = false ∧ s.epoch = epoch := by
  simp [admits]

namespace Progress

variable {p p' : Progress} {epoch : Nat} {l : Lane} {clean : Bool}

theorem beginPass?_eq_none_iff : p.beginPass? epoch l = none ↔ p.status.admits epoch = false := by
  unfold beginPass?
  split <;> simp_all

theorem finishPass?_eq_none_iff :
    p.finishPass? epoch l clean = none ↔ p.status.admits epoch = false := by
  unfold finishPass?
  split <;> simp_all

theorem beginPass?_some (h : p.beginPass? epoch l = some p') :
    p.status.admits epoch = true ∧ p'.status.stopped = p.status.stopped ∧
      p'.status.epoch = p.status.epoch := by
  unfold beginPass? at h
  split at h
  · rename_i hadmits
    obtain rfl := Option.some.inj h
    rw [status_publish]
    refine ⟨hadmits, ?_⟩
    cases l <;> exact ⟨rfl, rfl⟩
  · cases h

theorem finishPass?_some (h : p.finishPass? epoch l clean = some p') :
    p.status.admits epoch = true ∧ p'.status.stopped = p.status.stopped ∧
      p'.status.epoch = p.status.epoch := by
  unfold finishPass? at h
  split at h
  · rename_i hadmits
    obtain rfl := Option.some.inj h
    rw [status_publish]
    refine ⟨hadmits, ?_⟩
    cases l <;> exact ⟨rfl, rfl⟩
  · cases h

end Progress

end Replication
