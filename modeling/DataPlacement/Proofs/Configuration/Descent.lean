import DataPlacement.Proofs.Configuration.Building
import DataPlacement.Proofs.Configuration.Routing

namespace DataPlacement.Configuration

variable {c fresh : Configuration} {p : Pool}

/-- What a configuration can become in use. -/
inductive Descends (fresh : Configuration) : Configuration → Prop where
  | unused : Descends fresh fresh
  | enabled {c : Configuration} (h : Descends fresh c) (p : Pool) (clock : Clock) :
      Descends fresh (c.enable p clock).state.1
  | written {c : Configuration} (h : Descends fresh c) (p : Pool) (placement : Placement)
      (block bytes now : Nat) : Descends fresh (c.write p placement block bytes now).state.1
  | rearmed {c : Configuration} (h : Descends fresh c) (p : Pool) (u : UnitId) (now : Nat) :
      Descends fresh (c.rearm p u now).state.1
  | disabled {c : Configuration} (h : Descends fresh c) (p : Pool) :
      Descends fresh (c.disable p).state.1

theorem blank_openUnits (now : Nat) (us : List UnitId) (c : Configuration) (p : Pool) :
    (openUnits now us c p).state.1.blank = c.blank := by
  induction us generalizing c p with
  | nil => rfl
  | cons u us ih =>
    rw [openUnits]
    split
    · rfl
    · next id q _ =>
      have hopened : (c.updateUnit u (·.openOn id now)).blank = c.blank :=
        c.blank_updateUnit u fun _ => rfl
      exact (ih _ q).trans hopened

theorem blank_enable (c : Configuration) (p : Pool) (clock : Clock) :
    (c.enable p clock).state.1.blank = c.blank := by
  have hdistribute : (c.distribute p clock.now).state.1.blank = c.blank := by
    unfold distribute
    dsimp only
    split
    · rfl
    · split
      · rfl
      · exact blank_openUnits clock.now _ c _
  unfold enable
  split
  · rfl
  · split
    · next heq =>
      rw [heq] at hdistribute
      exact hdistribute
    · next heq =>
      rw [heq] at hdistribute
      exact hdistribute

theorem blank_disable (c : Configuration) (p : Pool) :
    (c.disable p).state.1.blank = c.blank := by
  unfold disable
  split
  · rfl
  · exact c.blank_switchedOff

theorem blank_write (c : Configuration) (p : Pool) (placement : Placement)
    (block bytes now : Nat) : (c.write p placement block bytes now).state.1.blank = c.blank := by
  unfold write
  split
  · rfl
  · split
    · rfl
    · split
      · rfl
      · next u _ =>
        dsimp only
        split
        · rfl
        · split
          · rfl
          · have hfilled (f : Fill) : (c.updateUnit u (·.afterFill f now)).blank = c.blank :=
              c.blank_updateUnit u fun _ => rfl
            unfold writeUnit
            dsimp only
            split
            · exact hfilled _
            · exact (blank_countWrite _ u bytes).trans (hfilled _)

theorem blank_rearm (c : Configuration) (p : Pool) (u : UnitId) (now : Nat) :
    (c.rearm p u now).state.1.blank = c.blank := by
  obtain hsame | ⟨unit, id, rest, -, -, -, hopened⟩ := c.rearm_cases p now u
  · rw [hsame]
    rfl
  · rw [hopened]
    exact c.blank_updateUnit u fun _ => rfl

namespace Descends

theorem blank (h : Descends fresh c) : c.blank = fresh.blank := by
  induction h with
  | unused => rfl
  | enabled _ p clock ih => exact (blank_enable _ p clock).trans ih
  | written _ p placement block bytes now ih =>
    exact (blank_write _ p placement block bytes now).trans ih
  | rearmed _ p u now ih => exact (blank_rearm _ p u now).trans ih
  | disabled _ p ih => exact (blank_disable _ p).trans ih

variable {g : Geometry} {params : Parameters}

theorem shaped (h : Descends fresh c) (hbuild : build g params = .ok fresh) : c.Shaped :=
  (shaped_build hbuild).of_blank h.blank

/-- A configuration stays with the numbers of groups and handles that it was built for. -/
theorem parameters (h : Descends fresh c) (hbuild : build g params = .ok fresh) :
    c.groups = params.groups ∧ c.handles = params.handles := by
  obtain ⟨-, -, rfl⟩ := build_eq_ok_iff.1 hbuild
  exact ⟨congrArg Configuration.groups h.blank, congrArg Configuration.handles h.blank⟩

theorem attributes (h : Descends fresh c) (hbuild : build g params = .ok fresh) :
    c.attributes = params.attributes := by
  obtain ⟨-, -, rfl⟩ := build_eq_ok_iff.1 hbuild
  exact congrArg Configuration.attributes h.blank

theorem pageSize (h : Descends fresh c) (hbuild : build g params = .ok fresh) :
    c.pageSize = g.pageSize := by
  obtain ⟨-, -, rfl⟩ := build_eq_ok_iff.1 hbuild
  exact congrArg Configuration.pageSize h.blank

end Descends

end DataPlacement.Configuration
