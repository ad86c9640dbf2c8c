import DataPlacement.Proofs.Pool.Blocks
import DataPlacement.Proofs.Pool.Disowning
import DataPlacement.Proofs.Pool.Erasure
import DataPlacement.Proofs.Pool.WriteLoop

namespace DataPlacement.Pool

variable {p q : Pool} {u : UnitId} {id i : LineId} {l l' : Line} {o : Option UnitId} {count : Nat}
  {enlist : List LineId → List LineId}

/-! ### Giving lines to a unit -/

theorem Gives.ownerOf {block : List LineId} (h : Gives u block p q)
    (hexists : ∀ i ∈ block, i < p.lines.size) (hid : id ∈ block) : q.ownerOf id = some u := by
  rw [Pool.ownerOf, h.given id hid, Array.getElem?_eq_getElem (hexists id hid)]
  rfl

/-! ### Back to a free list -/

/-- The line is being written, nothing is written to it yet, and its owner has a list. -/
def Releasable (p : Pool) (id : LineId) : Prop :=
  ∃ l, p.lines[id]? = some l ∧ l.state = .active ∧ l.pages = 0 ∧ p.hasList l.owner

theorem release_of_not_releasable (h : ¬ p.Releasable id) :
    ∃ cause, p.release id = .refused cause p := by
  unfold release
  cases hline : p.lines[id]? with
  | none => exact ⟨_, rfl⟩
  | some l =>
    by_cases huntouched : l.state = .active ∧ l.pages = 0
    · by_cases hlist : p.hasList l.owner
      · exact absurd ⟨l, hline, huntouched.1, huntouched.2, hlist⟩ h
      · exact ⟨_, by simp [huntouched, hlist]; rfl⟩
    · rw [not_and_or] at huntouched
      exact ⟨_, if_pos huntouched⟩

/-- The line is there, and free. -/
def FreeAt (p : Pool) (id : LineId) : Prop := ∃ l, p.lines[id]? = some l ∧ l.state = .free

theorem FreeAt.reclaim_eq (h : p.FreeAt id) : p.reclaim id = .refused (.notReclaimable id) p := by
  obtain ⟨l, hline, hstate⟩ := h
  simp [reclaim, hline, hstate]

namespace FreeAt

theorem of_lines (h : p.FreeAt id) (hlines : q.lines = p.lines) : q.FreeAt id := by
  rwa [FreeAt, hlines]

theorem updateLine (h : p.FreeAt id) (i : LineId) {f : Line → Line}
    (hf : ∀ l, l.state = .free → (f l).state = .free) : (p.updateLine i f).FreeAt id := by
  obtain ⟨l, hline, hstate⟩ := h
  rw [FreeAt, getElem?_updateLine]
  by_cases hi : i = id
  · exact ⟨f l, by rw [if_pos hi, hline, Option.map_some], hf l hstate⟩
  · exact ⟨l, by rw [if_neg hi, hline], hstate⟩

theorem updateOther (h : p.FreeAt id) (hi : i ≠ id) (f : Line → Line) :
    (p.updateLine i f).FreeAt id := by
  obtain ⟨l, hline, hstate⟩ := h
  exact ⟨l, by rw [getElem?_updateLine, if_neg hi, hline], hstate⟩

theorem take (h : p.FreeAt id) (hother : (p.take o).1 ≠ some id) : (p.take o).2.FreeAt id := by
  cases hfree : p.freeLines o with
  | nil => rwa [take_of_freeLines_eq_nil hfree]
  | cons first rest =>
    rw [take_of_freeLines_eq_cons hfree] at hother ⊢
    have hne : first ≠ id := fun heq => hother (congrArg some heq)
    exact (h.of_lines (lines_setFreeList p o _)).updateOther hne _

theorem program (h : p.FreeAt id) (i : LineId) (pages : Nat) : (p.program i pages).FreeAt id :=
  h.updateLine i fun _ hfree => hfree

/-- Only a line that is being written becomes full. -/
theorem retire (h : p.FreeAt id) (i : LineId) : (p.retire i).FreeAt id := by
  unfold Pool.retire
  split
  · exact h
  · next l hline =>
    split
    · next hstate =>
      have hne : i ≠ id := by
        rintro rfl
        obtain ⟨k, hline', hfree⟩ := h
        obtain rfl : l = k := Option.some.inj (hline.symm.trans hline')
        rw [hstate] at hfree
        cases hfree
      exact (h.updateOther hne (·.retire (p.retirements + 1))).of_lines rfl
    · exact h

theorem release (h : p.FreeAt id) (i : LineId) : (p.release i).state.FreeAt id := by
  by_cases hreleasable : p.Releasable i
  · obtain ⟨l, hline, hstate, hpages, hlist⟩ := hreleasable
    rw [release_of_untouched hline hstate hpages hlist]
    exact (h.of_lines (lines_setFreeList p _ _)).updateLine i fun _ _ => rfl
  · obtain ⟨cause, hrefused⟩ := release_of_not_releasable hreleasable
    rwa [hrefused]

theorem reclaim (h : p.FreeAt id) (i : LineId) : (p.reclaim i).state.FreeAt id := by
  obtain ⟨cause, hrefused⟩ | ⟨l, hline, hstate, hlist⟩ := p.reclaim_cases i
  · rwa [hrefused]
  · rw [reclaim_of_full hline hstate hlist]
    exact (h.of_lines (lines_setFreeList p _ _)).updateLine i fun _ _ => rfl

theorem assign (h : p.FreeAt id) (u : UnitId) (count : Nat) :
    (p.assign u count).state.FreeAt id := by
  by_cases henough : p.hasList (some u) ∧ count ≤ (p.freeLines none).length
  · obtain ⟨q, hassign, hgives⟩ := assign_of_enough henough.1 henough.2
    obtain ⟨l, hline, hstate⟩ := h
    rw [hassign]
    by_cases hid : id ∈ (p.freeLines none).take count
    · exact ⟨{ l with owner := some u }, by rw [Outcome.done, hgives.given id hid, hline]; rfl,
        hstate⟩
    · exact ⟨l, by rw [Outcome.done, hgives.others id hid, hline], hstate⟩
  · obtain ⟨cause, hrefused⟩ := assign_of_not_enough henough
    rwa [hrefused]

theorem disown (h : p.FreeAt id) (i : LineId) : (p.disown i).FreeAt id := by
  obtain ⟨l, hline, hstate⟩ := h
  rw [FreeAt, getElem?_disown]
  by_cases hi : i = id
  · have hkept := Line.disowned_of_inactive (l := l) (n := p.retirements + 1) (by simp [hstate])
    exact ⟨{ l with owner := none }, by rw [if_pos hi, hline, Option.map_some, hkept], hstate⟩
  · exact ⟨l, by rw [if_neg hi, hline], hstate⟩

theorem dissolve (h : p.FreeAt id) : p.dissolve.FreeAt id := by
  have hshared : p.shareReserved.FreeAt id := by
    obtain ⟨l, hline, hstate⟩ := h
    rw [FreeAt, getElem?_shareReserved]
    by_cases hid : id ∈ p.reservedLines
    · exact ⟨{ l with owner := none }, by rw [if_pos hid, hline]; rfl, hstate⟩
    · exact ⟨l, by rw [if_neg hid, hline], hstate⟩
  exact List.foldlRecOn (motive := fun q : Pool => q.FreeAt id) _ _ hshared
    fun _ hq i _ => hq.disown i

end FreeAt

/-! ### Moves in a row -/

/-- The primitive moves of a pool. -/
inductive Primitive where
  | reserve (units : Nat)
  | assign (u : UnitId) (count : Nat)
  | take (owner : Option UnitId)
  | program (id : LineId) (pages : Nat)
  | retire (id : LineId)
  | release (id : LineId)
  | reclaim (id : LineId)
  | dissolve

namespace Primitive

/-- The pool after a move, accepted or refused. -/
def perform (p : Pool) : Primitive → Pool
  | reserve units => p.reserve units
  | assign u count => (p.assign u count).state
  | take owner => (p.take owner).2
  | program id pages => p.program id pages
  | retire id => p.retire id
  | release id => (p.release id).state
  | reclaim id => (p.reclaim id).state
  | dissolve => p.dissolve

/-- The pool after moves. -/
def after (p : Pool) (moves : List Primitive) : Pool := moves.foldl perform p

/-- The move takes the line. -/
def Takes (p : Pool) (id : LineId) : Primitive → Prop
  | take owner => (p.take owner).1 = some id
  | _ => False

/-- None of the moves takes the line. -/
def Untaken (id : LineId) : Pool → List Primitive → Prop
  | _, [] => True
  | p, move :: moves => ¬ move.Takes p id ∧ Untaken id (move.perform p) moves

instance (p : Pool) (id : LineId) (move : Primitive) : Decidable (move.Takes p id) :=
  match move with
  | take owner => inferInstanceAs (Decidable ((p.take owner).1 = some id))
  | reserve _ | assign _ _ | program _ _ | retire _ | release _ | reclaim _ | dissolve =>
    inferInstanceAs (Decidable False)

instance decidableUntaken (id : LineId) :
    (p : Pool) → (moves : List Primitive) → Decidable (Untaken id p moves)
  | _, [] => inferInstanceAs (Decidable True)
  | p, move :: moves =>
    have := decidableUntaken id (move.perform p) moves
    inferInstanceAs (Decidable (¬ move.Takes p id ∧ Untaken id (move.perform p) moves))

end Primitive

namespace FreeAt

/-- Taking it is the only move by which a free line becomes anything else. -/
theorem perform (h : p.FreeAt id) {move : Primitive} (hother : ¬ move.Takes p id) :
    (move.perform p).FreeAt id := by
  cases move with
  | reserve units => exact h
  | assign u count => exact h.assign u count
  | take owner => exact h.take hother
  | program i pages => exact h.program i pages
  | retire i => exact h.retire i
  | release i => exact h.release i
  | reclaim i => exact h.reclaim i
  | dissolve => exact h.dissolve

theorem after (h : p.FreeAt id) {moves : List Primitive} (huntaken : Primitive.Untaken id p moves) :
    (Primitive.after p moves).FreeAt id := by
  induction moves generalizing p with
  | nil => exact h
  | cons move moves ih => exact ih (h.perform huntaken.1) huntaken.2

end FreeAt

end DataPlacement.Pool
