import DataPlacement.Proofs.Allocation.Evolution
import Mathlib.Logic.Function.Basic

namespace DataPlacement

/-- For each line the writer that wrote on it last, if it was not erased since. -/
abbrev Holders := LineId → Option (Option UnitId)

namespace Holders

/-- The record after an event. -/
def note (h : Holders) : LineEvent → Holders
  | .erased id => Function.update h id none
  | .wrote o id => Function.update h id (some o)

/-- No event lets a writer onto a line that another writer holds. -/
def Respected (h : Holders) : List LineEvent → Prop
  | [] => True
  | .erased id :: es => Respected (h.note (.erased id)) es
  | .wrote o id :: es => (∀ o', h id = some o' → o' = o) ∧ Respected (h.note (.wrote o id)) es

theorem respected_append (h : Holders) (es fs : List LineEvent) :
    h.Respected (es ++ fs) ↔ h.Respected es ∧ (es.foldl note h).Respected fs := by
  induction es generalizing h with
  | nil => simp [Respected]
  | cons e es ih => cases e <;> simp [Respected, ih, and_assoc]

/-- Events that do not erase a line leave it with its holder. -/
theorem holder_foldl {id : LineId} {o : Option UnitId} {es : List LineEvent} (h : Holders)
    (hholder : h id = some o) (hkept : .erased id ∉ es) (hes : h.Respected es) :
    (es.foldl note h) id = some o := by
  induction es generalizing h with
  | nil => exact hholder
  | cons e es ih =>
    rw [List.mem_cons, not_or] at hkept
    cases e with
    | erased i =>
      have hi : id ≠ i := fun heq => hkept.1 (heq ▸ rfl)
      exact ih _ (by rw [note, Function.update_of_ne hi, hholder]) hkept.2 hes
    | wrote o' i =>
      refine ih _ ?_ hkept.2 hes.2
      by_cases hi : id = i
      · subst hi
        rw [note, Function.update_self, hes.1 o hholder]
      · rw [note, Function.update_of_ne hi, hholder]

/-- Two writes to a line with no erasure of it in between are by one writer. -/
theorem eq_of_respected {h : Holders} {before between : List LineEvent} {id : LineId}
    {o o' : Option UnitId}
    (hes : h.Respected (before ++ .wrote o id :: between ++ [.wrote o' id]))
    (hkept : .erased id ∉ between) : o = o' := by
  rw [List.append_assoc, List.cons_append, respected_append] at hes
  obtain ⟨-, -, hes⟩ := hes
  rw [respected_append] at hes
  obtain ⟨hbetween, hlast, -⟩ := hes
  exact hlast o (holder_foldl _ (by rw [note, Function.update_self]) hkept hbetween)

end Holders

namespace Allocation

variable {s t : Allocation} {es : List LineEvent} {h : Holders}

/-- A line with a holder has data, and is written by its holder only. -/
def Held (s : Allocation) (h : Holders) : Prop :=
  ∀ id o, h id = some o →
    ∃ l, s.pool.lines[id]? = some l ∧ 0 < l.pages ∧ (l.state = .active → l.owner = o)

/-- A move without events leaves the lines with their holders. -/
theorem Held.of_quiet (hs : s.Sound) (hheld : s.Held h) (hmove : Move s [] t) : t.Held h := by
  intro id o hholder
  obtain ⟨l, hline, hpages, howner⟩ := hheld id o hholder
  obtain ⟨l', hline', hevolves⟩ := hmove.evolves hs id l hline
  obtain ⟨hpages', hactive⟩ := hevolves.written rfl hpages
  refine ⟨l', hline', hpages', fun hstate => ?_⟩
  obtain ⟨hstate, hsame⟩ := hactive hstate
  exact hsame.trans (howner hstate)

/-- A write is by the owner of the line, which then holds it. -/
theorem Held.of_wrote (hs : s.Sound) (hheld : s.Held h) {o : Option UnitId} {id : LineId}
    (hmove : Move s [.wrote o id] t) {l l' : Line} (hline : s.pool.lines[id]? = some l)
    (hstate : l.state = .active) (howner : l.owner = o) (hline' : t.pool.lines[id]? = some l')
    (hpages' : 0 < l'.pages) (howner' : l'.owner = o) :
    h.Respected [.wrote o id] ∧ t.Held (h.note (.wrote o id)) := by
  constructor
  · refine ⟨fun o' hholder => ?_, trivial⟩
    obtain ⟨k, hk, -, hwriter⟩ := hheld id o' hholder
    obtain rfl : l = k := Option.some.inj (hline.symm.trans hk)
    exact (hwriter hstate).symm.trans howner
  · intro i o' hholder
    by_cases hi : i = id
    · subst hi
      obtain rfl : o = o' := by simpa [Holders.note] using hholder
      exact ⟨l', hline', hpages', fun _ => howner'⟩
    · rw [Holders.note, Function.update_of_ne hi] at hholder
      obtain ⟨k, hk, hpages, hwriter⟩ := hheld i o' hholder
      obtain ⟨k', hk', hevolves⟩ := hmove.evolves hs i k hk
      rw [erasuresOf_wrote] at hevolves
      obtain ⟨hkept, hactive⟩ := hevolves.written rfl hpages
      refine ⟨k', hk', hkept, fun hstate' => ?_⟩
      obtain ⟨hactive, hsame⟩ := hactive hstate'
      exact hsame.trans (hwriter hactive)

/-- An erased line has no holder, and the others keep theirs. -/
theorem Held.of_erased (hs : s.Sound) (hheld : s.Held h) {id : LineId}
    (hmove : Move s [.erased id] t) : t.Held (h.note (.erased id)) := by
  intro i o hholder
  by_cases hi : i = id
  · subst hi
    simp [Holders.note] at hholder
  · rw [Holders.note, Function.update_of_ne hi] at hholder
    obtain ⟨l, hline, hpages, howner⟩ := hheld i o hholder
    obtain ⟨l', hline', hevolves⟩ := hmove.evolves hs i l hline
    have hnone : erasuresOf i [.erased id] = 0 := List.count_eq_zero.2 (by simpa using hi)
    obtain ⟨hpages', hactive⟩ := hevolves.written hnone hpages
    refine ⟨l', hline', hpages', fun hstate => ?_⟩
    obtain ⟨hstate, hsame⟩ := hactive hstate
    exact hsame.trans (howner hstate)

/-- A move is quiet, or erases a line, or writes on the current line of its writer. -/
theorem Move.events_cases (hmove : Move s es t) (hs : s.Sound) :
    es = [] ∨ (∃ id, es = [.erased id]) ∨
      ∃ o id l l', es = [.wrote o id] ∧ s.pool.lines[id]? = some l ∧ l.state = .active ∧
        l.owner = o ∧ t.pool.lines[id]? = some l' ∧ 0 < l'.pages ∧ l'.owner = o := by
  cases hmove with
  | traffic h =>
    cases h with
    | opens => exact .inl rfl
    | @writes o id page count _ hpointer hcount hroom =>
      obtain ⟨l, hline, hstate, howner, -, -⟩ := hs.of_pointer hpointer
      refine .inr (.inr ⟨o, id, l, l.program count s.pool.pagesPerLine, rfl, hline, hstate, howner,
        by simp [hline], ?_, howner⟩)
      rw [hs.program_current hpointer hline (Nat.le_of_lt hroom)]
      exact Nat.add_pos_right page hcount
    | @fills o id page count _ hpointer hcount hlast =>
      obtain ⟨l, hline, hstate, howner, -, -⟩ := hs.of_pointer hpointer
      refine .inr (.inr ⟨o, id, l, _, rfl, hline, hstate, howner,
        (Pool.getElem?_filled hline hstate count id).trans (if_pos rfl), ?_, howner⟩)
      rw [hs.program_current hpointer hline (Nat.le_of_eq hlast)]
      exact Nat.add_pos_right page hcount
    | reclaims => exact .inr (.inl ⟨_, rfl⟩)
  | releases | retires | reserves | assigns | shares | disowns | stops => exact .inl rfl

theorem Move.held (hmove : Move s es t) (hs : s.Sound) (hheld : s.Held h) :
    h.Respected es ∧ t.Held (es.foldl Holders.note h) := by
  obtain rfl | ⟨id, rfl⟩ | ⟨o, id, l, l', rfl, hline, hstate, howner, hline', hpages, howner'⟩ :=
    hmove.events_cases hs
  · exact ⟨trivial, hheld.of_quiet hs hmove⟩
  · exact ⟨trivial, hheld.of_erased hs hmove⟩
  · exact hheld.of_wrote hs hmove hline hstate howner hline' hpages howner'

theorem held_of_steps (hsteps : Steps Move s es t) (hs : s.Sound) (hheld : s.Held h) :
    h.Respected es ∧ t.Held (es.foldl Holders.note h) := by
  induction hsteps with
  | refl => exact ⟨trivial, hheld⟩
  | tail hsteps hmove ih =>
    obtain ⟨hrespected, hmiddle⟩ := ih
    obtain ⟨hlast, hafter⟩ := hmove.held (sound_of_steps hsteps hs) hmiddle
    rw [Holders.respected_append, List.foldl_append]
    exact ⟨⟨hrespected, hlast⟩, hafter⟩

end Allocation

end DataPlacement
