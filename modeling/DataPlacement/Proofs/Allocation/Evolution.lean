import DataPlacement.Proofs.Allocation.Switching
import Mathlib.Data.List.Count

namespace DataPlacement

/-! ### Erase counts -/

/-- An erase count after so many more erasures. -/
def worn (erases : Nat) : (erasures : Nat) → Nat
  | 0 => erases
  | erasures + 1 => advance 32 (worn erases erasures) 1

theorem worn_add (erases n m : Nat) : worn erases (n + m) = worn (worn erases n) m := by
  induction m with
  | zero => rfl
  | succ m ih => rw [← Nat.add_assoc, worn, ih, worn]

theorem worn_succ (erases n : Nat) : worn erases (n + 1) = advance 32 erases (n + 1) := by
  induction n with
  | zero => rfl
  | succ n ih => rw [worn, ih, advance_advance]

theorem worn_zero (n : Nat) : worn 0 n = lowBits 32 n := by
  cases n with
  | zero => rfl
  | succ n => rw [worn_succ, advance, Nat.zero_add]

/-- The count of an erased line differs from the count before, unless it went all the way round. -/
theorem worn_ne {erases n : Nat} (hpos : 0 < n) (hn : n < bitRange 32) :
    worn erases n ≠ erases := by
  obtain ⟨n, rfl⟩ := Nat.exists_eq_add_of_lt hpos
  rw [Nat.zero_add] at hn ⊢
  rw [worn_succ]
  exact advance_ne (Nat.succ_pos n) hn

/-! ### Records over time -/

/-- From one record of a line to a later one, with so many erasures in between. -/
structure Line.Evolves (l l' : Line) (erasures : Nat) : Prop where
  erases : l'.erases = worn l.erases erasures
  written : erasures = 0 → 0 < l.pages →
    0 < l'.pages ∧ (l'.state = .active → l.state = .active ∧ l'.owner = l.owner)

namespace Line.Evolves

variable {l l' l'' : Line} {n m : Nat}

theorem refl (l : Line) : l.Evolves l 0 :=
  ⟨rfl, fun _ hpages => ⟨hpages, fun hstate => ⟨hstate, rfl⟩⟩⟩

theorem trans (h : l.Evolves l' n) (h' : l'.Evolves l'' m) : l.Evolves l'' (n + m) where
  erases := by rw [h'.erases, h.erases, worn_add]
  written hnone hpages := by
    obtain ⟨hpages', hactive⟩ := h.written (Nat.eq_zero_of_add_eq_zero_right hnone) hpages
    obtain ⟨hpages'', hactive'⟩ := h'.written (Nat.eq_zero_of_add_eq_zero_left hnone) hpages'
    refine ⟨hpages'', fun hstate => ?_⟩
    obtain ⟨hstate, howner⟩ := hactive' hstate
    obtain ⟨hstate, howner'⟩ := hactive hstate
    exact ⟨hstate, howner.trans howner'⟩

/-- A line without data may become anything that was not erased more often. -/
theorem of_empty (hpages : l.pages = 0) (herases : l'.erases = l.erases) : l.Evolves l' 0 :=
  ⟨herases, fun _ hpos => absurd hpages (Nat.ne_of_gt hpos)⟩

/-- A line that is not active any more keeps its data. -/
theorem of_inactive (herases : l'.erases = l.erases) (hpages : l'.pages = l.pages)
    (hstate : l'.state ≠ .active) : l.Evolves l' 0 :=
  ⟨herases, fun _ hpos => ⟨hpages ▸ hpos, fun hactive => absurd hactive hstate⟩⟩

end Line.Evolves

namespace Allocation

variable {s t : Allocation} {es : List LineEvent} {W : Option UnitId → Prop}

/-- How often events erase a line. -/
def erasuresOf (id : LineId) (es : List LineEvent) : Nat := es.count (.erased id)

/-- Every line evolves as the events tell. -/
def Evolves (s : Allocation) (es : List LineEvent) (t : Allocation) : Prop :=
  ∀ (id : LineId) (l : Line), s.pool.lines[id]? = some l →
    ∃ l', t.pool.lines[id]? = some l' ∧ l.Evolves l' (erasuresOf id es)

/-- A move that changes one record makes the others evolve trivially. -/
theorem evolves_of_change {id : LineId} {l : Line} (l' : Line) (hline : s.pool.lines[id]? = some l)
    (hlines : ∀ i : LineId, t.pool.lines[i]? = if id = i then some l' else s.pool.lines[i]?)
    (hself : l.Evolves l' (erasuresOf id es)) (hothers : ∀ i, id ≠ i → erasuresOf i es = 0) :
    Evolves s es t := by
  intro i k hk
  rw [hlines i]
  by_cases hi : id = i
  · subst hi
    obtain rfl : l = k := Option.some.inj (hline.symm.trans hk)
    exact ⟨l', if_pos rfl, hself⟩
  · rw [if_neg hi, hothers i hi]
    exact ⟨k, hk, .refl k⟩

theorem erasuresOf_nil (id : LineId) : erasuresOf id [] = 0 := rfl

theorem erasuresOf_wrote (id i : LineId) (o : Option UnitId) : erasuresOf i [.wrote o id] = 0 := by
  simp [erasuresOf]

theorem erasuresOf_erased (id : LineId) (ids : List LineId) :
    erasuresOf id (ids.map .erased) = ids.count id :=
  List.count_map_of_injective _ _ (fun _ _ h => LineEvent.erased.inj h) _

theorem erasuresOf_append (id : LineId) (es fs : List LineEvent) :
    erasuresOf id (es ++ fs) = erasuresOf id es + erasuresOf id fs := by
  simp [erasuresOf]

theorem Traffic.evolves (h : Traffic W s es t) (hs : s.Sound) : Evolves s es t := by
  cases h with
  | @opens o id rest _ hpointer hfree =>
    have hmem : id ∈ s.pool.freeLines o := by simp [hfree]
    obtain ⟨l, hline, hstate, -, hpages⟩ := hs.free_of_mem hmem
    refine evolves_of_change l.activate hline (fun i => ?_) (.of_empty hpages rfl)
      fun _ _ => rfl
    rw [pool_point, Pool.getElem?_taken]
    exact Pool.ite_map_line hline _ i
  | @writes o id page count _ hpointer hcount hroom =>
    obtain ⟨l, hline, -⟩ := hs.of_pointer hpointer
    have hwritten := hs.program_current hpointer hline (Nat.le_of_lt hroom)
    refine evolves_of_change (l.program count s.pool.pagesPerLine) hline (fun i => ?_) ?_
      fun i _ => erasuresOf_wrote id i o
    · rw [pool_point, Pool.getElem?_program]
      exact Pool.ite_map_line hline _ i
    · rw [erasuresOf_wrote]
      refine ⟨rfl, fun _ _ => ⟨?_, fun hstate => ⟨hstate, rfl⟩⟩⟩
      rw [hwritten]
      exact Nat.add_pos_right page hcount
  | @fills o id page count _ hpointer hcount hlast =>
    obtain ⟨l, hline, hstate, -⟩ := hs.of_pointer hpointer
    have hwritten := hs.program_current hpointer hline (Nat.le_of_eq hlast)
    refine evolves_of_change _ hline (Pool.getElem?_filled hline hstate count) ?_
      fun i _ => erasuresOf_wrote id i o
    rw [erasuresOf_wrote]
    refine ⟨rfl, fun _ _ => ⟨?_, fun hactive => by cases hactive⟩⟩
    rw [hwritten]
    exact Nat.add_pos_right page hcount
  | @reclaims id l _ hline hstate hlist =>
    refine evolves_of_change l.erase hline (fun i => ?_) ?_ fun i hi => ?_
    · rw [Pool.getElem?_reclaimed]
      exact Pool.ite_map_line hline _ i
    · refine ⟨?_, fun hnone => ?_⟩
      · simp [erasuresOf, Line.erase, worn]
      · simp [erasuresOf] at hnone
    · exact List.count_eq_zero.2 (by simpa using Ne.symm hi)

theorem Move.evolves (h : Move s es t) (hs : s.Sound) : Evolves s es t := by
  cases h with
  | traffic h => exact h.evolves hs
  | @releases id hpointer =>
    obtain ⟨l, hline, -, -, hpages, -⟩ := hs.of_pointer hpointer
    refine evolves_of_change { l with state := .free } hline (fun i => ?_)
      (.of_empty hpages rfl) fun _ _ => rfl
    rw [pool_point, Pool.getElem?_released]
    exact Pool.ite_map_line hline _ i
  | @retires id page hpointer hpage =>
    obtain ⟨l, hline, hstate, -, -, -⟩ := hs.of_pointer hpointer
    exact evolves_of_change _ hline (fun i => Pool.getElem?_retire i hline hstate)
      (.of_inactive rfl rfl (by simp [Line.retire])) fun _ _ => rfl
  | reserves hnone => exact fun i k hk => ⟨k, hk, .refl k⟩
  | @assigns u id rest hlist hfree =>
    have hmem : id ∈ s.pool.freeLines none := by simp [hfree]
    obtain ⟨l, hline, -, -, hpages⟩ := hs.free_of_mem hmem
    refine evolves_of_change { l with owner := some u } hline (fun i => ?_)
      (.of_empty hpages rfl) fun _ _ => rfl
    rw [Pool.getElem?_assigned]
    exact Pool.ite_map_line hline _ i
  | shares =>
    intro i k hk
    simp only [Pool.getElem?_shareReserved]
    split
    · next hmem =>
      obtain ⟨u, hu⟩ := (s.pool.mem_reservedLines i).1 hmem
      obtain ⟨l, hline, -, -, hpages⟩ := hs.free_of_mem hu
      obtain rfl : l = k := Option.some.inj (hline.symm.trans hk)
      exact ⟨{ l with owner := none }, by rw [hk]; rfl, .of_empty hpages rfl⟩
    · exact ⟨k, hk, .refl k⟩
  | @disowns id l u hline howner hstate =>
    exact evolves_of_change _ hline (Pool.getElem?_disown_of_full hline howner hstate)
      (.of_inactive rfl rfl (by simp [hstate])) fun _ _ => rfl
  | @stops id l u hline howner hstate =>
    by_cases hpages : l.pages = 0
    · exact evolves_of_change _ hline
        (Pool.getElem?_disown_of_untouched hline howner hstate hpages)
        (.of_empty hpages rfl) fun _ _ => rfl
    · exact evolves_of_change _ hline
        (Pool.getElem?_disown_of_written hline howner hstate hpages)
        (.of_inactive rfl rfl (by simp [Line.retire])) fun _ _ => rfl

theorem evolves_of_steps (h : Steps Move s es t) (hs : s.Sound) : Evolves s es t := by
  induction h with
  | refl => exact fun _ l hline => ⟨l, hline, .refl l⟩
  | tail hsteps hmove ih =>
    intro id l hline
    obtain ⟨l', hline', hfirst⟩ := ih id l hline
    obtain ⟨l'', hline'', hlast⟩ := hmove.evolves (sound_of_steps hsteps hs) id l' hline'
    rw [erasuresOf_append]
    exact ⟨l'', hline'', hfirst.trans hlast⟩

end Allocation

end DataPlacement
