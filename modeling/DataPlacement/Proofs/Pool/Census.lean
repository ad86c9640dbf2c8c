import DataPlacement.Proofs.Pool.Views
import Mathlib.Data.List.Perm.Subperm
import Mathlib.Data.List.Induction

namespace DataPlacement.Pool

/-- Counting items is counting their places. -/
theorem countP_eq_countP_range {α : Type} (holds : α → Bool) (items : List α) :
    items.countP holds = (List.range items.length).countP fun i => items[i]?.any holds := by
  induction items using List.reverseRecOn with
  | nil => rfl
  | append_singleton items item ih =>
    have hbefore : (List.range items.length).countP (fun i => (items ++ [item])[i]?.any holds) =
        items.countP holds := by
      rw [ih]
      apply List.countP_congr
      intro i hi
      rw [List.getElem?_append_left (List.mem_range.1 hi)]
    rw [List.countP_append, List.length_append, List.length_singleton, List.range_succ,
      List.countP_append, hbefore]
    simp

/-- The lines in a state, in line order. -/
def linesIn (p : Pool) (s : LineState) : List LineId :=
  (List.range p.lines.size).filter fun id => p.lines[id]?.any (·.state = s)

variable {p : Pool} {s : LineState}

theorem mem_linesIn {id : LineId} :
    id ∈ p.linesIn s ↔ ∃ l, p.lines[id]? = some l ∧ l.state = s := by
  simp only [linesIn, List.mem_filter, List.mem_range, Option.any_eq_true, decide_eq_true_eq]
  constructor
  · rintro ⟨-, hline⟩
    exact hline
  · rintro ⟨l, hline, hstate⟩
    exact ⟨(Array.getElem?_eq_some_iff.1 hline).1, l, hline, hstate⟩

theorem nodup_linesIn (p : Pool) (s : LineState) : (p.linesIn s).Nodup :=
  List.nodup_range.filter _

theorem length_linesIn (p : Pool) (s : LineState) : (p.linesIn s).length = p.countState s := by
  have hplaces := countP_eq_countP_range (fun l : Line => decide (l.state = s)) p.lines.toList
  rw [linesIn, ← List.countP_eq_length_filter, countState, ← Array.countP_toList, hplaces]
  simp

/-- A list that names every line in a state once is as long as there are such lines. -/
theorem countState_eq_length {ids : List LineId} (hnodup : ids.Nodup)
    (hmem : ∀ id : LineId, id ∈ ids ↔ ∃ l, p.lines[id]? = some l ∧ l.state = s) :
    p.countState s = ids.length := by
  have hperm : (p.linesIn s).Perm ids := by
    rw [List.perm_ext_iff_of_nodup (p.nodup_linesIn s) hnodup]
    intro id
    rw [mem_linesIn, hmem]
  rw [← length_linesIn, hperm.length_eq]

/-- A list that names lines in a state, each of them once and as many as there are, names them all.
-/
theorem mem_iff_of_countState_le {ids : List LineId} (hnodup : ids.Nodup)
    (hstate : ∀ id ∈ ids, ∃ l, p.lines[id]? = some l ∧ l.state = s)
    (hlength : p.countState s ≤ ids.length) (id : LineId) :
    id ∈ ids ↔ ∃ l, p.lines[id]? = some l ∧ l.state = s := by
  have hsubset : ids ⊆ p.linesIn s := fun i hi => mem_linesIn.2 (hstate i hi)
  have hperm : ids.Perm (p.linesIn s) :=
    (hnodup.subperm hsubset).perm_of_length_le (by rwa [length_linesIn])
  rw [hperm.mem_iff, mem_linesIn]

/-- Every line is in one state. -/
theorem countState_sum (p : Pool) :
    p.countState .free + p.countState .active + p.countState .full = p.lines.size := by
  have hsum : ∀ lines : List Line, lines.countP (·.state = .free) +
      lines.countP (·.state = .active) + lines.countP (·.state = .full) = lines.length := by
    intro lines
    induction lines with
    | nil => rfl
    | cons l lines ih =>
      cases hstate : l.state <;> simp [hstate] at ih ⊢ <;> omega
  simpa [countState] using hsum p.lines.toList

end DataPlacement.Pool
