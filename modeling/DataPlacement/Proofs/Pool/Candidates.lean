import DataPlacement.Collector
import DataPlacement.Proofs.Pool.Views
import Mathlib.Data.List.Nodup

namespace DataPlacement

/-- The policy reorders its candidates and nothing else. -/
def VictimPolicy.Reorders (v : VictimPolicy) : Prop :=
  ∀ candidates, (v.order candidates).Perm candidates

/-- The policy takes lines from its candidates only. It may name one twice, and leave one out. -/
def VictimPolicy.Selects (v : VictimPolicy) : Prop :=
  ∀ candidates, ∀ candidate ∈ v.order candidates, candidate ∈ candidates

theorem VictimPolicy.Reorders.selects {v : VictimPolicy} (h : v.Reorders) : v.Selects :=
  fun candidates => (h candidates).subset

theorem VictimPolicy.reorders_oldestFirst : oldestFirst.Reorders := by
  intro candidates
  change (byAge candidates).Perm candidates
  rw [byAge_eq_mergeSort]
  exact List.mergeSort_perm candidates olderOrEqual

theorem VictimPolicy.reorders_newestFirst : newestFirst.Reorders :=
  fun candidates => (List.reverse_perm _).trans (reorders_oldestFirst candidates)

namespace Pool

variable {p : Pool} {wanted : Candidate → Bool}

theorem mem_fullLines {c : Candidate} :
    c ∈ p.fullLines wanted ↔ p.lines[c.id]? = some c.line ∧ c.line.state = .full ∧ wanted c := by
  obtain ⟨id, l⟩ := c
  rw [fullLines_eq]
  simp [numberedLines, isWantedFull, List.mem_zipIdx_iff_getElem?]

theorem nodup_fullLines (p : Pool) (wanted : Candidate → Bool) :
    ((p.fullLines wanted).map (·.id)).Nodup := by
  have hnumbers : (p.numberedLines.map (·.1)).Nodup := by
    have hrange : p.numberedLines.map (·.1) = List.range p.lines.size := by
      rw [numberedLines, List.map_map, List.range_eq_range']
      exact (List.zipIdx_map_snd 0 _).trans (by simp)
    rw [hrange]
    exact List.nodup_range
  rw [fullLines_eq, List.map_map]
  exact hnumbers.sublist (List.filter_sublist.map _)

theorem length_fullLines (p : Pool) (u : UnitId) :
    (p.fullLines fun c => c.line.isOwnedBy u).length = p.fullCount u := by
  have hlines : p.lines.toList.zipIdx.map Prod.fst = p.lines.toList := List.zipIdx_map_fst 0 _
  rw [fullLines_eq, List.length_map, ← List.countP_eq_length_filter, numberedLines,
    List.countP_map, fullCount, ← Array.countP_toList]
  conv_rhs => rw [← hlines, List.countP_map]
  rfl

end Pool

namespace Collector

variable {c : Collector} {p : Pool} {wanted : Candidate → Bool}

/-- A budget cuts off the end of what would be erased without it. -/
theorem sublist_victims (budget : Option Nat) :
    (c.victims p budget wanted).Sublist (c.victims p none wanted) := by
  cases budget with
  | none => exact List.Sublist.refl _
  | some n => exact (List.take_sublist n _).map _

theorem exists_of_mem_victims (hc : c.policy.Selects) {budget : Option Nat} {id : LineId}
    (h : id ∈ c.victims p budget wanted) :
    ∃ l, p.lines[id]? = some l ∧ l.state = .full ∧ wanted ⟨id, l⟩ := by
  obtain ⟨candidate, hordered, rfl⟩ := List.mem_map.1 ((sublist_victims budget).subset h)
  exact ⟨candidate.line, Pool.mem_fullLines.1 (hc _ candidate hordered)⟩

theorem mem_victims (hc : c.policy.Reorders) {id : LineId} :
    id ∈ c.victims p none wanted ↔
      ∃ l, p.lines[id]? = some l ∧ l.state = .full ∧ wanted ⟨id, l⟩ := by
  constructor
  · exact exists_of_mem_victims hc.selects
  · rintro ⟨l, hfull⟩
    have hmem : ⟨id, l⟩ ∈ p.fullLines wanted := Pool.mem_fullLines.2 hfull
    exact List.mem_map.2 ⟨_, (hc _).mem_iff.2 hmem, rfl⟩

/-- A pass names no line twice. -/
theorem nodup_victims (hc : c.policy.Reorders) {budget : Option Nat} :
    (c.victims p budget wanted).Nodup := by
  have hperm : (c.victims p none wanted).Perm ((p.fullLines wanted).map (·.id)) := (hc _).map _
  have hall : (c.victims p none wanted).Nodup := hperm.nodup_iff.2 (p.nodup_fullLines wanted)
  exact hall.sublist (sublist_victims budget)

theorem length_victims (hc : c.policy.Reorders) :
    (c.victims p none wanted).length = (p.fullLines wanted).length := by
  have hperm : (c.victims p none wanted).Perm ((p.fullLines wanted).map (·.id)) := (hc _).map _
  rw [hperm.length_eq, List.length_map]

end Collector

end DataPlacement
