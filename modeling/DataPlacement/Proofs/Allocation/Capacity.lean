import DataPlacement.Proofs.Allocation.Basic
import DataPlacement.Proofs.Pool.Candidates
import DataPlacement.Proofs.Pool.Ownership
import DataPlacement.Proofs.Pool.Stream
import Mathlib.Data.Finset.Option

namespace DataPlacement

namespace Pool

variable {p : Pool} {o : Option UnitId} {id : LineId}

/-- The full lines of an owner. -/
def full (p : Pool) (o : Option UnitId) : Finset LineId :=
  (p.owned o).filter fun id => p.lines[id]?.any (·.state = .full)

theorem mem_full : id ∈ p.full o ↔ ∃ l, p.lines[id]? = some l ∧ l.owner = o ∧ l.state = .full := by
  rw [full, Finset.mem_filter, mem_owned]
  constructor
  · rintro ⟨⟨l, hline, howner⟩, hfull⟩
    exact ⟨l, hline, howner, by simpa [hline] using hfull⟩
  · rintro ⟨l, hline, howner, hfull⟩
    exact ⟨⟨l, hline, howner⟩, by simp [hline, hfull]⟩

end Pool

section Victims

variable {c : Collector} {p : Pool} {wanted : Candidate → Bool} {o : Option UnitId}

/-- A pass that wants the lines of an owner sets out to erase all full ones. -/
theorem Collector.toFinset_victims (hc : c.policy.Reorders)
    (hwanted : ∀ candidate, wanted candidate ↔ candidate.line.owner = o) :
    (c.victims p none wanted).toFinset = p.full o := by
  ext id
  rw [List.mem_toFinset, mem_victims hc, Pool.mem_full]
  simp only [hwanted]
  constructor
  · rintro ⟨l, hline, hfull, howner⟩
    exact ⟨l, hline, howner, hfull⟩
  · rintro ⟨l, hline, howner, hfull⟩
    exact ⟨l, hline, hfull, howner⟩

theorem Collector.card_victims (hc : c.policy.Reorders)
    (hwanted : ∀ candidate, wanted candidate ↔ candidate.line.owner = o) :
    (c.victims p none wanted).length = (p.full o).card := by
  rw [← toFinset_victims hc hwanted, List.toFinset_card_of_nodup (nodup_victims hc)]

theorem Pool.card_full (p : Pool) (u : UnitId) : (p.full (some u)).card = p.fullCount u := by
  have hcard : (p.full (some u)).card = _ := (Collector.card_victims (c := {}) (p := p)
    VictimPolicy.reorders_oldestFirst fun candidate => Line.isOwnedBy_iff candidate.line u).symm
  rw [hcard, Collector.length_victims VictimPolicy.reorders_oldestFirst, length_fullLines]

end Victims

namespace Allocation.Sound

variable {s : Allocation}

/-- Each line of an owner is free, current or full. -/
theorem owned_eq (hs : s.Sound) (o : Option UnitId) :
    s.pool.owned o =
      (s.pool.freeLines o).toFinset ∪ (s.pointer o).line.toFinset ∪ s.pool.full o := by
  ext id
  rw [Finset.mem_union, Finset.mem_union, List.mem_toFinset, Option.mem_toFinset, Option.mem_def,
    Pool.mem_owned, Pool.mem_full, hs.mem_freeLines, hs.current]
  constructor
  · rintro ⟨l, hline, howner⟩
    cases hstate : l.state with
    | free => exact .inl (.inl ⟨l, hline, hstate, howner⟩)
    | active => exact .inl (.inr ⟨l, hline, hstate, howner⟩)
    | full => exact .inr ⟨l, hline, howner, hstate⟩
  · rintro ((⟨l, hline, -, howner⟩ | ⟨l, hline, -, howner⟩) | ⟨l, hline, howner, -⟩)
    all_goals exact ⟨l, hline, howner⟩

theorem card_owned (hs : s.Sound) (o : Option UnitId) :
    (s.pool.owned o).card = s.pool.streamLines o (s.pointer o) + (s.pool.full o).card := by
  have hcurrent : Disjoint (s.pool.freeLines o).toFinset (s.pointer o).line.toFinset := by
    refine Finset.disjoint_left.2 fun id hfree hline => ?_
    rw [Option.mem_toFinset, Option.mem_def, hs.current] at hline
    obtain ⟨l, hline, hstate, -⟩ := hline
    exact hs.not_mem_freeLines hline (by simp [hstate]) o (List.mem_toFinset.1 hfree)
  have hfull : Disjoint ((s.pool.freeLines o).toFinset ∪ (s.pointer o).line.toFinset)
      (s.pool.full o) := by
    refine Finset.disjoint_right.2 fun id hfull hother => ?_
    obtain ⟨l, hline, -, hstate⟩ := Pool.mem_full.1 hfull
    rcases Finset.mem_union.1 hother with hfree | hcurrent
    · exact hs.not_mem_freeLines hline (by simp [hstate]) o (List.mem_toFinset.1 hfree)
    · exact hs.ne_current hline (by simp [hstate]) o (Option.mem_toFinset.1 hcurrent)
  rw [hs.owned_eq, Finset.card_union_of_disjoint hfull, Finset.card_union_of_disjoint hcurrent,
    List.toFinset_card_of_nodup (hs.nodup o), ← Pool.freeCount_eq_length, Pool.streamLines]
  cases (s.pointer o).line with
  | none => simp
  | some id => simp [Nat.add_comm]

/-- The pages that an owner can still write, once its full lines are erased. -/
theorem streamPages_add_full (hs : s.Sound) (o : Option UnitId) :
    s.pool.streamPages o (s.pointer o) + (s.pool.full o).card * s.pool.pagesPerLine =
      s.pool.pagesPerLine * (s.pool.owned o).card - (s.pointer o).page := by
  have hpage := hs.page_le o
  have hclosed := hs.closed o
  rw [hs.card_owned, Pool.streamLines, Nat.mul_comm s.pool.pagesPerLine, Nat.add_mul, Nat.add_mul,
    Pool.streamPages]
  cases hline : (s.pointer o).line with
  | none =>
    have hzero := hclosed hline
    simp only [Option.isSome_none, Bool.false_eq_true, if_false]
    omega
  | some id =>
    simp only [Option.isSome_some, if_true]
    omega

end Allocation.Sound

end DataPlacement
