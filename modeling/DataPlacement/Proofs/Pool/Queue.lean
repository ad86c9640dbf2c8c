import DataPlacement.Proofs.Pool.Agreement

namespace DataPlacement

theorem VictimPolicy.olderOrEqual_total (a b : Candidate) :
    olderOrEqual a b || olderOrEqual b a := by
  simp only [olderOrEqual, Bool.or_eq_true, Bool.and_eq_true, decide_eq_true_eq,
    beq_iff_eq]
  rcases Nat.lt_trichotomy a.line.retiredAt b.line.retiredAt with hage | hage | hage
  · exact .inl (.inl hage)
  · rcases Nat.le_total a.id b.id with hid | hid
    · exact .inl (.inr ⟨hage, hid⟩)
    · exact .inr (.inr ⟨hage.symm, hid⟩)
  · exact .inr (.inl hage)

theorem VictimPolicy.pairwise_byAge (candidates : List Candidate) :
    (byAge candidates).Pairwise fun a b => olderOrEqual a b := by
  rw [byAge_eq_mergeSort]
  exact List.pairwise_mergeSort (fun a b c => olderOrEqual_trans (a := a) (b := b) (c := c))
    olderOrEqual_total candidates

namespace Pool

variable {p q : Pool} {u : UnitId} {wanted : Candidate → Bool}

/-- The wanted full lines, the one that became full first in front. -/
def oldest (p : Pool) (wanted : Candidate → Bool) : List LineId :=
  (VictimPolicy.byAge (p.fullLines wanted)).map (·.id)

theorem mem_oldest {id : LineId} :
    id ∈ p.oldest wanted ↔ ∃ l, p.lines[id]? = some l ∧ l.state = .full ∧ wanted ⟨id, l⟩ :=
  Collector.mem_victims (c := {}) VictimPolicy.reorders_oldestFirst

theorem nodup_oldest (p : Pool) (wanted : Candidate → Bool) : (p.oldest wanted).Nodup := by
  have hvictims : (({} : Collector).victims p none wanted).Nodup :=
    Collector.nodup_victims VictimPolicy.reorders_oldestFirst
  exact hvictims

/-- The full lines of a unit, the one that became full first in front. -/
def queue (p : Pool) (u : UnitId) : List LineId :=
  (VictimPolicy.byAge (p.fullLines fun c => c.line.isOwnedBy u)).map (·.id)

theorem mem_queue {id : LineId} :
    id ∈ p.queue u ↔ ∃ l, p.lineOf u id = some l ∧ l.state = .full := by
  have hmem : id ∈ p.queue u ↔ ∃ l, p.lines[id]? = some l ∧ l.state = .full ∧ l.isOwnedBy u :=
    mem_oldest
  rw [hmem]
  simp only [lineOf_eq_some_iff, Line.isOwnedBy_iff]
  constructor
  · rintro ⟨l, hline, hstate, howner⟩
    exact ⟨l, ⟨hline, howner⟩, hstate⟩
  · rintro ⟨l, ⟨hline, howner⟩, hstate⟩
    exact ⟨l, hline, hstate, howner⟩

theorem nodup_queue (p : Pool) (u : UnitId) : (p.queue u).Nodup := p.nodup_oldest _

theorem older_iff {a b : Candidate} (ha : a ∈ p.fullLines fun c => c.line.isOwnedBy u)
    (hb : b ∈ p.fullLines fun c => c.line.isOwnedBy u) :
    p.Older u a.id b.id ↔ a.line.retiredAt < b.line.retiredAt := by
  obtain ⟨hline, hstate, howner⟩ := mem_fullLines.1 ha
  obtain ⟨hline', hstate', howner'⟩ := mem_fullLines.1 hb
  have hfirst : p.lineOf u a.id = some a.line :=
    lineOf_eq_some_iff.2 ⟨hline, (Line.isOwnedBy_iff _ _).1 howner⟩
  have hsecond : p.lineOf u b.id = some b.line :=
    lineOf_eq_some_iff.2 ⟨hline', (Line.isOwnedBy_iff _ _).1 howner'⟩
  constructor
  · rintro ⟨_, _, ha, hb, -, -, hage⟩
    rw [hfirst] at ha
    rw [hsecond] at hb
    cases ha
    cases hb
    exact hage
  · intro hage
    exact ⟨_, _, hfirst, hsecond, hstate, hstate', hage⟩

/-- Nothing stands behind a younger line, and lines of the same age are in the order of their
numbers. -/
theorem pairwise_queue (p : Pool) (u : UnitId) :
    (p.queue u).Pairwise fun i j => ¬ p.Older u j i ∧ (¬ p.Older u i j → i ≤ j) := by
  have hfull {c : Candidate} :
      c ∈ VictimPolicy.byAge (p.fullLines fun c => c.line.isOwnedBy u) →
        c ∈ p.fullLines fun c => c.line.isOwnedBy u :=
    (VictimPolicy.reorders_oldestFirst _).mem_iff.1
  rw [queue, List.pairwise_map]
  refine (VictimPolicy.pairwise_byAge _).imp_of_mem fun {a b} ha hb hle => ?_
  rw [older_iff (hfull hb) (hfull ha), older_iff (hfull ha) (hfull hb)]
  simp only [VictimPolicy.olderOrEqual, Bool.or_eq_true, Bool.and_eq_true, decide_eq_true_eq,
    beq_iff_eq] at hle
  rcases hle with hage | ⟨hage, hid⟩
  · exact ⟨Nat.lt_asymm hage, fun hnot => absurd hage hnot⟩
  · exact ⟨fun hlt => Nat.ne_of_lt hlt hage.symm, fun _ => hid⟩

/-- Pools that agree on a unit have its full lines in the same order. -/
theorem Agree.queue (h : Agree u p q) : q.queue u = p.queue u := by
  have hmem : ∀ id, id ∈ q.queue u ↔ id ∈ p.queue u := by
    intro id
    rw [mem_queue, mem_queue]
    constructor
    · rintro ⟨l, hline, hstate⟩
      obtain ⟨m, hm, hview⟩ := h.symm.exists_lineOf hline
      exact ⟨m, hm, (Line.state_eq_of_view hview).trans hstate⟩
    · rintro ⟨l, hline, hstate⟩
      obtain ⟨m, hm, hview⟩ := h.exists_lineOf hline
      exact ⟨m, hm, (Line.state_eq_of_view hview).trans hstate⟩
  have hperm := (List.perm_ext_iff_of_nodup (q.nodup_queue u) (p.nodup_queue u)).2 hmem
  have hsorted := q.pairwise_queue u
  simp only [h.older] at hsorted
  refine List.Perm.eq_of_pairwise (fun i j _ _ hij hji => ?_) hsorted (p.pairwise_queue u) hperm
  exact Nat.le_antisymm (hij.2 hji.1) (hji.2 hij.1)

theorem length_queue (p : Pool) (u : UnitId) : (p.queue u).length = p.fullCount u := by
  have hlength : (p.queue u).length = (p.fullLines fun c => c.line.isOwnedBy u).length :=
    Collector.length_victims (c := {}) VictimPolicy.reorders_oldestFirst
  rw [hlength, length_fullLines]

/-- The same erasures of the unit's lines keep an agreement. -/
theorem Agree.erased (h : Agree u p q) {ids : List LineId} {p' q' : Pool} (hp : Erased p ids p')
    (hq : Erased q ids q') (hkeeps : Keeps p p') (hkeeps' : Keeps q q')
    (howner : ∀ id ∈ ids, (p.lineOf u id).isSome) : Agree u p' q' := by
  have hlines : ∀ {r r' : Pool}, Erased r ids r' → ∀ i, r'.lineOf u i =
      (r.lineOf u i).map fun l => if i ∈ ids then l.erase else l := by
    intro r r' herased i
    refine lineOf_of_lines (F := fun i l => if i ∈ ids then l.erase else l) (fun i => ?_)
      (fun i l => ?_) u i
    · rw [herased.lines]
      split <;> simp
    · split <;> rfl
  refine h.change (hlines hp) (hlines hq) hkeeps hkeeps' ?_ (fun i a b hview => ?_)
    (fun i l hfull => ?_) (Nat.le_of_eq hp.retirements.symm) (Nat.le_of_eq hq.retirements.symm)
  · have hall : ∀ r : Pool, (∀ id ∈ ids, ∃ l, r.lineOf u id = some l) →
        ids.filter (r.ownerOf · = some u) = ids := by
      intro r hr
      refine List.filter_eq_self.2 fun id hid => ?_
      obtain ⟨l, hline⟩ := hr id hid
      obtain ⟨hline, howner⟩ := lineOf_eq_some_iff.1 hline
      simp [ownerOf_eq hline, howner]
    have hleft : ∀ id ∈ ids, ∃ l, p.lineOf u id = some l :=
      fun id hid => Option.isSome_iff_exists.1 (howner id hid)
    have hright : ∀ id ∈ ids, ∃ l, q.lineOf u id = some l := by
      intro id hid
      obtain ⟨l, hline⟩ := hleft id hid
      obtain ⟨m, hm, -⟩ := h.exists_lineOf hline
      exact ⟨m, hm⟩
    rw [hp.freeLines, hq.freeLines, h.free, hall p hleft, hall q hright]
  · split
    · simp only [Line.view, LineView.mk.injEq] at hview
      simp [Line.view, Line.erase, hview]
    · exact hview
  · split at hfull
    · cases hfull
    · next hne => simpa [hne] using hfull

end Pool

end DataPlacement
