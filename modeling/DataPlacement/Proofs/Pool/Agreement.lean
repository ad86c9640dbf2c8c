import DataPlacement.Proofs.Pool.Candidates
import DataPlacement.Proofs.Pool.Erasure

namespace DataPlacement

/-- What a unit sees of a line. -/
structure LineView where
  state : LineState
  pages : Nat
  erases : Nat
  deriving DecidableEq

def Line.view (l : Line) : LineView := ⟨l.state, l.pages, l.erases⟩

theorem Line.state_eq_of_view {a b : Line} (h : a.view = b.view) : a.state = b.state :=
  congrArg LineView.state h

namespace Pool

variable {p q r p' q' : Pool} {u : UnitId} {id i j : LineId}

/-- The record of a line, if the unit owns the line. -/
def lineOf (p : Pool) (u : UnitId) (id : LineId) : Option Line :=
  p.lines[id]?.filter (·.isOwnedBy u)

theorem lineOf_eq_some_iff {l : Line} :
    p.lineOf u id = some l ↔ p.lines[id]? = some l ∧ l.owner = some u := by
  rw [lineOf, Option.filter_eq_some_iff, Line.isOwnedBy_iff]

theorem lineOf_of_lines {F : LineId → Line → Line}
    (hlines : ∀ i : LineId, q.lines[i]? = p.lines[i]?.map (F i))
    (howner : ∀ i l, (F i l).owner = l.owner) (u : UnitId) (i : LineId) :
    q.lineOf u i = (p.lineOf u i).map (F i) := by
  rw [lineOf, lineOf, hlines]
  cases p.lines[i]? with
  | none => rfl
  | some l =>
    have hsame : (F i l).isOwnedBy u = l.isOwnedBy u := by simp [Line.isOwnedBy, howner]
    by_cases howned : l.isOwnedBy u <;> simp [Option.filter, hsame, howned]

/-- Both lines are full, and the first one became full earlier. -/
def Older (p : Pool) (u : UnitId) (i j : LineId) : Prop :=
  ∃ a b, p.lineOf u i = some a ∧ p.lineOf u j = some b ∧ a.state = .full ∧ b.state = .full ∧
    a.retiredAt < b.retiredAt

/-- No line of the unit is younger than the count of retirements says. -/
def Dated (p : Pool) (u : UnitId) : Prop :=
  ∀ id l, p.lineOf u id = some l → l.state = .full → l.retiredAt ≤ p.retirements

structure Agree (u : UnitId) (p q : Pool) : Prop where
  size : q.lines.size = p.lines.size
  reserved : q.reserved.size = p.reserved.size
  pagesPerLine : q.pagesPerLine = p.pagesPerLine
  free : q.freeLines (some u) = p.freeLines (some u)
  views : ∀ id, (q.lineOf u id).map Line.view = (p.lineOf u id).map Line.view
  older : ∀ i j, q.Older u i j ↔ p.Older u i j
  dated : p.Dated u ∧ q.Dated u

namespace Agree

theorem symm (h : Agree u p q) : Agree u q p where
  size := h.size.symm
  reserved := h.reserved.symm
  pagesPerLine := h.pagesPerLine.symm
  free := h.free.symm
  views id := (h.views id).symm
  older i j := (h.older i j).symm
  dated := ⟨h.dated.2, h.dated.1⟩

theorem trans (h : Agree u p q) (h' : Agree u q r) : Agree u p r where
  size := h'.size.trans h.size
  reserved := h'.reserved.trans h.reserved
  pagesPerLine := h'.pagesPerLine.trans h.pagesPerLine
  free := h'.free.trans h.free
  views id := (h'.views id).trans (h.views id)
  older i j := (h'.older i j).trans (h.older i j)
  dated := ⟨h.dated.1, h'.dated.2⟩

/-- Pools that hold the same records of the unit's lines. -/
theorem of_lineOf (hkeeps : Keeps p q) (hfree : q.freeLines (some u) = p.freeLines (some u))
    (hlines : ∀ id, q.lineOf u id = p.lineOf u id) (hdated : p.Dated u) (hdated' : q.Dated u) :
    Agree u p q where
  size := hkeeps.size
  reserved := hkeeps.reserved
  pagesPerLine := hkeeps.pagesPerLine
  free := hfree
  views id := by rw [hlines]
  older i j := by simp only [Older, hlines]
  dated := ⟨hdated, hdated'⟩

theorem exists_lineOf (h : Agree u p q) {l : Line} (hline : p.lineOf u id = some l) :
    ∃ m, q.lineOf u id = some m ∧ m.view = l.view := by
  have hview := h.views id
  rw [hline, Option.map_some] at hview
  exact Option.map_eq_some_iff.1 hview

end Agree

section Change

variable {F : LineId → Line → Line}

/-- A change that makes no line full leaves the dates right. -/
theorem Dated.change (hp : p.Dated u) (hlines : ∀ i, p'.lineOf u i = (p.lineOf u i).map (F i))
    (hfull : ∀ i l, (F i l).state = .full → l.state = .full ∧ (F i l).retiredAt = l.retiredAt)
    (hretired : p.retirements ≤ p'.retirements) : p'.Dated u := by
  intro i l hline hstate
  rw [hlines] at hline
  obtain ⟨before, hbefore, rfl⟩ := Option.map_eq_some_iff.1 hline
  obtain ⟨hstate, hsame⟩ := hfull i before hstate
  rw [hsame]
  exact Nat.le_trans (hp i before hbefore hstate) hretired

theorem views_of_change (h : Agree u p q) (hp : ∀ i, p'.lineOf u i = (p.lineOf u i).map (F i))
    (hq : ∀ i, q'.lineOf u i = (q.lineOf u i).map (F i))
    (hview : ∀ i a b, a.view = b.view → (F i a).view = (F i b).view) (i : LineId) :
    (q'.lineOf u i).map Line.view = (p'.lineOf u i).map Line.view := by
  rw [hp, hq]
  have hbefore := h.views i
  cases hline : p.lineOf u i with
  | none =>
    rw [hline, Option.map_none, Option.map_eq_none_iff] at hbefore
    simp [hbefore]
  | some l =>
    obtain ⟨m, hm, hsame⟩ := h.exists_lineOf hline
    simp [hm, hview i m l hsame]

/-- The order of age after a change that makes no line full, in one direction. -/
theorem older_of_change (h : Agree u p q) (hp : ∀ i, p'.lineOf u i = (p.lineOf u i).map (F i))
    (hq : ∀ i, q'.lineOf u i = (q.lineOf u i).map (F i))
    (hview : ∀ i a b, a.view = b.view → (F i a).view = (F i b).view)
    (hfull : ∀ i l, (F i l).state = .full → l.state = .full ∧ (F i l).retiredAt = l.retiredAt)
    (holder : p'.Older u i j) : q'.Older u i j := by
  obtain ⟨_, _, hi, hj, hfa, hfb, hage⟩ := holder
  rw [hp] at hi hj
  obtain ⟨a, ha, rfl⟩ := Option.map_eq_some_iff.1 hi
  obtain ⟨b, hb, rfl⟩ := Option.map_eq_some_iff.1 hj
  have hbefore : p.Older u i j := by
    refine ⟨a, b, ha, hb, (hfull i a hfa).1, (hfull j b hfb).1, ?_⟩
    rwa [← (hfull i a hfa).2, ← (hfull j b hfb).2]
  obtain ⟨c, e, hc, he, -, -, hage⟩ := (h.older i j).2 hbefore
  have hafter : ∀ {i l m}, p.lineOf u i = some l → q.lineOf u i = some m →
      (F i l).state = .full → (F i m).state = .full := by
    intro i l m hl hm hstate
    obtain ⟨n, hn, hsame⟩ := h.exists_lineOf hl
    obtain rfl : m = n := Option.some.inj (hm.symm.trans hn)
    exact (Line.state_eq_of_view (hview i m l hsame)).trans hstate
  have hfc := hafter ha hc hfa
  have hfe := hafter hb he hfb
  refine ⟨F i c, F j e, by rw [hq, hc]; rfl, by rw [hq, he]; rfl, hfc, hfe, ?_⟩
  rwa [(hfull i c hfc).2, (hfull j e hfe).2]

/-- The same change of the unit's lines on both sides keeps an agreement, if it makes no line
full. -/
theorem Agree.change (h : Agree u p q) (hp : ∀ i, p'.lineOf u i = (p.lineOf u i).map (F i))
    (hq : ∀ i, q'.lineOf u i = (q.lineOf u i).map (F i)) (hkeeps : Keeps p p')
    (hkeeps' : Keeps q q') (hfree : q'.freeLines (some u) = p'.freeLines (some u))
    (hview : ∀ i a b, a.view = b.view → (F i a).view = (F i b).view)
    (hfull : ∀ i l, (F i l).state = .full → l.state = .full ∧ (F i l).retiredAt = l.retiredAt)
    (hretired : p.retirements ≤ p'.retirements) (hretired' : q.retirements ≤ q'.retirements) :
    Agree u p' q' where
  size := by rw [hkeeps'.size, hkeeps.size, h.size]
  reserved := by rw [hkeeps'.reserved, hkeeps.reserved, h.reserved]
  pagesPerLine := by rw [hkeeps'.pagesPerLine, hkeeps.pagesPerLine, h.pagesPerLine]
  free := hfree
  views := views_of_change h hp hq hview
  older i j := ⟨older_of_change h.symm hq hp hview hfull, older_of_change h hp hq hview hfull⟩
  dated := ⟨h.dated.1.change hp hfull hretired, h.dated.2.change hq hfull hretired'⟩

end Change

end Pool

end DataPlacement
