import DataPlacement.Proofs.Pool.Agreement

namespace DataPlacement

namespace Pool

variable {p q p' q' : Pool} {u : UnitId}

theorem map_at (o : Option Line) (id i : LineId) (f : Line → Line) :
    (if id = i then o.map f else o) = o.map fun l => if id = i then f l else l := by
  split <;> simp

namespace Agree

theorem take (h : Agree u p q) :
    ∃ line p' q', p.take (some u) = (line, p') ∧ q.take (some u) = (line, q') ∧ Agree u p' q' := by
  cases hfree : p.freeLines (some u) with
  | nil =>
    have hfree' : q.freeLines (some u) = [] := h.free.trans hfree
    exact ⟨none, p, q, take_of_freeLines_eq_nil hfree, take_of_freeLines_eq_nil hfree', h⟩
  | cons id rest =>
    have hfree' : q.freeLines (some u) = id :: rest := h.free.trans hfree
    refine ⟨some id, _, _, take_of_freeLines_eq_cons hfree, take_of_freeLines_eq_cons hfree', ?_⟩
    have hlines : ∀ r : Pool, ∀ i, (r.taken (some u) id rest).lineOf u i =
        (r.lineOf u i).map fun l => if id = i then l.activate else l := by
      intro r i
      refine lineOf_of_lines (F := fun i l => if id = i then l.activate else l)
        (fun i => ?_) (fun i l => ?_) u i
      · rw [getElem?_taken]
        exact map_at _ _ _ _
      · split <;> rfl
    refine h.change (hlines p) (hlines q) (keeps_taken p _ id rest) (keeps_taken q _ id rest) ?_
      (fun i a b hview => ?_) (fun i l hfull => ?_) (by simp) (by simp)
    · rw [freeLines_taken _ hfree, freeLines_taken _ hfree']
      simp
    · split
      · simpa [Line.view, Line.activate] using congrArg LineView.erases hview
      · exact hview
    · split at hfull
      · cases hfull
      · next hne => simpa [hne] using hfull

theorem program (h : Agree u p q) (id : LineId) (count : Nat) :
    Agree u (p.program id count) (q.program id count) := by
  have hlines : ∀ r : Pool, r.pagesPerLine = p.pagesPerLine → ∀ i,
      (r.program id count).lineOf u i = (r.lineOf u i).map fun l =>
        if id = i then l.program count p.pagesPerLine else l := by
    intro r hcount i
    refine lineOf_of_lines (F := fun i l => if id = i then l.program count p.pagesPerLine else l)
      (fun i => ?_) (fun i l => ?_) u i
    · rw [getElem?_program, hcount]
      exact map_at _ _ _ _
    · split <;> rfl
  refine h.change (hlines p rfl) (hlines q h.pagesPerLine) (keeps_program p id count)
    (keeps_program q id count) (by simpa using h.free) (fun i a b hview => ?_) (fun i l hfull => ?_)
    (by simp) (by simp)
  · split
    · simp only [Line.view, LineView.mk.injEq] at hview
      simp [Line.view, Line.program, hview]
    · exact hview
  · split at hfull
    · next heq => simpa [heq, Line.program] using hfull
    · next hne => simpa [hne] using hfull

end Agree

/-! ### Retirement -/

/-- What retiring a line makes of the lines. -/
def retiring (p : Pool) (id i : LineId) (l : Line) : Line :=
  if id = i ∧ l.state = .active then l.retire (p.retirements + 1) else l

theorem retiring_of_ne {id i : LineId} (h : id ≠ i) : p.retiring id i = fun l => l := by
  funext l
  simp [retiring, h]

theorem lineOf_retire (p : Pool) (u : UnitId) (id i : LineId) :
    (p.retire id).lineOf u i = (p.lineOf u i).map (p.retiring id i) := by
  refine lineOf_of_lines (fun i => ?_) (fun i l => ?_) u i
  · cases hline : p.lines[id]? with
    | none =>
      by_cases hi : id = i
      · subst hi
        simp [retire, hline]
      · simp [retire, hline, retiring_of_ne hi]
    | some l =>
      by_cases hstate : l.state = .active
      · rw [getElem?_retire i hline hstate]
        by_cases hi : id = i
        · subst hi
          simp [hline, retiring, hstate]
        · simp [retiring_of_ne hi, hi]
      · by_cases hi : id = i
        · subst hi
          simp [retire, hline, hstate, retiring]
        · simp [retire, hline, hstate, retiring_of_ne hi]
  · unfold retiring
    split <;> rfl

theorem retirements_le_retire (p : Pool) (id : LineId) :
    p.retirements ≤ (p.retire id).retirements := by
  unfold retire
  split
  · exact Nat.le_refl _
  · split
    · exact Nat.le_succ _
    · exact Nat.le_refl _

theorem Dated.retire (h : p.Dated u) (id : LineId) : (p.retire id).Dated u := by
  intro i l hline hstate
  rw [lineOf_retire] at hline
  obtain ⟨before, hbefore, rfl⟩ := Option.map_eq_some_iff.1 hline
  unfold retiring at hstate ⊢
  split
  · next hactive =>
    obtain ⟨rfl, hactive⟩ := hactive
    rw [retirements_retire (lineOf_eq_some_iff.1 hbefore).1 hactive]
    exact Nat.le_refl _
  · next hother =>
    rw [if_neg hother] at hstate
    exact Nat.le_trans (h i before hbefore hstate) (p.retirements_le_retire id)

/-- The line that becomes full is the youngest one, in both pools. -/
theorem older_retire (h : Agree u p q) {id i j : LineId} (holder : (p.retire id).Older u i j) :
    (q.retire id).Older u i j := by
  obtain ⟨_, _, hi, hj, hfa, hfb, hage⟩ := holder
  rw [lineOf_retire] at hi hj
  obtain ⟨a, ha, rfl⟩ := Option.map_eq_some_iff.1 hi
  obtain ⟨b, hb, rfl⟩ := Option.map_eq_some_iff.1 hj
  obtain ⟨c, hc, hviewc⟩ := h.exists_lineOf ha
  obtain ⟨e, he, hviewe⟩ := h.exists_lineOf hb
  have hstatec := Line.state_eq_of_view hviewc
  have hstatee := Line.state_eq_of_view hviewe
  refine ⟨q.retiring id i c, q.retiring id j e, by rw [lineOf_retire, hc]; rfl,
    by rw [lineOf_retire, he]; rfl, ?_⟩
  simp only [retiring, hstatec, hstatee] at hfa hfb hage ⊢
  by_cases hretired : id = j ∧ b.state = .active
  · obtain ⟨rfl, hactive⟩ := hretired
    by_cases hsame : id = i ∧ a.state = .active
    · simp [hsame, hactive, Line.retire] at hage
    · simp only [hsame, if_false] at hfa
      have hdated := h.dated.2 i c hc (hstatec.trans hfa)
      simp only [hsame, hactive, and_self, if_true, if_false]
      exact ⟨hstatec.trans hfa, rfl, Nat.lt_succ_of_le hdated⟩
  · simp only [hretired, if_false] at hfb hage ⊢
    by_cases hsame : id = i ∧ a.state = .active
    · have hdated := h.dated.1 j b hb hfb
      simp [hsame, Line.retire] at hage
      omega
    · simp only [hsame, if_false] at hfa hage ⊢
      obtain ⟨c', e', hc', he', hstates⟩ := (h.older i j).2 ⟨a, b, ha, hb, hfa, hfb, hage⟩
      obtain rfl : c = c' := Option.some.inj (hc.symm.trans hc')
      obtain rfl : e = e' := Option.some.inj (he.symm.trans he')
      exact hstates

theorem Agree.retire (h : Agree u p q) (id : LineId) : Agree u (p.retire id) (q.retire id) where
  size := by rw [(keeps_retire q id).size, (keeps_retire p id).size, h.size]
  reserved := by simpa using h.reserved
  pagesPerLine := by simpa using h.pagesPerLine
  free := by simpa using h.free
  views i := by
    have hview := h.views i
    rw [lineOf_retire, lineOf_retire]
    cases hline : p.lineOf u i with
    | none =>
      rw [hline, Option.map_none, Option.map_eq_none_iff] at hview
      simp [hview]
    | some l =>
      obtain ⟨m, hm, hsame⟩ := h.exists_lineOf hline
      have hstate := Line.state_eq_of_view hsame
      simp only [hm, Option.map_some, retiring, hstate]
      simp only [Line.view, LineView.mk.injEq] at hsame
      split <;> simp [Line.view, Line.retire, hsame]
  older i j := ⟨older_retire h.symm, older_retire h⟩
  dated := ⟨h.dated.1.retire id, h.dated.2.retire id⟩

/-! ### Fills -/

namespace Agree

theorem nextPage (h : Agree u p q) (w : WritePointer) :
    ∃ found p' q', p.nextPage (some u) w = (found, p') ∧ q.nextPage (some u) w = (found, q') ∧
      Agree u p' q' := by
  obtain ⟨current, page⟩ := w
  cases current with
  | some line => exact ⟨some (line, page), p, q, rfl, rfl, h⟩
  | none =>
    obtain ⟨line, p', q', hp, hq, hagree⟩ := h.take
    exact ⟨line.map fun line => (line, 0), p', q', by simp [Pool.nextPage, hp],
      by simp [Pool.nextPage, hq], hagree⟩

theorem rollOver (h : Agree u p q) (rollover : Rollover) :
    ∃ w p' q', p.rollOver (some u) rollover = (w, p') ∧ q.rollOver (some u) rollover = (w, q') ∧
      Agree u p' q' := by
  cases rollover with
  | onDemand => exact ⟨.closed, p, q, rfl, rfl, h⟩
  | atOnce =>
    obtain ⟨line, p', q', hp, hq, hagree⟩ := h.take
    cases line with
    | none =>
      exact ⟨.closed, p', q', by simp [Pool.rollOver, hp], by simp [Pool.rollOver, hq], hagree⟩
    | some id =>
      exact ⟨.start id, p', q', by simp [Pool.rollOver, hp], by simp [Pool.rollOver, hq], hagree⟩

end Agree

end Pool

/-- Fills that touched the same lines and left pools that agree. -/
structure Fill.Agree (u : UnitId) (f g : Fill) : Prop where
  pool : f.pool.Agree u g.pool
  pointer : g.pointer = f.pointer
  lines : g.lines = f.lines
  retired : g.retired = f.retired
  starved : g.starved = f.starved

theorem Fill.Agree.precededBy {u : UnitId} {f g : Fill} (h : f.Agree u g) (line : LineId)
    (becameFull : Bool) : (f.precededBy line becameFull).Agree u (g.precededBy line becameFull) where
  pool := h.pool
  pointer := h.pointer
  lines := by simp [Fill.precededBy, h.lines]
  retired := by simp [Fill.precededBy, h.retired]
  starved := h.starved

namespace Pool

variable {p q : Pool} {u : UnitId}

theorem Agree.fillLines (h : Agree u p q) (rollover : Rollover) (fuel : Nat) (w : WritePointer)
    (pages : Nat) :
    (fillLines (some u) rollover fuel p w pages).Agree u
      (fillLines (some u) rollover fuel q w pages) := by
  induction fuel generalizing p q w pages with
  | zero => cases pages <;> exact ⟨h, rfl, rfl, rfl, rfl⟩
  | succ fuel ih =>
    cases pages with
    | zero => exact ⟨h, rfl, rfl, rfl, rfl⟩
    | succ pages =>
      obtain ⟨found, p', q', hp, hq, hnext⟩ := h.nextPage w
      cases found with
      | none =>
        rw [Pool.fillLines, Pool.fillLines, hp, hq]
        exact ⟨hnext, rfl, rfl, rfl, rfl⟩
      | some place =>
        obtain ⟨line, page⟩ := place
        rw [Pool.fillLines, Pool.fillLines, hp, hq]
        dsimp only
        rw [hnext.pagesPerLine, pagesPerLine_program, pagesPerLine_program, hnext.pagesPerLine]
        have hwritten := hnext.program line (min (pages + 1) (p'.pagesPerLine - page))
        split
        · obtain ⟨w', _, _, hp, hq, hrolled⟩ := (hwritten.retire line).rollOver rollover
          rw [hp, hq]
          exact (ih hrolled w' _).precededBy line true
        · exact (ih hwritten _ _).precededBy line false

theorem Agree.freeCount (h : Agree u p q) : q.freeCount (some u) = p.freeCount (some u) := by
  rw [freeCount_eq_length, freeCount_eq_length, h.free]

theorem Agree.fill (h : Agree u p q) (rollover : Rollover) (w : WritePointer) (pages : Nat) :
    (p.fill (some u) rollover w pages).Agree u (q.fill (some u) rollover w pages) := by
  unfold Pool.fill
  rw [h.freeCount]
  exact h.fillLines rollover _ w pages

theorem Agree.streamPages (h : Agree u p q) (w : WritePointer) :
    q.streamPages (some u) w = p.streamPages (some u) w := by
  simp only [Pool.streamPages, h.pagesPerLine, h.freeCount]

end Pool

end DataPlacement
