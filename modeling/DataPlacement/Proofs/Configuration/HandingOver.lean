import DataPlacement.Proofs.Configuration.Routing
import DataPlacement.Proofs.Pool.Erasure

namespace DataPlacement

/-- A pool is known by its views. -/
theorem Pool.eq_of_views {p q : Pool} (hlines : ∀ i : LineId, q.lines[i]? = p.lines[i]?)
    (hfree : ∀ o, q.freeLines o = p.freeLines o) (hreserved : q.reserved.size = p.reserved.size)
    (hcount : q.pagesPerLine = p.pagesPerLine) (hretired : q.retirements = p.retirements) :
    q = p := by
  obtain ⟨lines, pagesPerLine, shared, reserved, retirements⟩ := p
  obtain ⟨lines', pagesPerLine', shared', reserved', retirements'⟩ := q
  obtain rfl : lines' = lines := Array.ext_getElem? hlines
  obtain rfl : shared' = shared := FreeList.ext (hfree none)
  obtain rfl : reserved' = reserved := by
    refine Array.ext hreserved fun u hu hu' => FreeList.ext ?_
    have hlists := hfree (some u)
    simp only [Pool.freeLines, Pool.freeList] at hlists
    rwa [← Array.getElem_eq_getD, ← Array.getElem_eq_getD] at hlists
  obtain rfl : pagesPerLine' = pagesPerLine := hcount
  obtain rfl : retirements' = retirements := hretired
  rfl

namespace Pool

variable {p : Pool} {o : Option UnitId} {u : UnitId} {id first : LineId} {rest : List LineId}

/-- To take the head of a list and to erase a line are moves that do not get in each other's way. -/
theorem reclaimed_taken (hfree : p.freeLines (some u) = first :: rest) (hlist : p.hasList o)
    (hne : first ≠ id) :
    ∃ rest', (p.reclaimed o id).freeLines (some u) = first :: rest' ∧
      (p.reclaimed o id).taken (some u) first rest' =
        (p.taken (some u) first rest).reclaimed o id := by
  have hlist' : (p.taken (some u) first rest).hasList o := by
    rwa [(keeps_taken p (some u) first rest).hasList]
  obtain ⟨rest', hrest'⟩ : ∃ rest', (p.reclaimed o id).freeLines (some u) = first :: rest' := by
    rw [freeLines_reclaimed p o (some u) id hlist, hfree]
    split
    · next ho => exact ⟨rest ++ [id], by rw [← ho, hfree, List.cons_append]⟩
    · exact ⟨rest, rfl⟩
  refine ⟨rest', hrest', eq_of_views (fun i => ?_) (fun o' => ?_) ?_ ?_ ?_⟩
  · rw [getElem?_taken, getElem?_reclaimed, getElem?_reclaimed, getElem?_taken]
    by_cases hi : id = i
    · subst hi
      simp [hne]
    · simp [hi]
  · rw [freeLines_taken o' hrest', freeLines_reclaimed _ o o' id hlist,
      freeLines_reclaimed _ o o' id hlist', freeLines_taken o hfree, freeLines_taken o' hfree]
    rw [freeLines_reclaimed p o (some u) id hlist] at hrest'
    by_cases ho : o = some u
    · subst ho
      rw [if_pos rfl, hfree, List.cons_append, List.cons.injEq] at hrest'
      by_cases ho' : o' = some u <;> simp [ho', hrest'.2]
    · rw [if_neg (Ne.symm ho), hfree, List.cons.injEq] at hrest'
      by_cases ho' : o' = some u
      · simp [ho', Ne.symm ho, hrest'.2]
      · simp [ho', ho]
  · simp
  · simp
  · simp

end Pool

namespace Configuration

variable {c : Configuration} {p : Pool} {s : Configuration × Pool} {now : Nat} {u : UnitId}
  {r : Reclaimed} {rs : List Reclaimed}

/-- Opens the owner of a line again if that is a full unit with a free line. -/
def reopen (now : Nat) (s : Configuration × Pool) : Option UnitId → Configuration × Pool
  | none => s
  | some u => (s.1.rearm s.2 u now).state

/-- The pool after lines were erased one by one. -/
def handBack (rs : List Reclaimed) (p : Pool) : Pool :=
  rs.foldl (fun p r => p.reclaimed r.owner r.line) p

/-- Erases a line, and opens its owner at once. -/
def handOver (now : Nat) (s : Configuration × Pool) (r : Reclaimed) : Configuration × Pool :=
  reopen now (s.1, s.2.reclaimed r.owner r.line) r.owner

/-- The lines can be erased one by one, for the owners that they have. -/
structure Returnable (p : Pool) (rs : List Reclaimed) : Prop where
  nodup : (rs.map (·.line)).Nodup
  erasable : ∀ r ∈ rs, p.Erasable r.line
  owner : ∀ r ∈ rs, r.owner = p.ownerOf r.line
  listed : ∀ r ∈ rs, ∀ o, r.line ∉ p.freeLines o

namespace Returnable

theorem hasList (h : Returnable p rs) (hr : r ∈ rs) : p.hasList r.owner := by
  obtain ⟨l, hline, -, hlist⟩ := h.erasable r hr
  rwa [h.owner r hr, Pool.ownerOf_eq hline]

theorem ne_of_mem (h : Returnable p (r :: rs)) {r' : Reclaimed} (hr' : r' ∈ rs) :
    r.line ≠ r'.line := by
  intro heq
  have hnodup := h.nodup
  rw [List.map_cons, List.nodup_cons, heq] at hnodup
  exact hnodup.1 (List.mem_map_of_mem hr')

theorem reclaimed (h : Returnable p (r :: rs)) : Returnable (p.reclaimed r.owner r.line) rs where
  nodup := (List.nodup_cons.1 h.nodup).2
  erasable r' hr' := (h.erasable r' (List.mem_cons_of_mem r hr')).reclaimed (h.ne_of_mem hr')
  owner r' hr' := by
    rw [(Pool.keeps_reclaimed p r.owner r.line).owners]
    exact h.owner r' (List.mem_cons_of_mem r hr')
  listed r' hr' o := by
    have hne := Ne.symm (h.ne_of_mem hr')
    have hout := h.listed r' (List.mem_cons_of_mem r hr')
    rw [Pool.freeLines_reclaimed p r.owner o r.line (h.hasList List.mem_cons_self)]
    split
    · simp [hout r.owner, hne]
    · exact hout o

theorem taken (h : Returnable p rs) {first : LineId} {rest : List LineId}
    (hfree : p.freeLines (some u) = first :: rest) :
    Returnable (p.taken (some u) first rest) rs := by
  have hne : ∀ r ∈ rs, first ≠ r.line := by
    rintro r hr rfl
    exact h.listed r hr (some u) (by simp [hfree])
  have hkeeps := Pool.keeps_taken p (some u) first rest
  refine ⟨h.nodup, fun r hr => ?_, fun r hr => ?_, fun r hr o => ?_⟩
  · obtain ⟨l, hline, hstate, hlist⟩ := h.erasable r hr
    refine ⟨l, ?_, hstate, by rwa [hkeeps.hasList]⟩
    rw [Pool.getElem?_taken, if_neg (hne r hr)]
    exact hline
  · rw [hkeeps.owners]
    exact h.owner r hr
  · have hout := h.listed r hr
    rw [Pool.freeLines_taken o hfree]
    split
    · have hsome := hout (some u)
      rw [hfree, List.mem_cons, not_or] at hsome
      exact hsome.2
    · exact hout o

theorem reopen (h : Returnable p rs) (c : Configuration) (now : Nat) (u : UnitId) :
    Returnable (reopen now (c, p) (some u)).2 rs := by
  obtain hsame | ⟨unit, id, rest, -, -, hfree, hrearm⟩ := c.rearm_cases p now u
  · rw [Configuration.reopen, hsame]
    exact h
  · rw [Configuration.reopen, hrearm]
    exact h.taken hfree

end Returnable

/-- A run of erasures over such lines is not refused. -/
theorem eraseLines_of_returnable (h : Returnable p rs) :
    p.eraseLines (rs.map (·.line)) = { pool := handBack rs p, erased := rs } := by
  induction rs generalizing p with
  | nil => rfl
  | cons r rs ih =>
    rw [List.map_cons, Pool.eraseLines, (h.erasable r List.mem_cons_self).reclaim_eq,
      ← h.owner r List.mem_cons_self]
    dsimp only
    rw [ih h.reclaimed]
    rfl

/-- A unit that has a free line opens on the same line before and after an erasure. -/
theorem reopen_reclaimed {o : Option UnitId} {id : LineId} (hlist : p.hasList o)
    (hlisted : id ∉ p.freeLines (some u)) (hfree : p.freeLines (some u) ≠ [])
    (c : Configuration) (now : Nat) :
    reopen now (c, p.reclaimed o id) (some u) =
      ((reopen now (c, p) (some u)).1, (reopen now (c, p) (some u)).2.reclaimed o id) := by
  obtain ⟨first, rest, hfree⟩ := List.exists_cons_of_ne_nil hfree
  have hne : first ≠ id := by
    rintro rfl
    exact hlisted (by simp [hfree])
  obtain ⟨rest', hfree', htaken⟩ := Pool.reclaimed_taken hfree hlist hne
  simp only [reopen, rearm]
  cases c.unit? u with
  | none => rfl
  | some unit =>
    by_cases hfull : unit.state = .full
    · simp [hfull, Pool.take_of_freeLines_eq_cons hfree, Pool.take_of_freeLines_eq_cons hfree',
        htaken, Outcome.done]
    · simp [hfull, Outcome.done]

theorem reopen_handBack (h : Returnable p rs) (hfree : p.freeLines (some u) ≠ [])
    (c : Configuration) (now : Nat) :
    reopen now (c, handBack rs p) (some u) =
      ((reopen now (c, p) (some u)).1, handBack rs (reopen now (c, p) (some u)).2) := by
  induction rs generalizing p with
  | nil => rfl
  | cons r rs ih =>
    have hlist := h.hasList List.mem_cons_self
    have hmore : (p.reclaimed r.owner r.line).freeLines (some u) ≠ [] := by
      rw [Pool.freeLines_reclaimed p r.owner _ r.line hlist]
      split
      · simp
      · exact hfree
    have hlater := ih h.reclaimed hmore
    rw [reopen_reclaimed hlist (h.listed r List.mem_cons_self _) hfree] at hlater
    exact hlater

/-- To erase all lines and then open their owners comes to the same as to open each owner at
once. -/
theorem foldl_reopen_handBack (h : Returnable s.2 rs) :
    rs.foldl (fun s r => reopen now s r.owner) (s.1, handBack rs s.2) =
      rs.foldl (handOver now) s := by
  induction rs generalizing s with
  | nil => rfl
  | cons r rs ih =>
    have hrest := h.reclaimed
    change rs.foldl _ (reopen now (s.1, handBack rs (s.2.reclaimed r.owner r.line)) r.owner) =
      rs.foldl _ (reopen now (s.1, s.2.reclaimed r.owner r.line) r.owner)
    cases howner : r.owner with
    | none =>
      rw [howner] at hrest
      exact ih (s := (s.1, s.2.reclaimed none r.line)) hrest
    | some u =>
      -- The line just handed back is in the owner's list, and the lines to come join behind it.
      have hlist := h.hasList List.mem_cons_self
      rw [howner] at hrest hlist
      have hfree : (s.2.reclaimed (some u) r.line).freeLines (some u) ≠ [] := by
        rw [Pool.freeLines_reclaimed s.2 (some u) _ r.line hlist, if_pos rfl]
        exact List.append_ne_nil_of_right_ne_nil _ (List.cons_ne_nil _ _)
      rw [reopen_handBack hrest hfree]
      exact ih (hrest.reopen s.1 now u)

end Configuration

end DataPlacement
