import DataPlacement.Proofs.Pool.Views

namespace DataPlacement.Pool

variable (p : Pool) (o o' : Option UnitId) (u : UnitId) (id i : LineId)

/-! ### Writing -/

@[simp] theorem getElem?_program (pages : Nat) :
    (p.program id pages).lines[i]? =
      if id = i then p.lines[i]?.map (·.program pages p.pagesPerLine) else p.lines[i]? := by
  rw [program, getElem?_updateLine]

@[simp] theorem pagesPerLine_program (pages : Nat) :
    (p.program id pages).pagesPerLine = p.pagesPerLine := rfl

@[simp] theorem retirements_program (pages : Nat) :
    (p.program id pages).retirements = p.retirements := rfl

@[simp] theorem reserved_program (pages : Nat) : (p.program id pages).reserved = p.reserved := rfl

@[simp] theorem freeLines_program (pages : Nat) :
    (p.program id pages).freeLines o = p.freeLines o := by
  simp [program]

@[simp] theorem pagesPerLine_retire : (p.retire id).pagesPerLine = p.pagesPerLine := by
  unfold retire
  split
  · rfl
  · split <;> rfl

@[simp] theorem reserved_retire : (p.retire id).reserved = p.reserved := by
  unfold retire
  split
  · rfl
  · split <;> rfl

@[simp] theorem shared_retire : (p.retire id).shared = p.shared := by
  unfold retire
  split
  · rfl
  · split <;> rfl

@[simp] theorem freeLines_retire : (p.retire id).freeLines o = p.freeLines o := by
  cases o <;> simp [freeLines, freeList]

theorem getElem?_retire {p : Pool} {id : LineId} {l : Line} (hline : p.lines[id]? = some l)
    (hstate : l.state = .active) :
    (p.retire id).lines[i]? =
      if id = i then some (l.retire (p.retirements + 1)) else p.lines[i]? := by
  simp only [retire, hline, hstate, if_true, getElem?_updateLine]
  by_cases h : id = i
  · subst h
    simp [hline]
  · simp [h]

theorem retirements_retire {p : Pool} {id : LineId} {l : Line} (hline : p.lines[id]? = some l)
    (hstate : l.state = .active) : (p.retire id).retirements = p.retirements + 1 := by
  simp [retire, hline, hstate]

section Filled

variable {p : Pool} {id : LineId} {l : Line} (hline : p.lines[id]? = some l)
  (hstate : l.state = .active) (count : Nat)

include hline hstate

theorem getElem?_filled (i : LineId) :
    ((p.program id count).retire id).lines[i]? =
      if id = i then some ((l.program count p.pagesPerLine).retire (p.retirements + 1))
      else p.lines[i]? := by
  have hwritten : (p.program id count).lines[id]? = some (l.program count p.pagesPerLine) := by
    simp [hline]
  rw [getElem?_retire i hwritten hstate]
  by_cases hi : id = i <;> simp [hi]

theorem retirements_filled :
    ((p.program id count).retire id).retirements = p.retirements + 1 := by
  have hwritten : (p.program id count).lines[id]? = some (l.program count p.pagesPerLine) := by
    simp [hline]
  exact retirements_retire hwritten hstate

end Filled

theorem keeps_program (pages : Nat) : Keeps p (p.program id pages) :=
  .updateLine p id fun _ => rfl

theorem keeps_retire : Keeps p (p.retire id) := by
  unfold retire
  split
  · exact .refl p
  · split
    · have h : Keeps p (p.updateLine id (·.retire (p.retirements + 1))) :=
        .updateLine p id fun _ => rfl
      exact ⟨h.owners, h.size, h.reserved, h.pagesPerLine⟩
    · exact .refl p

/-! ### Back to a free list -/

/-- The pool after a full line of an owner was erased. -/
def reclaimed : Pool :=
  (p.setFreeList o ((p.freeList o).push id)).updateLine id Line.erase

/-- The pool after a line that an owner took was given back untouched. -/
def released : Pool :=
  (p.setFreeList o ((p.freeList o).putBack id)).updateLine id fun l => { l with state := .free }

theorem reclaim_of_full {p : Pool} {id : LineId} {l : Line} (hline : p.lines[id]? = some l)
    (hstate : l.state = .full) (hlist : p.hasList l.owner) :
    p.reclaim id = ⟨.ok l.owner, p.reclaimed l.owner id, [.reclaimed id l.owner]⟩ := by
  simp [reclaim, hline, hstate, hlist, reclaimed, Outcome.done]

/-- A refused erasure changes nothing. -/
theorem reclaim_cases (p : Pool) (id : LineId) :
    (∃ cause, p.reclaim id = .refused cause p) ∨
      ∃ l, p.lines[id]? = some l ∧ l.state = .full ∧ p.hasList l.owner := by
  unfold reclaim
  cases hline : p.lines[id]? with
  | none => exact .inl ⟨_, rfl⟩
  | some l =>
    by_cases hstate : l.state = .full
    · by_cases hlist : p.hasList l.owner
      · exact .inr ⟨l, rfl, hstate, hlist⟩
      · exact .inl ⟨_, by simp [hstate, hlist]; rfl⟩
    · exact .inl ⟨_, by simp [hstate]; rfl⟩

theorem release_of_untouched {p : Pool} {id : LineId} {l : Line} (hline : p.lines[id]? = some l)
    (hstate : l.state = .active) (hpages : l.pages = 0) (hlist : p.hasList l.owner) :
    p.release id = .done () (p.released l.owner id) := by
  simp [release, hline, hstate, hpages, hlist, released]

theorem getElem?_reclaimed :
    (p.reclaimed o id).lines[i]? =
      if id = i then p.lines[i]?.map Line.erase else p.lines[i]? := by
  rw [reclaimed, getElem?_updateLine, lines_setFreeList]

@[simp] theorem pagesPerLine_reclaimed : (p.reclaimed o id).pagesPerLine = p.pagesPerLine := by
  simp [reclaimed]

@[simp] theorem retirements_reclaimed : (p.reclaimed o id).retirements = p.retirements := by
  simp [reclaimed]

@[simp] theorem size_reserved_reclaimed :
    (p.reclaimed o id).reserved.size = p.reserved.size := by
  simp [reclaimed]

theorem keeps_reclaimed : Keeps p (p.reclaimed o id) :=
  (Keeps.setFreeList p o _).trans (.updateLine _ id fun _ => rfl)

theorem freeLines_reclaimed (hlist : p.hasList o) :
    (p.reclaimed o id).freeLines o' = if o' = o then p.freeLines o ++ [id] else p.freeLines o' := by
  rw [reclaimed, freeLines_updateLine, freeLines_setFreeList p o o' _ hlist, FreeList.toList_push]
  rfl

theorem getElem?_released :
    (p.released o id).lines[i]? =
      if id = i then p.lines[i]?.map fun l => { l with state := .free } else p.lines[i]? := by
  rw [released, getElem?_updateLine, lines_setFreeList]

@[simp] theorem pagesPerLine_released : (p.released o id).pagesPerLine = p.pagesPerLine := by
  simp [released]

@[simp] theorem retirements_released : (p.released o id).retirements = p.retirements := by
  simp [released]

@[simp] theorem size_reserved_released :
    (p.released o id).reserved.size = p.reserved.size := by
  simp [released]

theorem keeps_released : Keeps p (p.released o id) :=
  (Keeps.setFreeList p o _).trans (.updateLine _ id fun _ => rfl)

theorem freeLines_released (hlist : p.hasList o) :
    (p.released o id).freeLines o' = if o' = o then id :: p.freeLines o else p.freeLines o' := by
  rw [released, freeLines_updateLine, freeLines_setFreeList p o o' _ hlist, FreeList.toList_putBack]
  rfl

/-! ### Turning placement on -/

/-- The pool after the first shared line went to a unit; `rest` are the others. -/
def assigned (rest : List LineId) : Pool :=
  let p := { p with shared := .ofList rest }.updateLine id fun l => { l with owner := some u }
  p.setFreeList (some u) ((p.freeList (some u)).push id)

theorem moveShared_succ {p : Pool} {id : LineId} {rest : List LineId}
    (hfree : p.freeLines none = id :: rest) (u : UnitId) (count : Nat) :
    p.moveShared u (count + 1) = (p.assigned u id rest).moveShared u count := by
  have htake : p.shared.take? = some (id, .ofList rest) := by
    rw [FreeList.take?_eq_uncons]
    change p.shared.toList = id :: rest at hfree
    rw [hfree]
    rfl
  simp [moveShared, htake, assigned]

theorem getElem?_assigned (rest : List LineId) :
    (p.assigned u id rest).lines[i]? =
      if id = i then p.lines[i]?.map fun l => { l with owner := some u } else p.lines[i]? := by
  rw [assigned, lines_setFreeList, getElem?_updateLine]

@[simp] theorem pagesPerLine_assigned (rest : List LineId) :
    (p.assigned u id rest).pagesPerLine = p.pagesPerLine := by
  simp [assigned]

@[simp] theorem retirements_assigned (rest : List LineId) :
    (p.assigned u id rest).retirements = p.retirements := by
  simp [assigned]

@[simp] theorem size_reserved_assigned (rest : List LineId) :
    (p.assigned u id rest).reserved.size = p.reserved.size := by
  simp [assigned]

theorem freeLines_assigned (rest : List LineId) (hlist : p.hasList (some u)) :
    (p.assigned u id rest).freeLines o' =
      if o' = some u then p.freeLines (some u) ++ [id]
      else if o' = none then rest else p.freeLines o' := by
  rw [assigned, freeLines_setFreeList]
  · cases o' with
    | none => simp [freeLines, freeList, updateLine]
    | some u' =>
      rw [FreeList.toList_push, freeList_updateLine, freeLines_updateLine]
      rfl
  · exact hlist

theorem freeLines_reserve (n : Nat) :
    (p.reserve n).freeLines o = if o = none then p.freeLines none else [] := by
  cases o with
  | none => rfl
  | some u =>
    by_cases hu : u < n <;> simp [reserve, freeLines, freeList, hu]

/-! ### Turning placement off -/

section Disown

variable {p : Pool} {id : LineId} {l : Line} {u : UnitId} (hline : p.lines[id]? = some l)
  (howner : l.owner = some u)

include hline howner

theorem disown_of_full (hstate : l.state = .full) :
    p.disown id = p.updateLine id fun l => { l with owner := none } := by
  simp [disown, hline, howner, hstate]

theorem getElem?_disown_of_full (hstate : l.state = .full) (i : LineId) :
    (p.disown id).lines[i]? = if id = i then some { l with owner := none } else p.lines[i]? := by
  rw [disown_of_full hline howner hstate, getElem?_updateLine]
  exact ite_map_line hline _ i

theorem disown_of_untouched (hstate : l.state = .active) (hpages : l.pages = 0) :
    p.disown id = { (p.updateLine id fun l => { l with owner := none }).updateLine id
      fun l => { l with state := .free } with shared := p.shared.push id } := by
  simp [disown, hline, howner, hstate, hpages, updateLine]

theorem getElem?_disown_of_untouched (hstate : l.state = .active) (hpages : l.pages = 0)
    (i : LineId) :
    (p.disown id).lines[i]? =
      if id = i then some { l with owner := none, state := .free } else p.lines[i]? := by
  simp only [disown_of_untouched hline howner hstate hpages, getElem?_updateLine]
  by_cases hi : id = i
  · subst hi
    simp [hline]
  · simp [hi]

theorem freeLines_disown_of_untouched (hstate : l.state = .active) (hpages : l.pages = 0)
    (o : Option UnitId) :
    (p.disown id).freeLines o =
      if o = none then p.freeLines none ++ [id] else p.freeLines o := by
  rw [disown_of_untouched hline howner hstate hpages]
  cases o with
  | none => simp [freeLines, freeList]
  | some v => rfl

theorem disown_of_written (hstate : l.state = .active) (hpages : l.pages ≠ 0) :
    p.disown id = (p.updateLine id fun l => { l with owner := none }).retire id := by
  simp [disown, hline, howner, hstate, hpages]

theorem getElem?_disown_of_written (hstate : l.state = .active) (hpages : l.pages ≠ 0)
    (i : LineId) :
    (p.disown id).lines[i]? =
      if id = i then some (Line.retire { l with owner := none } (p.retirements + 1))
      else p.lines[i]? := by
  have hdisowned : (p.updateLine id fun l => { l with owner := none }).lines[id]? =
      some { l with owner := none } := by
    simp [getElem?_updateLine, hline]
  rw [disown_of_written hline howner hstate hpages, getElem?_retire i hdisowned hstate]
  by_cases hi : id = i <;> simp [hi, getElem?_updateLine]

theorem retirements_disown_of_written (hstate : l.state = .active) (hpages : l.pages ≠ 0) :
    (p.disown id).retirements = p.retirements + 1 := by
  have hdisowned : (p.updateLine id fun l => { l with owner := none }).lines[id]? =
      some { l with owner := none } := by
    simp [getElem?_updateLine, hline]
  rw [disown_of_written hline howner hstate hpages, retirements_retire hdisowned hstate]
  rfl

end Disown

theorem disown_of_unowned {p : Pool} {id : LineId}
    (hline : ∀ l, p.lines[id]? = some l → l.owner = none) : p.disown id = p := by
  unfold disown
  split
  · rfl
  · next l h => simp [hline l h]

/-- The free lines of all units, in unit order. -/
def reservedLines : List LineId := p.reserved.toList.flatMap (·.toList)

theorem mem_reservedLines : id ∈ p.reservedLines ↔ ∃ u, id ∈ p.freeLines (some u) := by
  simp only [reservedLines, List.mem_flatMap, Array.mem_toList_iff, Array.mem_iff_getElem?]
  constructor
  · rintro ⟨list, ⟨u, hlist⟩, hmem⟩
    exact ⟨u, by simpa [freeLines, freeList, hlist] using hmem⟩
  · rintro ⟨u, hmem⟩
    have hu : u < p.reserved.size := by simpa [hasList] using hasList_of_mem_freeLines hmem
    refine ⟨p.reserved[u], ⟨u, by simp [hu]⟩, ?_⟩
    simpa [freeLines, freeList, hu] using hmem

private theorem foldl_disown_views (ids : List LineId) (p : Pool) :
    let q := ids.foldl (fun p id => p.updateLine id fun l => { l with owner := none }) p
    (∀ i : LineId, q.lines[i]? =
      if i ∈ ids then p.lines[i]?.map fun l => { l with owner := none } else p.lines[i]?) ∧
    q.lines.size = p.lines.size ∧ q.pagesPerLine = p.pagesPerLine ∧
    q.retirements = p.retirements ∧ q.reserved = p.reserved ∧ q.shared = p.shared := by
  induction ids generalizing p with
  | nil => simp
  | cons id ids ih =>
    obtain ⟨hlines, hsize, hcount, hretired, hreserved, hshared⟩ :=
      ih (p.updateLine id fun l => { l with owner := none })
    refine ⟨fun i => ?_, by simpa using hsize, hcount, hretired, hreserved, hshared⟩
    rw [List.foldl_cons, hlines i, getElem?_updateLine]
    by_cases hid : id = i
    · subst hid
      by_cases hmem : id ∈ ids <;> cases p.lines[id]? <;> simp [hmem]
    · simp [hid, Ne.symm hid]

theorem getElem?_shareReserved :
    p.shareReserved.lines[i]? =
      if i ∈ p.reservedLines then p.lines[i]?.map fun l => { l with owner := none }
      else p.lines[i]? :=
  (foldl_disown_views p.reservedLines _).1 i

@[simp] theorem size_lines_shareReserved : p.shareReserved.lines.size = p.lines.size :=
  (foldl_disown_views p.reservedLines _).2.1

@[simp] theorem pagesPerLine_shareReserved : p.shareReserved.pagesPerLine = p.pagesPerLine :=
  (foldl_disown_views p.reservedLines _).2.2.1

@[simp] theorem retirements_shareReserved : p.shareReserved.retirements = p.retirements :=
  (foldl_disown_views p.reservedLines _).2.2.2.1

@[simp] theorem reserved_shareReserved : p.shareReserved.reserved = #[] :=
  (foldl_disown_views p.reservedLines _).2.2.2.2.1

theorem freeLines_shareReserved :
    p.shareReserved.freeLines o = if o = none then p.freeLines none ++ p.reservedLines else [] := by
  have hshared := (foldl_disown_views p.reservedLines
    { p with shared := p.shared.append p.reservedLines, reserved := #[] }).2.2.2.2.2
  cases o with
  | none =>
    change p.shareReserved.shared = p.shared.append p.reservedLines at hshared
    simp [freeLines, freeList, hshared]
  | some u => simp [freeLines, freeList]

end DataPlacement.Pool
