import DataPlacement.Configuration.Distribution
import DataPlacement.Proofs.Pool.Effects

namespace DataPlacement.Pool

variable {p q r : Pool} {u : UnitId} {id : LineId} {first count : Nat} {block rest : List LineId}
  {blocks : List (List LineId)}

/-- No line has an owner, and the shared list holds free lines, each of them once. -/
structure Undealt (p : Pool) : Prop where
  unowned : ∀ id, p.ownerOf id = none
  free : ∀ id ∈ p.freeLines none, ∃ l, p.lines[id]? = some l ∧ l.state = .free
  nodup : (p.freeLines none).Nodup

/-- Only the lines that there are, and those of the list, have to be looked at. -/
theorem undealt_iff : p.Undealt ↔ (∀ id < p.lines.size, p.ownerOf id = none) ∧
    (∀ id ∈ p.freeLines none, p.lines[id]?.map (·.state) = some .free) ∧
      (p.freeLines none).Nodup := by
  constructor
  · intro hp
    exact ⟨fun id _ => hp.unowned id, fun id hid => Option.map_eq_some_iff.2 (hp.free id hid),
      hp.nodup⟩
  · rintro ⟨hunowned, hfree, hnodup⟩
    refine ⟨fun id => ?_, fun id hid => Option.map_eq_some_iff.1 (hfree id hid), hnodup⟩
    by_cases hid : id < p.lines.size
    · exact hunowned id hid
    · simp [Pool.ownerOf, Nat.le_of_not_lt hid]

instance : Decidable p.Undealt := decidable_of_iff _ undealt_iff.symm

/-- A block at the front of the shared list went to the end of a unit's list. -/
structure Gives (u : UnitId) (block : List LineId) (p q : Pool) : Prop where
  shared : p.freeLines none = block ++ q.freeLines none
  own : ∀ v, q.freeLines (some v) =
    if v = u then p.freeLines (some u) ++ block else p.freeLines (some v)
  given : ∀ id ∈ block, q.lines[id]? = p.lines[id]?.map fun l => { l with owner := some u }
  others : ∀ id ∉ block, q.lines[id]? = p.lines[id]?
  reserved : q.reserved.size = p.reserved.size
  pagesPerLine : q.pagesPerLine = p.pagesPerLine
  retirements : q.retirements = p.retirements

theorem Gives.hasList (h : Gives u block p q) (o : Option UnitId) : q.hasList o = p.hasList o := by
  cases o <;> simp [Pool.hasList, h.reserved]

theorem gives_nothing (p : Pool) (u : UnitId) : Gives u [] p p where
  shared := rfl
  own v := by
    split
    · next hv => rw [hv, List.append_nil]
    · rfl
  given id hid := by simp at hid
  others id _ := rfl
  reserved := rfl
  pagesPerLine := rfl
  retirements := rfl

/-- One line more at the front of the block. -/
theorem Gives.cons (hlist : p.hasList (some u)) (hfree : p.freeLines none = id :: rest)
    (h : Gives u block (p.assigned u id rest) q) : Gives u (id :: block) p q where
  shared := by
    have hshared := h.shared
    rw [freeLines_assigned p none u id rest hlist] at hshared
    simpa [hfree] using hshared
  own v := by
    rw [h.own, freeLines_assigned p _ u id rest hlist, freeLines_assigned p _ u id rest hlist]
    by_cases hv : v = u <;> simp [hv]
  given i hi := by
    by_cases hmem : i ∈ block
    · rw [h.given i hmem, getElem?_assigned]
      split
      · cases p.lines[i]? <;> rfl
      · rfl
    · obtain rfl : i = id := by simpa [hmem] using hi
      rw [h.others i hmem, getElem?_assigned, if_pos rfl]
  others i hi := by
    rw [List.mem_cons, not_or] at hi
    rw [h.others i hi.2, getElem?_assigned, if_neg (Ne.symm hi.1)]
  reserved := h.reserved.trans (p.size_reserved_assigned u id rest)
  pagesPerLine := h.pagesPerLine.trans (p.pagesPerLine_assigned u id rest)
  retirements := h.retirements.trans (p.retirements_assigned u id rest)

theorem moveShared_of_block (hlist : p.hasList (some u))
    (hfree : p.freeLines none = block ++ rest) :
    ∃ q, p.moveShared u block.length = .done () q ∧ Gives u block p q := by
  induction block generalizing p with
  | nil => exact ⟨p, rfl, gives_nothing p u⟩
  | cons id block ih =>
    have hlist' : (p.assigned u id (block ++ rest)).hasList (some u) := by
      simpa [hasList] using hlist
    have hfree' : (p.assigned u id (block ++ rest)).freeLines none = block ++ rest := by
      simp [freeLines_assigned p none u id _ hlist]
    obtain ⟨q, hmove, hgives⟩ := ih hlist' hfree'
    exact ⟨q, (moveShared_succ hfree u block.length).trans hmove, hgives.cons hlist hfree⟩

theorem assign_of_block (hlist : p.hasList (some u)) (hfree : p.freeLines none = block ++ rest) :
    ∃ q, p.assign u block.length = .done () q ∧ Gives u block p q := by
  obtain ⟨q, hmove, hgives⟩ := moveShared_of_block hlist hfree
  refine ⟨q, ?_, hgives⟩
  have hroom : ¬ p.shared.size < block.length := by
    rw [size_shared_eq_length, hfree, List.length_append]
    omega
  rw [assign, if_neg (by simp [hlist]), if_neg hroom, hmove]

/-- The next shared lines are given to a unit with a list if there are as many. -/
theorem assign_of_enough (hlist : p.hasList (some u)) (hcount : count ≤ (p.freeLines none).length) :
    ∃ q, p.assign u count = .done () q ∧ Gives u ((p.freeLines none).take count) p q := by
  have hfree : p.freeLines none = (p.freeLines none).take count ++ (p.freeLines none).drop count :=
    (List.take_append_drop count _).symm
  have hlength : ((p.freeLines none).take count).length = count := by
    rw [List.length_take, Nat.min_eq_left hcount]
  obtain ⟨q, hassign, hgives⟩ := assign_of_block hlist hfree
  rw [hlength] at hassign
  exact ⟨q, hassign, hgives⟩

/-- Otherwise none is, since the lines are counted before the first of them moves. -/
theorem assign_of_not_enough (h : ¬ (p.hasList (some u) ∧ count ≤ (p.freeLines none).length)) :
    ∃ cause, p.assign u count = .refused cause p := by
  rw [← size_shared_eq_length] at h
  unfold assign
  by_cases hlist : p.hasList (some u)
  · have hfew : p.shared.size < count := Nat.lt_of_not_le fun hcount => h ⟨hlist, hcount⟩
    exact ⟨_, by rw [if_neg (by simp [hlist]), if_pos hfew]⟩
  · exact ⟨_, by rw [if_pos (by simp [hlist])]⟩

/-- Giving lines to a unit changes neither the size of the lines nor how many became full. -/
theorem counts_assign (p : Pool) (u : UnitId) (count : Nat) :
    (p.assign u count).state.pagesPerLine = p.pagesPerLine ∧
      (p.assign u count).state.retirements = p.retirements := by
  by_cases henough : p.hasList (some u) ∧ count ≤ (p.freeLines none).length
  · obtain ⟨q, hassign, hgives⟩ := assign_of_enough henough.1 henough.2
    rw [hassign]
    exact ⟨hgives.pagesPerLine, hgives.retirements⟩
  · obtain ⟨cause, hrefused⟩ := assign_of_not_enough henough
    rw [hrefused]
    exact ⟨rfl, rfl⟩

theorem counts_assignShares (p : Pool) (first : UnitId) (shares : List Nat) :
    (p.assignShares first shares).state.pagesPerLine = p.pagesPerLine ∧
      (p.assignShares first shares).state.retirements = p.retirements := by
  induction shares generalizing p first with
  | nil => exact ⟨rfl, rfl⟩
  | cons count shares ih =>
    have hfirst := p.counts_assign first count
    rw [assignShares]
    split
    · next hassign =>
      rw [hassign] at hfirst
      exact ⟨(ih _ _).1.trans hfirst.1, (ih _ _).2.trans hfirst.2⟩
    · next hrefused =>
      rw [hrefused] at hfirst
      exact hfirst

/-- Blocks at the front of the shared list went to the units from `first` on, one to each. -/
structure GivesBlocks (first : Nat) (blocks : List (List LineId)) (p q : Pool) : Prop where
  shared : p.freeLines none = blocks.flatten ++ q.freeLines none
  own : ∀ (i : Nat) (block : List LineId), blocks[i]? = some block →
    q.freeLines (some (first + i)) = p.freeLines (some (first + i)) ++ block
  before : ∀ u < first, q.freeLines (some u) = p.freeLines (some u)
  given : ∀ (i : Nat) (block : List LineId), blocks[i]? = some block → ∀ id ∈ block,
    q.lines[id]? = p.lines[id]?.map fun l => { l with owner := some (first + i) }
  others : ∀ id ∉ blocks.flatten, q.lines[id]? = p.lines[id]?
  reserved : q.reserved.size = p.reserved.size
  pagesPerLine : q.pagesPerLine = p.pagesPerLine
  retirements : q.retirements = p.retirements

theorem givesBlocks_nil (p : Pool) (first : Nat) : GivesBlocks first [] p p where
  shared := rfl
  own i block hblock := by simp at hblock
  before u _ := rfl
  given i block hblock := by simp at hblock
  others id _ := rfl
  reserved := rfl
  pagesPerLine := rfl
  retirements := rfl

/-- One block more, for the unit before the others. -/
theorem GivesBlocks.cons (hblocks : GivesBlocks (first + 1) blocks q r)
    (h : Gives first block p q) (hnodup : (block ++ blocks.flatten).Nodup) :
    GivesBlocks first (block :: blocks) p r where
  shared := by rw [h.shared, hblocks.shared, List.flatten_cons, List.append_assoc]
  own i b hb := by
    cases i with
    | zero =>
      obtain rfl : block = b := by simpa using hb
      rw [Nat.add_zero, hblocks.before first (Nat.lt_succ_self first), h.own, if_pos rfl]
    | succ i =>
      have hunit : first + (i + 1) = first + 1 + i := by omega
      have hother : first + 1 + i ≠ first := by omega
      rw [hunit, hblocks.own i b (by simpa using hb), h.own, if_neg hother]
  before u hu := by
    rw [hblocks.before u (Nat.lt_succ_of_lt hu), h.own, if_neg (Nat.ne_of_lt hu)]
  given i b hb id hid := by
    cases i with
    | zero =>
      obtain rfl : block = b := by simpa using hb
      have hlater : id ∉ blocks.flatten := List.disjoint_of_nodup_append hnodup hid
      rw [Nat.add_zero, hblocks.others id hlater, h.given id hid]
    | succ i =>
      have hb : blocks[i]? = some b := by simpa using hb
      have hmem : id ∈ blocks.flatten := List.mem_flatten_of_mem (List.mem_of_getElem? hb) hid
      have hearlier : id ∉ block := fun hid' => List.disjoint_of_nodup_append hnodup hid' hmem
      have hunit : first + (i + 1) = first + 1 + i := by omega
      rw [hunit, hblocks.given i b hb id hid, h.others id hearlier]
  others id hid := by
    rw [List.flatten_cons, List.mem_append, not_or] at hid
    rw [hblocks.others id hid.2, h.others id hid.1]
  reserved := hblocks.reserved.trans h.reserved
  pagesPerLine := hblocks.pagesPerLine.trans h.pagesPerLine
  retirements := hblocks.retirements.trans h.retirements

/-- Every unit gets the next lines of the shared list, as many as its share. -/
theorem assignShares_of_blocks (hlist : ∀ i < blocks.length, p.hasList (some (first + i)))
    (hfree : p.freeLines none = blocks.flatten ++ rest) (hnodup : blocks.flatten.Nodup) :
    ∃ q, p.assignShares first (blocks.map List.length) = .done () q ∧
      GivesBlocks first blocks p q := by
  induction blocks generalizing first p with
  | nil => exact ⟨p, rfl, givesBlocks_nil p first⟩
  | cons block blocks ih =>
    rw [List.flatten_cons] at hfree hnodup
    rw [List.append_assoc] at hfree
    obtain ⟨q, hassign, hgives⟩ := assign_of_block (hlist 0 (by simp)) hfree
    have hlist' : ∀ i < blocks.length, q.hasList (some (first + 1 + i)) := by
      intro i hi
      rw [hgives.hasList, Nat.add_assoc, Nat.add_comm 1 i]
      exact hlist (i + 1) (by simpa using hi)
    have hfree' : q.freeLines none = blocks.flatten ++ rest :=
      (List.append_cancel_left (hfree.symm.trans hgives.shared)).symm
    obtain ⟨r, hrest, hblocks⟩ := ih hlist' hfree' (List.Nodup.of_append_right hnodup)
    refine ⟨r, ?_, hblocks.cons hgives hnodup⟩
    rw [List.map_cons, assignShares]
    rw [Nat.add_zero] at hassign
    rw [hassign]
    exact hrest

end DataPlacement.Pool
