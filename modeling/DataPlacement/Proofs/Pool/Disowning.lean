import DataPlacement.Proofs.Pool.Effects

namespace DataPlacement

/-- A line without its owner; `n` is its age if it becomes full by that. -/
def Line.disowned (n : Nat) (l : Line) : Line :=
  if l.owner.isSome ∧ l.state = .active then
    if l.pages = 0 then { l with owner := none, state := .free }
    else { l with owner := none }.retire n
  else { l with owner := none }

namespace Line

variable {l : Line} {n : Nat}

theorem disowned_of_unowned (howner : l.owner = none) : l.disowned n = l := by
  cases l
  simp_all [disowned]

theorem disowned_of_inactive (hstate : l.state ≠ .active) :
    l.disowned n = { l with owner := none } := by
  simp [disowned, hstate]

theorem disowned_of_untouched {u : UnitId} (howner : l.owner = some u) (hstate : l.state = .active)
    (hpages : l.pages = 0) : l.disowned n = { l with owner := none, state := .free } := by
  simp [disowned, howner, hstate, hpages]

theorem disowned_of_written {u : UnitId} (howner : l.owner = some u) (hstate : l.state = .active)
    (hpages : l.pages ≠ 0) : l.disowned n = { l with owner := none }.retire n := by
  simp [disowned, howner, hstate, hpages]

end Line

namespace Pool

/-- The line is the current one of a unit, and nothing was written to it. -/
def untouched (p : Pool) (id : LineId) : Bool :=
  p.lines[id]?.any fun l => l.owner.isSome && l.state = .active && l.pages = 0

/-- The line is the current one of a unit, and something was written to it. -/
def begun (p : Pool) (id : LineId) : Bool :=
  p.lines[id]?.any fun l => l.owner.isSome && l.state = .active && l.pages ≠ 0

theorem untouched_congr {p q : Pool} {id : LineId} (h : q.lines[id]? = p.lines[id]?) :
    q.untouched id = p.untouched id := by
  rw [untouched, untouched, h]

theorem begun_congr {p q : Pool} {id : LineId} (h : q.lines[id]? = p.lines[id]?) :
    q.begun id = p.begun id := by
  rw [begun, begun, h]

/-- How a line loses its owner. -/
inductive Disowns (p : Pool) (id : LineId) : Prop where
  /-- There is no such line, or nobody owns it. -/
  | idle (hunowned : ∀ l, p.lines[id]? = some l → l.owner = none)
  /-- The line is not written. -/
  | inactive (l : Line) (u : UnitId) (hline : p.lines[id]? = some l) (howner : l.owner = some u)
      (hstate : l.state ≠ .active)
  | untouched (l : Line) (u : UnitId) (hline : p.lines[id]? = some l) (howner : l.owner = some u)
      (hstate : l.state = .active) (hpages : l.pages = 0)
  | written (l : Line) (u : UnitId) (hline : p.lines[id]? = some l) (howner : l.owner = some u)
      (hstate : l.state = .active) (hpages : l.pages ≠ 0)

theorem disowns (p : Pool) (id : LineId) : p.Disowns id := by
  by_cases hunowned : ∀ l, p.lines[id]? = some l → l.owner = none
  · exact .idle hunowned
  · push Not at hunowned
    obtain ⟨l, hline, howner⟩ := hunowned
    obtain ⟨u, howner⟩ := Option.ne_none_iff_exists'.1 howner
    by_cases hstate : l.state = .active
    · by_cases hpages : l.pages = 0
      · exact .untouched l u hline howner hstate hpages
      · exact .written l u hline howner hstate hpages
    · exact .inactive l u hline howner hstate

theorem disown_of_inactive {p : Pool} {id : LineId} {l : Line} {u : UnitId}
    (hline : p.lines[id]? = some l) (howner : l.owner = some u) (hstate : l.state ≠ .active) :
    p.disown id = p.updateLine id fun l => { l with owner := none } := by
  simp [disown, hline, howner, hstate]

/-! ### One line -/

section One

variable (p : Pool) (id i : LineId)

theorem getElem?_disown :
    (p.disown id).lines[i]? =
      if id = i then p.lines[i]?.map (Line.disowned (p.retirements + 1)) else p.lines[i]? := by
  cases p.disowns id with
  | idle hunowned =>
    rw [disown_of_unowned hunowned]
    split
    · next hid =>
      subst hid
      cases hline : p.lines[id]? with
      | none => rfl
      | some l => rw [Option.map_some, Line.disowned_of_unowned (hunowned l hline)]
    · rfl
  | inactive l u hline howner hstate =>
    rw [disown_of_inactive hline howner hstate, getElem?_updateLine, ite_map_line hline,
      ite_map_line hline, Line.disowned_of_inactive hstate]
  | untouched l u hline howner hstate hpages =>
    rw [getElem?_disown_of_untouched hline howner hstate hpages, ite_map_line hline,
      Line.disowned_of_untouched howner hstate hpages]
  | written l u hline howner hstate hpages =>
    rw [getElem?_disown_of_written hline howner hstate hpages, ite_map_line hline,
      Line.disowned_of_written howner hstate hpages]

theorem getElem?_disown_of_ne {id i : LineId} (hne : id ≠ i) :
    (p.disown id).lines[i]? = p.lines[i]? := by
  rw [getElem?_disown, if_neg hne]

theorem freeLines_disown (o : Option UnitId) :
    (p.disown id).freeLines o =
      if o = none then p.freeLines none ++ [id].filter p.untouched else p.freeLines o := by
  have hkept (hnot : p.untouched id = false) (hsame : (p.disown id).freeLines o = p.freeLines o) :
      (p.disown id).freeLines o =
        if o = none then p.freeLines none ++ [id].filter p.untouched else p.freeLines o := by
    rw [hsame]
    split
    · next ho => simp [ho, hnot]
    · rfl
  cases p.disowns id with
  | idle hunowned =>
    refine hkept ?_ (by rw [disown_of_unowned hunowned])
    cases hline : p.lines[id]? with
    | none => simp [untouched, hline]
    | some l => simp [untouched, hline, hunowned l hline]
  | inactive l u hline howner hstate =>
    refine hkept (by simp [untouched, hline, hstate]) ?_
    rw [disown_of_inactive hline howner hstate, freeLines_updateLine]
  | untouched l u hline howner hstate hpages =>
    have hhere : p.untouched id = true := by simp [untouched, hline, howner, hstate, hpages]
    rw [freeLines_disown_of_untouched hline howner hstate hpages]
    simp [hhere]
  | written l u hline howner hstate hpages =>
    refine hkept (by simp [untouched, hline, hpages]) ?_
    rw [disown_of_written hline howner hstate hpages, freeLines_retire, freeLines_updateLine]

end One

/-! ### A run over lines -/

section Run

variable {ids : List LineId} (p : Pool)

theorem getElem?_foldl_disown_of_not_mem {i : LineId} (hout : i ∉ ids) :
    (ids.foldl disown p).lines[i]? = p.lines[i]? := by
  induction ids generalizing p with
  | nil => rfl
  | cons id ids ih =>
    obtain ⟨hne, hout⟩ := not_or.1 (List.mem_cons.not.1 hout)
    rw [List.foldl_cons, ih _ hout, getElem?_disown_of_ne p (Ne.symm hne)]

/-- A line that a run comes across once loses its owner there. -/
theorem getElem?_foldl_disown (hnodup : ids.Nodup) {i : LineId} (hmem : i ∈ ids) :
    ∃ n, (ids.foldl disown p).lines[i]? = p.lines[i]?.map (Line.disowned n) := by
  induction ids generalizing p with
  | nil => cases hmem
  | cons id ids ih =>
    obtain ⟨hfresh, hnodup⟩ := List.nodup_cons.1 hnodup
    rw [List.foldl_cons]
    rcases List.mem_cons.1 hmem with rfl | hmem
    · exact ⟨_, by rw [getElem?_foldl_disown_of_not_mem _ hfresh, getElem?_disown, if_pos rfl]⟩
    · have hne : id ≠ i := fun heq => hfresh (heq ▸ hmem)
      obtain ⟨n, hline⟩ := ih (p.disown id) hnodup hmem
      exact ⟨n, by rw [hline, getElem?_disown_of_ne p hne]⟩

/-- A run shares the lines to which nothing was written, in its order. -/
theorem freeLines_foldl_disown (hnodup : ids.Nodup) :
    (ids.foldl disown p).freeLines none = p.freeLines none ++ ids.filter p.untouched := by
  induction ids generalizing p with
  | nil => simp
  | cons id ids ih =>
    obtain ⟨hfresh, hnodup⟩ := List.nodup_cons.1 hnodup
    have hlater : ids.filter (p.disown id).untouched = ids.filter p.untouched := by
      refine List.filter_congr fun i hi => untouched_congr ?_
      exact getElem?_disown_of_ne p fun heq => hfresh (heq ▸ hi)
    rw [List.foldl_cons, ih _ hnodup, hlater, freeLines_disown, if_pos rfl, List.append_assoc,
      ← List.filter_append, List.singleton_append]

end Run

end Pool

end DataPlacement
