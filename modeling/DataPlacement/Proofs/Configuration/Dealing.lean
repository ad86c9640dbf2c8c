import DataPlacement.Proofs.Configuration.Descent
import DataPlacement.Proofs.Configuration.Fairness
import DataPlacement.Proofs.Pool.Blocks
import DataPlacement.Proofs.Pool.Ownership

namespace DataPlacement

namespace Configuration

variable {c c' : Configuration} {p q : Pool} {now : Nat} {us : List UnitId} {u : UnitId}
  {first : UnitId → LineId} {rest : UnitId → List LineId}

/-! ### Opening the units -/

/-- Each of the units was opened on the first line of its list; the others are left there. -/
structure OpenedOn (us : List UnitId) (first : UnitId → LineId) (rest : UnitId → List LineId)
    (now : Nat) (c : Configuration) (p : Pool) (c' : Configuration) (q : Pool) : Prop where
  kept : c' = { c with units := c'.units }
  size : c'.units.size = c.units.size
  units : ∀ u, c'.unit? u =
    if u ∈ us then (c.unit? u).map (·.openOn (first u) now) else c.unit? u
  shared : q.freeLines none = p.freeLines none
  own : ∀ u, q.freeLines (some u) = if u ∈ us then rest u else p.freeLines (some u)
  lines : ∀ id, q.lines[id]? =
    if id ∈ us.map first then p.lines[id]?.map Line.activate else p.lines[id]?
  reserved : q.reserved.size = p.reserved.size
  pagesPerLine : q.pagesPerLine = p.pagesPerLine
  retirements : q.retirements = p.retirements

theorem OpenedOn.cons (hfresh : u ∉ us) (hfree : p.freeLines (some u) = first u :: rest u)
    (h : OpenedOn us first rest now (c.updateUnit u (·.openOn (first u) now))
      (p.taken (some u) (first u) (rest u)) c' q) :
    OpenedOn (u :: us) first rest now c p c' q where
  kept := h.kept
  size := h.size.trans (by simp [updateUnit])
  units v := by
    rw [h.units, unit?_updateUnit]
    by_cases hv : u = v
    · subst hv
      simp [hfresh]
    · simp [hv, Ne.symm hv]
  shared := by rw [h.shared, Pool.freeLines_taken none hfree, if_neg (by simp)]
  own v := by
    rw [h.own, Pool.freeLines_taken (some v) hfree]
    by_cases hv : v = u
    · subst hv
      simp [hfresh]
    · simp [hv]
  lines id := by
    rw [h.lines, Pool.getElem?_taken]
    by_cases hid : first u = id
    · subst hid
      -- A line that is taken twice is as one that is taken once.
      cases p.lines[first u]? <;> simp [Line.activate]
    · simp [hid, Ne.symm hid]
  reserved := h.reserved.trans (p.size_reserved_taken _ _ _)
  pagesPerLine := h.pagesPerLine.trans (p.pagesPerLine_taken _ _ _)
  retirements := h.retirements.trans (p.retirements_taken _ _ _)

theorem openUnits_of_listed (now : Nat) (hnodup : us.Nodup)
    (hfree : ∀ u ∈ us, p.freeLines (some u) = first u :: rest u) :
    ∃ c' q notices, openUnits now us c p = ⟨.ok (us.map first), (c', q), notices⟩ ∧
      OpenedOn us first rest now c p c' q := by
  induction us generalizing c p with
  | nil =>
    exact ⟨c, p, [], rfl, rfl, rfl, fun u => by simp, rfl, fun u => by simp, fun id => by simp, rfl,
      rfl, rfl⟩
  | cons u us ih =>
    obtain ⟨hfresh, hnodup⟩ := List.nodup_cons.1 hnodup
    have hu := hfree u (by simp)
    have hlater : ∀ v ∈ us,
        (p.taken (some u) (first u) (rest u)).freeLines (some v) = first v :: rest v := by
      intro v hv
      have hother : some v ≠ some u := fun heq => hfresh (Option.some.inj heq ▸ hv)
      rw [Pool.freeLines_taken _ hu, if_neg hother]
      exact hfree v (by simp [hv])
    obtain ⟨c', q, notices, hopen, hopened⟩ :=
      ih (c := c.updateUnit u (·.openOn (first u) now)) hnodup hlater
    refine ⟨c', q, .opened u (first u) :: notices, ?_, hopened.cons hfresh hu⟩
    simp [openUnits, Pool.take_of_freeLines_eq_cons hu, hopen, Except.map]

/-! ### Cutting the shared list -/

/-- What a unit gets: the line that it is opened on, and those that wait in its list. -/
structure Block where
  first : LineId
  rest : List LineId

/-- The lines of a block, in their order. -/
def Block.lines (b : Block) : List LineId := b.first :: b.rest

/-- A list of lines can be cut into blocks of given lengths if none of these is zero. -/
theorem exists_blocks {lines : List LineId} {lengths : List Nat} (hsum : lengths.sum = lines.length)
    (hpositive : ∀ n ∈ lengths, n ≠ 0) :
    ∃ blocks : List Block, (blocks.map Block.lines).flatten = lines ∧
      (blocks.map Block.lines).map List.length = lengths := by
  induction lengths generalizing lines with
  | nil =>
    obtain rfl : lines = [] := by simpa [eq_comm] using hsum
    exact ⟨[], rfl, rfl⟩
  | cons n lengths ih =>
    rw [List.sum_cons] at hsum
    cases lines with
    | nil =>
      have hn := hpositive n (by simp)
      simp only [List.length_nil] at hsum
      omega
    | cons id lines =>
      have hn := hpositive n (by simp)
      rw [List.length_cons] at hsum
      have hlater : lengths.sum = (lines.drop (n - 1)).length := by
        rw [List.length_drop]
        omega
      obtain ⟨blocks, hflatten, hlengths⟩ := ih hlater fun m hm => hpositive m (by simp [hm])
      refine ⟨⟨id, lines.take (n - 1)⟩ :: blocks, ?_, ?_⟩
      · simp [Block.lines, hflatten]
      · have hlength : min (n - 1) lines.length + 1 = n := by omega
        simp [Block.lines, hlength, ← hlengths]

section Blocks

variable {blocks : List Block} {block : Block} {id : LineId}

theorem mem_flatten_of_block (hblock : blocks[u]? = some block) (hid : id ∈ block.lines) :
    id ∈ (blocks.map Block.lines).flatten :=
  List.mem_flatten_of_mem (List.mem_map_of_mem (List.mem_of_getElem? hblock)) hid

/-- A line of the blocks is the first one of its block or behind it. -/
theorem exists_block_of_mem (hid : id ∈ (blocks.map Block.lines).flatten) :
    ∃ (u : UnitId) (block : Block), blocks[u]? = some block ∧
      (id = block.first ∨ id ∈ block.rest) := by
  obtain ⟨lines, hlines, hid⟩ := List.mem_flatten.1 hid
  obtain ⟨block, hblock, rfl⟩ := List.mem_map.1 hlines
  obtain ⟨u, hu⟩ := List.getElem?_of_mem hblock
  exact ⟨u, block, hu, List.mem_cons.1 hid⟩

theorem mem_flatten_of_mem_first (hid : id ∈ blocks.map (·.first)) :
    id ∈ (blocks.map Block.lines).flatten := by
  obtain ⟨block, hblock, rfl⟩ := List.mem_map.1 hid
  obtain ⟨u, hu⟩ := List.getElem?_of_mem hblock
  exact mem_flatten_of_block hu List.mem_cons_self

/-- A line behind the first one of its block is not the first one of any other. -/
theorem not_mem_first_of_rest (hnodup : (blocks.map Block.lines).flatten.Nodup)
    (hblock : block ∈ blocks) (hid : id ∈ block.rest) : id ∉ blocks.map (·.first) := by
  induction blocks with
  | nil => simp at hblock
  | cons b blocks ih =>
    rw [List.map_cons, List.flatten_cons] at hnodup
    have hdisjoint := List.disjoint_of_nodup_append hnodup
    rw [List.map_cons, List.mem_cons, not_or]
    rcases List.mem_cons.1 hblock with rfl | hlater
    · have hown : block.first ∉ block.rest :=
        (List.nodup_cons.1 (List.Nodup.of_append_left hnodup)).1
      exact ⟨fun heq => hown (heq ▸ hid), fun hfirst =>
        hdisjoint (List.mem_cons_of_mem _ hid) (mem_flatten_of_mem_first hfirst)⟩
    · obtain ⟨u, hu⟩ := List.getElem?_of_mem hlater
      have hmem := mem_flatten_of_block hu (List.mem_cons_of_mem _ hid)
      exact ⟨fun heq => hdisjoint (heq ▸ List.mem_cons_self) hmem,
        ih (List.Nodup.of_append_right hnodup) hlater⟩

/-- The first line of the block of a unit. -/
def firstOf (blocks : List Block) (u : UnitId) : LineId := (blocks[u]?.map (·.first)).getD 0

/-- The lines behind the first one in the block of a unit. -/
def restOf (blocks : List Block) (u : UnitId) : List LineId := (blocks[u]?.map (·.rest)).getD []

theorem firstOf_eq (hblock : blocks[u]? = some block) : firstOf blocks u = block.first := by
  simp [firstOf, hblock]

theorem restOf_eq (hblock : blocks[u]? = some block) : restOf blocks u = block.rest := by
  simp [restOf, hblock]

theorem map_firstOf (blocks : List Block) :
    (List.range blocks.length).map (firstOf blocks) = blocks.map (·.first) := by
  refine List.ext_getElem? fun u => ?_
  by_cases hu : u < blocks.length
  · simp [firstOf, hu]
  · simp [hu]

end Blocks

/-! ### Turning placement on -/

/-- The lines of the blocks went to the units, and the first one of each block was opened. -/
structure HandedOut (blocks : List Block) (p q : Pool) : Prop where
  first : ∀ (u : UnitId) (block : Block), blocks[u]? = some block →
    ∃ l, p.lines[block.first]? = some l ∧
      q.lines[block.first]? = some { l with owner := some u, state := .active, pages := 0 }
  behind : ∀ (u : UnitId) (block : Block), blocks[u]? = some block → ∀ id ∈ block.rest,
    ∃ l, p.lines[id]? = some l ∧ q.lines[id]? = some { l with owner := some u }
  others : ∀ id ∉ (blocks.map Block.lines).flatten, q.lines[id]? = p.lines[id]?

/-- What became of each line. -/
theorem HandedOut.line_cases {blocks : List Block} (h : HandedOut blocks p q) {id : LineId}
    {l l' : Line} (hline : p.lines[id]? = some l) (hline' : q.lines[id]? = some l') :
    (∃ (u : UnitId) (block : Block), blocks[u]? = some block ∧ id = block.first ∧
        l' = { l with owner := some u, state := .active, pages := 0 }) ∨
      (∃ (u : UnitId) (block : Block), blocks[u]? = some block ∧ id ∈ block.rest ∧
        l' = { l with owner := some u }) ∨
      (id ∉ (blocks.map Block.lines).flatten ∧ l' = l) := by
  by_cases hid : id ∈ (blocks.map Block.lines).flatten
  · obtain ⟨u, block, hblock, rfl | hrest⟩ := exists_block_of_mem hid
    · obtain ⟨k, hk, hk'⟩ := h.first u block hblock
      obtain rfl := Option.some.inj (hline.symm.trans hk)
      obtain rfl := Option.some.inj (hline'.symm.trans hk')
      exact .inl ⟨u, block, hblock, rfl, rfl⟩
    · obtain ⟨k, hk, hk'⟩ := h.behind u block hblock id hrest
      obtain rfl := Option.some.inj (hline.symm.trans hk)
      obtain rfl := Option.some.inj (hline'.symm.trans hk')
      exact .inr (.inl ⟨u, block, hblock, hrest, rfl⟩)
  · rw [h.others id hid, hline] at hline'
    exact .inr (.inr ⟨hid, (Option.some.inj hline').symm⟩)

/-- Placement was turned on, and the shared lines went to the units in blocks. -/
structure DealtOut (c : Configuration) (p : Pool) (now : Nat) (blocks : List Block)
    (c' : Configuration) (q : Pool) : Prop where
  /-- One after the other the blocks are the shared list. -/
  flatten : (blocks.map Block.lines).flatten = p.freeLines none
  /-- Nothing but the units and the switch changes. -/
  kept : c' = { c with enabled := true, units := c'.units }
  size : c'.units.size = c.units.size
  /-- A unit is opened on the first line of its block, and the others are its list. -/
  unit : ∀ (u : UnitId) (block : Block), blocks[u]? = some block →
    ∃ unit, c.unit? u = some unit ∧ unit.id = u ∧
      c'.unit? u = some (unit.openOn block.first now) ∧ q.freeLines (some u) = block.rest
  shared : q.freeLines none = []
  reserved : q.reserved.size = c.units.size
  lines : HandedOut blocks p q
  /-- Exactly the lines of the blocks have owners. -/
  owned : ∀ (id : LineId) (u : UnitId), q.ownerOf id = some u ↔
    ∃ block, blocks[u]? = some block ∧ id ∈ block.lines
  /-- Exactly the first lines of the blocks change their state. -/
  opened : ∀ (id : LineId) (l l' : Line), p.lines[id]? = some l → q.lines[id]? = some l' →
    (l'.state ≠ l.state ↔ id ∈ blocks.map (·.first))
  /-- Nothing else of a line changes, but that the first lines of the blocks start at page 0. -/
  counts : ∀ (id : LineId) (l l' : Line), p.lines[id]? = some l → q.lines[id]? = some l' →
    l'.erases = l.erases ∧ l'.retiredAt = l.retiredAt ∧
      l'.pages = if id ∈ blocks.map (·.first) then 0 else l.pages
  pagesPerLine : q.pagesPerLine = p.pagesPerLine
  retirements : q.retirements = p.retirements

section HandedOut

variable {blocks : List Block} {id : LineId} {l l' : Line} (h : HandedOut blocks p q)
  (hp : p.Undealt)
include h hp

theorem HandedOut.ownerOf_eq_some_iff (id : LineId) (u : UnitId) :
    q.ownerOf id = some u ↔ ∃ block, blocks[u]? = some block ∧ id ∈ block.lines := by
  constructor
  · intro howner
    have hid : id ∈ (blocks.map Block.lines).flatten := by
      by_contra hout
      have hsame : q.ownerOf id = p.ownerOf id := by
        rw [Pool.ownerOf, h.others id hout, Pool.ownerOf]
      rw [hsame, hp.unowned] at howner
      cases howner
    obtain ⟨v, block, hblock, rfl | hrest⟩ := exists_block_of_mem hid
    · obtain ⟨l, -, hline⟩ := h.first v block hblock
      rw [Pool.ownerOf_eq hline] at howner
      obtain rfl := Option.some.inj howner
      exact ⟨block, hblock, List.mem_cons_self⟩
    · obtain ⟨l, -, hline⟩ := h.behind v block hblock id hrest
      rw [Pool.ownerOf_eq hline] at howner
      obtain rfl := Option.some.inj howner
      exact ⟨block, hblock, List.mem_cons_of_mem _ hrest⟩
  · rintro ⟨block, hblock, hid⟩
    rcases List.mem_cons.1 hid with rfl | hrest
    · obtain ⟨l, -, hline⟩ := h.first u block hblock
      exact Pool.ownerOf_eq hline
    · obtain ⟨l, -, hline⟩ := h.behind u block hblock id hrest
      exact Pool.ownerOf_eq hline

variable (hflatten : (blocks.map Block.lines).flatten = p.freeLines none)
include hflatten

theorem HandedOut.state_ne_iff (hline : p.lines[id]? = some l) (hline' : q.lines[id]? = some l') :
    l'.state ≠ l.state ↔ id ∈ blocks.map (·.first) := by
  obtain ⟨u, block, hblock, rfl, rfl⟩ | ⟨u, block, hblock, hrest, rfl⟩ | ⟨hout, rfl⟩ :=
    h.line_cases hline hline'
  · have hmem : block.first ∈ p.freeLines none :=
      hflatten ▸ mem_flatten_of_block hblock List.mem_cons_self
    obtain ⟨k, hk, hfree⟩ := hp.free _ hmem
    obtain rfl := Option.some.inj (hline.symm.trans hk)
    simpa [hfree] using ⟨block, List.mem_of_getElem? hblock, rfl⟩
  · have hfirst := not_mem_first_of_rest (hflatten ▸ hp.nodup) (List.mem_of_getElem? hblock) hrest
    simpa using hfirst
  · have hfirst : id ∉ blocks.map (·.first) := fun hmem => hout (mem_flatten_of_mem_first hmem)
    simpa using hfirst

theorem HandedOut.counts (hline : p.lines[id]? = some l) (hline' : q.lines[id]? = some l') :
    l'.erases = l.erases ∧ l'.retiredAt = l.retiredAt ∧
      l'.pages = if id ∈ blocks.map (·.first) then 0 else l.pages := by
  obtain ⟨u, block, hblock, rfl, rfl⟩ | ⟨u, block, hblock, hrest, rfl⟩ | ⟨hout, rfl⟩ :=
    h.line_cases hline hline'
  · have hfirst : block.first ∈ blocks.map (·.first) :=
      List.mem_map_of_mem (List.mem_of_getElem? hblock)
    exact ⟨rfl, rfl, (if_pos hfirst).symm⟩
  · have hbehind := not_mem_first_of_rest (hflatten ▸ hp.nodup) (List.mem_of_getElem? hblock) hrest
    exact ⟨rfl, rfl, (if_neg hbehind).symm⟩
  · have houtside : id ∉ blocks.map (·.first) := fun hmem => hout (mem_flatten_of_mem_first hmem)
    exact ⟨rfl, rfl, (if_neg houtside).symm⟩

end HandedOut

section Enabling

variable {g : Geometry} {params : Parameters} {fresh : Configuration} {r : Pool}
  {blocks : List Block}

/-- The blocks were given to units without lines, and the units were opened. -/
theorem handedOut_of_opened (hp : p.Undealt) (hlength : blocks.length = c.units.size)
    (hflatten : (blocks.map Block.lines).flatten = p.freeLines none)
    (hgives : Pool.GivesBlocks 0 (blocks.map Block.lines) (p.reserve c.units.size) r)
    (hopened : OpenedOn (List.range c.units.size) (firstOf blocks) (restOf blocks) now c r c' q) :
    HandedOut blocks p q := by
  have hlines := hopened.lines
  rw [← hlength, map_firstOf] at hlines
  have hgiven : ∀ (u : UnitId) (block : Block), blocks[u]? = some block → ∀ id ∈ block.lines,
      ∃ l, p.lines[id]? = some l ∧ l.state = .free ∧
        r.lines[id]? = some { l with owner := some u } := by
    intro u block hblock id hid
    obtain ⟨l, hline, hfree⟩ := hp.free id (hflatten ▸ mem_flatten_of_block hblock hid)
    refine ⟨l, hline, hfree, ?_⟩
    have hown := hgives.given u block.lines (by simp [hblock]) id hid
    change r.lines[id]? = p.lines[id]?.map _ at hown
    rw [hown, hline, Nat.zero_add]
    rfl
  refine ⟨fun u block hblock => ?_, fun u block hblock id hid => ?_, fun id hid => ?_⟩
  · obtain ⟨l, hline, -, hown⟩ := hgiven u block hblock _ List.mem_cons_self
    have hfirst : block.first ∈ blocks.map (·.first) :=
      List.mem_map_of_mem (List.mem_of_getElem? hblock)
    exact ⟨l, hline, by rw [hlines, if_pos hfirst, hown]; rfl⟩
  · obtain ⟨l, hline, -, hown⟩ := hgiven u block hblock id (List.mem_cons_of_mem _ hid)
    have hbehind := not_mem_first_of_rest (hflatten ▸ hp.nodup) (List.mem_of_getElem? hblock) hid
    exact ⟨l, hline, by rw [hlines, if_neg hbehind, hown]⟩
  · rw [hlines, if_neg fun hmem => hid (mem_flatten_of_mem_first hmem), hgives.others id hid]
    rfl

theorem dealtOut_of_opened (hc : c.Shaped) (hp : p.Undealt) (hlength : blocks.length = c.units.size)
    (hflatten : (blocks.map Block.lines).flatten = p.freeLines none)
    (hgives : Pool.GivesBlocks 0 (blocks.map Block.lines) (p.reserve c.units.size) r)
    (hopened : OpenedOn (List.range c.units.size) (firstOf blocks) (restOf blocks) now c r c' q)
    (hshared : r.freeLines none = []) :
    DealtOut c p now blocks { c' with enabled := true } q := by
  have hlines := handedOut_of_opened hp hlength hflatten hgives hopened
  have hunit : ∀ (u : UnitId) (block : Block), blocks[u]? = some block → u < c.units.size :=
    fun u block hblock => hlength ▸ (List.getElem?_eq_some_iff.1 hblock).1
  exact {
    flatten := hflatten
    kept := by rw [hopened.kept]
    size := hopened.size
    unit := fun u block hblock => by
      have hu := hunit u block hblock
      have hbefore : c.unit? u = some c.units[u] := Array.getElem?_eq_getElem hu
      refine ⟨c.units[u], hbefore, (hc.numbered u _ hbefore).1, ?_, ?_⟩
      · have hopen := hopened.units u
        rw [if_pos (List.mem_range.2 hu), hbefore, firstOf_eq hblock] at hopen
        exact hopen
      · rw [hopened.own, if_pos (List.mem_range.2 hu), restOf_eq hblock]
    shared := hopened.shared.trans hshared
    reserved := by
      rw [hopened.reserved, hgives.reserved]
      simp [Pool.reserve]
    lines := hlines
    owned := hlines.ownerOf_eq_some_iff hp
    opened := fun id l l' => hlines.state_ne_iff hp hflatten
    counts := fun id l l' => hlines.counts hp hflatten
    pagesPerLine := hopened.pagesPerLine.trans hgives.pagesPerLine
    retirements := hopened.retirements.trans hgives.retirements }

/-- Placement is turned on over lines of which there is one for every unit. -/
theorem distribute_in_blocks (hc : c.Shaped) (hp : p.Undealt)
    (hmany : c.units.size ≤ (p.freeLines none).length) (now : Nat) :
    ∃ blocks c' q notices,
      c.distribute p now = ⟨.ok ⟨Distribution.shares (p.freeLines none).length c.units.size,
        blocks.map (·.first)⟩, (c', q), notices⟩ ∧
      (blocks.map Block.lines).map List.length =
        Distribution.shares (p.freeLines none).length c.units.size ∧
      DealtOut c p now blocks { c' with enabled := true } q := by
  have hfind := Distribution.findIdx?_shares_of_ample hmany
  have hpositive : ∀ count ∈ Distribution.shares (p.freeLines none).length c.units.size,
      count ≠ 0 := by
    simpa using List.findIdx?_eq_none_iff.1 hfind
  have hunits : 0 < c.units.size := hc.size ▸ Nat.mul_pos hc.groups hc.handles
  obtain ⟨blocks, hflatten, hlengths⟩ :=
    exists_blocks (Distribution.sum_shares_of_pos _ hunits) hpositive
  have hlength : blocks.length = c.units.size := by
    have hcount := congrArg List.length hlengths
    simpa [Distribution.shares] using hcount
  have hlists : ∀ i < (blocks.map Block.lines).length,
      (p.reserve c.units.size).hasList (some (0 + i)) := by
    intro i hi
    simpa [Pool.hasList, Pool.reserve, hlength] using hi
  have hfree : (p.reserve c.units.size).freeLines none =
      (blocks.map Block.lines).flatten ++ [] := by
    rw [Pool.freeLines_reserve, if_pos rfl, hflatten, List.append_nil]
  obtain ⟨r, hassign, hgives⟩ :=
    Pool.assignShares_of_blocks hlists hfree (hflatten ▸ hp.nodup)
  have hshared : r.freeLines none = [] := by
    have hcut := hgives.shared
    rw [hfree, List.append_cancel_left_eq] at hcut
    exact hcut.symm
  have hown : ∀ u ∈ List.range c.units.size,
      r.freeLines (some u) = firstOf blocks u :: restOf blocks u := by
    intro u hu
    have hu : u < blocks.length := by rw [hlength]; exact List.mem_range.1 hu
    have hblock : blocks[u]? = some blocks[u] := List.getElem?_eq_getElem hu
    have hlist := hgives.own u blocks[u].lines (by simp [hblock])
    rw [Nat.zero_add, Pool.freeLines_reserve, if_neg (by simp), List.nil_append] at hlist
    rw [hlist, firstOf_eq hblock, restOf_eq hblock, Block.lines]
  obtain ⟨c', q, notices, hopen, hopened⟩ :=
    openUnits_of_listed (c := c) now List.nodup_range hown
  refine ⟨blocks, c', q, notices, ?_, hlengths,
    dealtOut_of_opened hc hp hlength hflatten hgives hopened hshared⟩
  rw [← hlength, map_firstOf, hlength] at hopen
  rw [hlengths] at hassign
  simp only [distribute, Pool.size_shared_eq_length, hfind, hassign, Outcome.done, hopen,
    Except.map]

/-- Nothing moves if there is not a line for every unit. -/
theorem distribute_of_few (hfew : (p.freeLines none).length < c.units.size) (now : Nat) :
    c.distribute p now = .refused (.distributionFailed (p.freeLines none).length) (c, p)
      [.distributionFailed (p.freeLines none).length c.units.size] := by
  simp only [distribute, Pool.size_shared_eq_length, Distribution.findIdx?_shares_of_scarce hfew]

/-- Turning placement on deals out the shared lines of a pool in which no line has an owner. If
there is a line for every unit, the shared list is cut into blocks of the lengths of the shares, one
for each unit in the order of their numbers; each unit is opened on the first line of its block, at
page 0 whatever that line says of its pages, and has the others in its list. Nothing else of the
pool and of the configuration changes. If there are fewer lines than units, the first unit that
would get none is named, and nothing changes. -/
theorem deals_out_in_blocks (hbuild : build g params = .ok fresh) (hc : Descends fresh c)
    (hoff : c.enabled = false) (hp : p.Undealt) (clock : Clock) :
    let free := (p.freeLines none).length
    let units := params.groups * params.handles
    let o := c.enable p clock
    (units ≤ free → ∃ blocks c' q,
      o.result = .ok (some ⟨Distribution.shares free units, blocks.map (·.first)⟩) ∧
        o.state = (c', q, clock.next) ∧
        (blocks.map Block.lines).map List.length = Distribution.shares free units ∧
        DealtOut c p clock.now blocks c' q) ∧
      (free < units →
        o.result = .error (.distributionFailed free) ∧ o.state = (c, p, clock.next)) := by
  intro free units o
  have hshaped := hc.shaped hbuild
  obtain ⟨hgroups, hhandles⟩ := hc.parameters hbuild
  have hsize : c.units.size = units := by rw [hshaped.size, hgroups, hhandles]
  constructor
  · intro hmany
    obtain ⟨blocks, c', q, notices, hdistribute, hlengths, hdealt⟩ :=
      distribute_in_blocks hshaped hp (hsize ▸ hmany) clock.now
    rw [hsize] at hdistribute hlengths
    refine ⟨blocks, { c' with enabled := true }, q, ?_, ?_, hlengths, hdealt⟩
    · simp [o, enable, hoff, hdistribute, Outcome.done, free]
    · simp [o, enable, hoff, hdistribute, Outcome.done]
  · intro hfew
    have hdistribute := distribute_of_few (c := c) (hsize ▸ hfew) clock.now
    constructor
    · simp [o, enable, hoff, hdistribute, Outcome.refused, free]
    · simp [o, enable, hoff, hdistribute, Outcome.refused]

/-- A configuration of three units that was on before, and a shared list out of order, next to full
lines: the units get two lines, two, and one. Of two lines the third unit would get none. -/
theorem deals_out_in_blocks_of_shuffled :
    ∃ fresh, build {} { handles := 3 } = .ok fresh ∧
      let on := (fresh.enable (.erased 6 2) (.steady 0 1)).state
      let c := (on.1.disable on.2.1).state.1
      let p : Pool := {
        lines := #[{}, ⟨none, .full, 0, 2, 1⟩, { erases := 3 }, {}, ⟨none, .full, 1, 1, 2⟩, {}, {}]
        pagesPerLine := 2
        shared := .ofList [5, 2, 6, 0, 3]
        retirements := 2 }
      let few := { p with shared := .ofList [5, 2] }
      let clock : Clock := .steady 7 1
      Descends fresh c ∧ c.enabled = false ∧ p.Undealt ∧ few.Undealt ∧
        (c.enable p clock).result = .ok (some ⟨[2, 2, 1], [5, 6, 3]⟩) ∧
        (∃ blocks c' q, (c.enable p clock).state = (c', q, clock.next) ∧
          DealtOut c p clock.now blocks c' q) ∧
        (c.enable few clock).result = .error (.distributionFailed 2) ∧
        (c.enable few clock).state = (c, few, clock.next) := by
  have hbuild : build {} { handles := 3 } = .ok _ := rfl
  refine ⟨_, hbuild, ?_⟩
  intro on c p few clock
  have hc : Descends _ c := .disabled (.enabled .unused _ _) _
  have hp : p.Undealt := by decide +kernel
  have hfew : few.Undealt := by decide +kernel
  have hoff : c.enabled = false := by decide +kernel
  obtain ⟨hample, -⟩ := deals_out_in_blocks hbuild hc hoff hp clock
  obtain ⟨-, hscarce⟩ := deals_out_in_blocks hbuild hc hoff hfew clock
  obtain ⟨blocks, c', q, -, hstate, -, hdealt⟩ := hample (by decide +kernel)
  obtain ⟨hrefused, hsame⟩ := hscarce (by decide +kernel)
  exact ⟨hc, hoff, hp, hfew, by decide +kernel, ⟨blocks, c', q, hstate, hdealt⟩, hrefused, hsame⟩

/-- A free line that was programmed is opened by the unit at page 0: its count of pages is lost. -/
theorem pages_of_stale_line :
    ∃ fresh, build {} { handles := 1 } = .ok fresh ∧
      let p := (Pool.erased 2 4).program 0 1
      let q := (fresh.enable p (.steady 0 1)).state.2.1
      fresh.enabled = false ∧ p.Undealt ∧ p.lines[0]? = some { pages := 1 } ∧
        q.lines[0]? = some ⟨some 0, .active, 0, 0, 0⟩ := by
  have hbuild : build {} { handles := 1 } = .ok _ := rfl
  exact ⟨_, hbuild, by decide +kernel⟩

end Enabling

end Configuration

end DataPlacement
