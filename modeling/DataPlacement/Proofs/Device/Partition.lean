import DataPlacement.Proofs.Device.Runs

namespace DataPlacement

namespace Pool

/-- The lines of all free lists: the shared ones, and then those of the units in unit order. -/
def listedLines (p : Pool) : List LineId := p.freeLines none ++ p.reservedLines

theorem mem_listedLines {p : Pool} {id : LineId} :
    id ∈ p.listedLines ↔ ∃ o, id ∈ p.freeLines o := by
  rw [listedLines, List.mem_append, mem_reservedLines]
  constructor
  · rintro (hid | ⟨u, hid⟩)
    · exact ⟨none, hid⟩
    · exact ⟨some u, hid⟩
  · rintro ⟨o, hid⟩
    cases o with
    | none => exact .inl hid
    | some u => exact .inr ⟨u, hid⟩

end Pool

namespace Device

variable {d : Device} {μ : Type} [Host.Memory μ]

/-- The pointer of a writer: of the plain path, or of a unit. -/
def writePointer (d : Device) : Option UnitId → WritePointer
  | none => d.path.pointer
  | some u => ((d.configuration.unit? u).map (·.pointer)).getD .closed

/-- The places of the lines, and what the places say of them. -/
structure Partitioned (d : Device) : Prop where
  /-- No line is listed twice, in one list or in two. -/
  nodup_listed : d.pool.listedLines.Nodup
  /-- The listed lines are the free ones. -/
  mem_listed : ∀ id, id ∈ d.pool.listedLines ↔
    ∃ l, d.pool.lines[id]? = some l ∧ l.state = .free
  /-- A list holds lines of its owner, and the shared list lines of no owner. -/
  owner_of_listed : ∀ o id, id ∈ d.pool.freeLines o →
    ∃ l, d.pool.lines[id]? = some l ∧ l.owner = o
  /-- There is one list per unit while placement is on, and none else. -/
  lists : d.pool.reserved.size = if d.enabled then d.configuration.units.size else 0
  /-- Owners are units, and while placement is off there are none. -/
  owner_is_unit : ∀ (id : LineId) (l : Line) (u : UnitId), d.pool.lines[id]? = some l →
    l.owner = some u → d.enabled ∧ u < d.configuration.units.size
  /-- An active line is the current line of its owner and of no other writer. -/
  writer_of_active : ∀ (id : LineId) (l : Line), d.pool.lines[id]? = some l → l.state = .active →
    ∀ o, (d.writePointer o).line = some id ↔ o = l.owner
  /-- A current line is active and has room from the page of its pointer on. -/
  active_of_current : ∀ o id, (d.writePointer o).line = some id →
    ∃ l, d.pool.lines[id]? = some l ∧ l.state = .active ∧ l.owner = o ∧
      (d.writePointer o).page = l.pages ∧ l.pages < d.pool.pagesPerLine
  /-- Free lines hold nothing. -/
  pages_of_free : ∀ (id : LineId) (l : Line), d.pool.lines[id]? = some l → l.state = .free →
    l.pages = 0
  /-- Full lines hold something, and have an age among the retirements so far. -/
  pages_of_full : ∀ (id : LineId) (l : Line), d.pool.lines[id]? = some l → l.state = .full →
    (0 < l.pages ∧ l.pages ≤ d.pool.pagesPerLine) ∧
      0 < l.retiredAt ∧ l.retiredAt ≤ d.pool.retirements
  /-- No two full lines have the same age. -/
  age_of_full : ∀ (i j : LineId) (a b : Line), d.pool.lines[i]? = some a →
    d.pool.lines[j]? = some b → a.state = .full → b.state = .full →
    a.retiredAt = b.retiredAt → i = j

theorem pointer_allocation (d : Device) : d.allocation.pointer = d.writePointer := by
  funext o
  cases o <;> rfl

theorem Sound.partitioned (hd : d.Sound) : d.Partitioned where
  nodup_listed := hd.allocation.nodup_listed
  mem_listed id := by
    rw [Pool.mem_listedLines]
    constructor
    · rintro ⟨o, hid⟩
      obtain ⟨l, hline, hstate, -⟩ := hd.allocation.free_of_mem hid
      exact ⟨l, hline, hstate⟩
    · rintro ⟨l, hline, hstate⟩
      exact ⟨l.owner, (hd.allocation.mem_freeLines l.owner id).2 ⟨l, hline, hstate, rfl⟩⟩
  owner_of_listed o id hid := by
    obtain ⟨l, hline, -, howner, -⟩ := hd.allocation.free_of_mem hid
    exact ⟨l, hline, howner⟩
  lists := hd.reserved
  owner_is_unit _ _ _ hline howner := hd.unit_of_owner hline howner
  writer_of_active id l hline hstate o := by
    rw [← pointer_allocation, hd.allocation.current]
    constructor
    · rintro ⟨k, hk, -, rfl⟩
      exact congrArg Line.owner (Option.some.inj (hk.symm.trans hline))
    · rintro rfl
      exact ⟨l, hline, hstate, rfl⟩
  active_of_current o id hcurrent := by
    rw [← pointer_allocation] at hcurrent ⊢
    have hpointer : d.allocation.pointer o = ⟨some id, (d.allocation.pointer o).page⟩ := by
      rw [← hcurrent]
    obtain ⟨l, hline, hstate, howner, hpages, hroom⟩ := hd.allocation.of_pointer hpointer
    exact ⟨l, hline, hstate, howner, hpages.symm, hpages ▸ hroom⟩
  pages_of_free id l hline hstate :=
    (Line.fits_of_free hstate _ _).1 (hd.allocation.fits id l hline)
  pages_of_full id l hline hstate :=
    (Line.fits_of_full hstate _ _).1 (hd.allocation.fits id l hline)
  age_of_full := hd.allocation.ages

/-- Whatever a device is asked to do, under whatever policies, its lines stay in their places. A
policy that names a line twice, or one that it was not given, makes a pass fail midway, and that is
no exception. -/
theorem partitioned_run {g : Geometry} {params : Parameters} {clock : Clock} {fresh : Device}
    (hbuild : build g params clock = .ok fresh) (rs : List (Request μ)) :
    (fresh.run rs).Partitioned :=
  (changes_run (sound_build hbuild) rs).sound.partitioned

/-- A run in which a pass is refused midway and placement is turned off and on again. -/
theorem partitioned_run_of_refused_pass :
    ∃ fresh, build ⟨4, 2, 6, 1, by decide⟩ { handles := 2 } (.steady 0 1) = .ok fresh ∧
      (fresh.run ([.enable, .write (.placed 0 15 0), .write (.placed 0 7 1),
        .install { policy := .repeating }, .gc none, .disable, .write (.plain 0 3), .enable] :
        List (Request Host.Window))).Partitioned :=
  have hbuild : build ⟨4, 2, 6, 1, by decide⟩ { handles := 2 } (.steady 0 1) = .ok _ := rfl
  ⟨_, hbuild, partitioned_run hbuild _⟩

end Device

end DataPlacement
