import DataPlacement.Proofs.Device.Addressing
import DataPlacement.Proofs.Device.Budgets
import DataPlacement.Proofs.Pool.Interruption
import DataPlacement.Proofs.Pool.Wear
import DataPlacement.Proofs.Statistics

namespace DataPlacement

/-! ### What the collector counts -/

/-- The lines that notices tell the erasure of, oldest first. -/
def erasedLines (notices : List Notice) : List LineId := notices.filterMap Notice.erasedLine?

theorem erasedLines_eq {notices : List Notice} {ids : List LineId}
    (h : erasures notices = ids.map .erased) : erasedLines notices = ids :=
  List.map_injective_iff.2 (fun _ _ h => LineEvent.erased.inj h) h

/-- From one tally to a later one, with these erasures in between. -/
structure CollectorTally.Counts (t : CollectorTally) (erased : List Reclaimed)
    (t' : CollectorTally) : Prop where
  lines : t'.lines = t.lines + erased.length
  toUnits : t'.toUnits = t.toUnits + erased.countP (·.owner.isSome)

namespace CollectorTally

variable {t t' t'' : CollectorTally} {erased erased' : List Reclaimed}

theorem Counts.refl (t : CollectorTally) : t.Counts [] t := ⟨rfl, rfl⟩

theorem Counts.trans (h : t.Counts erased t') (h' : t'.Counts erased' t'') :
    t.Counts (erased ++ erased') t'' where
  lines := by rw [h'.lines, h.lines, List.length_append, Nat.add_assoc]
  toUnits := by rw [h'.toUnits, h.toUnits, List.countP_append, Nat.add_assoc]

end CollectorTally

/-- A pass erases no line twice. -/
theorem Collector.nodup_erasedLines_collect (c : Collector) (p : Pool) (budget : Option Nat)
    (wanted : Candidate → Bool) : (erasedLines (c.collect p budget wanted).notices).Nodup := by
  obtain ⟨done, left, -, hnodup, -, herased, -⟩ := p.exists_erased (c.victims p budget wanted)
  have hlines : erasedLines (c.collect p budget wanted).notices = done := by
    apply erasedLines_eq
    rw [erasures_collect, herased, List.map_map]
    rfl
  rwa [hlines]

/-- A pass counts what it has erased, also if it is refused after that. -/
theorem Collector.counts_collect (c : Collector) (p : Pool) (budget : Option Nat)
    (wanted : Candidate → Bool) :
    let o := c.collect p budget wanted
    c.tally.Counts ((erasedLines o.notices).map fun id => ⟨id, p.ownerOf id⟩) o.state.1.tally := by
  intro o
  have hlines : erasedLines o.notices =
      (p.eraseLines (c.victims p budget wanted)).erased.map (·.line) :=
    erasedLines_eq ((c.erasures_collect p budget wanted).trans List.map_map.symm)
  have howners : ((p.eraseLines (c.victims p budget wanted)).erased.map (·.line)).map
      (fun id => (⟨id, p.ownerOf id⟩ : Reclaimed)) =
        (p.eraseLines (c.victims p budget wanted)).erased := by
    rw [List.map_map]
    refine (List.map_congr_left fun r hr => ?_).trans (List.map_id _)
    rw [Function.comp_apply, ← (Pool.owner_of_mem_erased hr).2]
    rfl
  have htally : o.state.1.tally =
      c.tally.add (p.eraseLines (c.victims p budget wanted)).erased := by
    change (c.collect p budget wanted).state.1.tally = _
    unfold collect
    dsimp only
    split <;> rfl
  rw [hlines, howners, htally]
  exact ⟨rfl, rfl⟩

namespace Device

open Allocation

variable {d e fresh : Device} {μ : Type} [Host.Memory μ]

/-- From one device to a later one, the collector has counted the erasures that notices tell of,
with the owners that the lines have at first. No line was erased twice. -/
def Counts (d : Device) (notices : List Notice) (e : Device) : Prop :=
  d.collector.tally.Counts (d.owned (erasedLines notices)) e.collector.tally ∧
    (erasedLines notices).Nodup

/-- Whatever tells of no erasure and leaves the collector alone counts nothing. -/
theorem counts_of_quiet {notices : List Notice} (hquiet : erasures notices = [])
    (hsame : e.collector = d.collector) : d.Counts notices e := by
  have hnone : erasedLines notices = [] := erasedLines_eq hquiet
  rw [Counts, hnone, hsame]
  exact ⟨.refl _, .nil⟩

/-- What comes after erasures without telling of more leaves the count as it is. -/
theorem Counts.quiet {earlier later : List Notice} (h : d.Counts earlier e)
    (hquiet : erasures later = []) : d.Counts (earlier ++ later) e := by
  have hsame : erasedLines (earlier ++ later) = erasedLines earlier :=
    erasedLines_eq (by rw [erasures_append, hquiet, List.append_nil]; rfl)
  rwa [Counts, hsame]

theorem counts_pass (d : Device) (budget : Option Nat) (wanted : Candidate → Bool) :
    d.Counts (d.pass budget wanted).notices (d.pass budget wanted).state :=
  ⟨d.collector.counts_collect d.pool budget wanted,
    d.collector.nodup_erasedLines_collect d.pool budget wanted⟩

theorem counts_collect (hd : d.Sound) (budget : Option Nat) (wanted : Candidate → Bool) :
    d.Counts (d.collect budget wanted).notices (d.collect budget wanted).state := by
  have hpass := counts_pass d budget wanted
  cases hresult : (d.pass budget wanted).result with
  | error cause =>
    rw [collect_of_error budget hresult]
    exact hpass
  | ok erased =>
    have hpassed := (advances_any_pass d budget wanted).sound hd
    have hanyone : ∀ r ∈ erased, True := fun _ _ => trivial
    have hquiet := (advances_rearmOwners (W := fun _ => True) hpassed.tick
      (d.pass budget wanted).state.clock.now hanyone).2
    rw [collect_of_ok budget hresult]
    simp only [Outcome.done, rearmOwners_eq]
    exact hpass.quiet hquiet

/-! ### Writes -/

theorem counts_writePlaced (hd : d.Sound) (placement : Placement) (block bytes : Nat) :
    let o := (d.writePlaced placement block bytes).outcome
    d.Counts o.notices o.state := by
  obtain honce | ⟨u, hu, hlong, hfit⟩ := writePlaced_cases block hd placement bytes
  · have hquiet := (shifts_routeOnce block d.clock.now hd.tick placement bytes).2.1
    rw [honce]
    exact counts_of_quiet hquiet rfl
  · have hready := hd.tick.countForegroundPass
    have hpass : d.Counts (d.tick.countForegroundPass.reclaimUnit u).notices
        (d.tick.countForegroundPass.reclaimUnit u).state :=
      counts_collect hready none fun candidate => candidate.line.isOwnedBy u
    -- Whether the pass ends the write or a second try does, only the pass has erased lines.
    rw [writePlaced_of_hopeful (d := d) block hu hlong hfit]
    split
    · exact hpass
    · have hemptied := (advances_any_reclaimUnit hready u).sound hready
      have hquiet := (shifts_routeOnce block d.clock.now hemptied placement bytes).2.1
      exact hpass.quiet hquiet

theorem counts_writePlain (hd : d.Sound) (block bytes : Nat) :
    let o := (d.writePlain block bytes).outcome
    d.Counts o.notices o.state := by
  obtain honce | ⟨⟨hzero, hwhole⟩, hlong⟩ := writePlain_cases block hd bytes
  · have hquiet := (shifts_plainOnce block hd bytes).2.1
    rw [honce]
    exact counts_of_quiet hquiet rfl
  · have hready := hd.countForegroundPass
    have hpass : d.Counts (d.countForegroundPass.pass none unowned).notices
        (d.countForegroundPass.pass none unowned).state :=
      counts_pass d.countForegroundPass none unowned
    rw [writePlain_of_exhausted block hzero hwhole hlong]
    split
    · exact hpass
    · have hemptied := (advances_any_pass d.countForegroundPass none unowned).sound hready
      have hquiet := (shifts_plainOnce block hemptied bytes).2.1
      exact hpass.quiet hquiet

theorem collector_account (o : Outcome Device WriteReport) (block bytes : Nat) :
    (account o block bytes).state.collector = o.state.collector := by
  unfold account
  dsimp only
  split <;> rfl

theorem erasedLines_write (d : Device) (w : WriteCommand) :
    erasedLines (d.write w).notices = erasedLines (d.attempt w).outcome.notices :=
  erasedLines_eq (write_views d w).2

theorem counts_write (hd : d.Sound) (w : WriteCommand) :
    d.Counts (d.write w).notices (d.write w).state := by
  have hattempt : d.Counts (d.attempt w).outcome.notices (d.attempt w).outcome.state := by
    unfold attempt
    split
    · exact counts_writePlaced hd _ _ _
    · exact counts_writePlain hd _ _
  have hcollector : (d.write w).state.collector = (d.attempt w).outcome.state.collector := by
    rw [write_eq]
    split
    · exact collector_account _ _ _
    · rfl
  rw [Counts, erasedLines_write, hcollector]
  exact hattempt

/-! ### Requests -/

theorem collector_apply (d : Device) (t : Toggle) : (d.apply t).state.collector = d.collector := by
  cases t with
  | resetAccounting | startTrace | stopTrace => rfl
  | enablePlacement => exact collector_enable d
  | disablePlacement => exact (path_and_collector_disable d).2

theorem collector_toggle (d : Device) (code : Nat) :
    (d.toggle code).state.collector = d.collector := by
  unfold toggle
  split
  · rfl
  · exact collector_apply d _

/-- The lines that a request erases, oldest first. -/
def erasedIn (d : Device) (r : Request μ) : List LineId := erasedLines (d.perform r).2

theorem erasuresOf_lineEvents (d : Device) (r : Request μ) (id : LineId) :
    erasuresOf id (d.lineEvents r) = (d.erasedIn r).count id := by
  have hreport : erasuresOf id (((d.report? r).map (·.events)).getD []) = 0 := by
    cases d.report? r with
    | none => rfl
    | some report => exact report.erasuresOf_events id
  rw [lineEvents, erasuresOf_append, hreport, Nat.add_zero]
  exact erasuresOf_erased id _

/-- The lines that a run of requests erases, oldest first, with the owners that they have then. -/
def erasureLog (d : Device) : List (Request μ) → List Reclaimed
  | [] => []
  | r :: rs => d.owned (d.erasedIn r) ++ (d.after r).erasureLog rs

theorem erasuresOf_lineHistory (d : Device) (rs : List (Request μ)) (id : LineId) :
    erasuresOf id (d.lineHistory rs) = ((d.erasureLog rs).map (·.line)).count id := by
  induction rs generalizing d with
  | nil => rfl
  | cons r rs ih =>
    rw [lineHistory, erasuresOf_append, erasuresOf_lineEvents, ih, erasureLog, List.map_append,
      List.count_append, map_line_owned]

/-- Every line counts the erasures of the log, in 32 bits. -/
theorem erasesOf_run (hd : d.Sound) (rs : List (Request μ)) {id : LineId}
    (hid : id < d.pool.lines.size) :
    (d.run rs).pool.erasesOf id =
      worn (d.pool.erasesOf id) (((d.erasureLog rs).map (·.line)).count id) := by
  have hline : d.pool.lines[id]? = some d.pool.lines[id] := Array.getElem?_eq_getElem hid
  obtain ⟨l, hafter, hevolves⟩ :=
    evolves_of_steps (changes_run hd rs).steps hd.allocation id _ hline
  have hafter : (d.run rs).pool.lines[id]? = some l := hafter
  rw [Pool.erasesOf_eq hafter, Pool.erasesOf_eq hline, hevolves.erases, erasuresOf_lineHistory]

theorem line_lt_of_mem_erasureLog (hd : d.Sound) {rs : List (Request μ)} {r : Reclaimed}
    (hr : r ∈ d.erasureLog rs) : r.line < d.pool.lines.size := by
  have hcount : 0 < erasuresOf r.line (d.lineHistory rs) := by
    rw [erasuresOf_lineHistory]
    exact List.count_pos_iff.2 (List.mem_map_of_mem hr)
  exact lt_size_of_erased (changes_run hd rs).steps (List.count_pos_iff.1 hcount)

/-- No line was erased yet. -/
structure Unworn (d : Device) : Prop where
  sound : d.Sound
  shaped : d.configuration.Shaped
  erases : ∀ id, d.pool.erasesOf id = 0

theorem Unworn.install (h : d.Unworn) (collector : Collector) : (d.install collector).Unworn :=
  ⟨(changes_after h.sound (.install collector : Request Host.Window)).sound, h.shaped, h.erases⟩

end Device

end DataPlacement
