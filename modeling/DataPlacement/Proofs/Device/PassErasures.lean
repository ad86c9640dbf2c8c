import DataPlacement.Proofs.Device.Landing
import DataPlacement.Proofs.Device.Wear

namespace DataPlacement

/-- A pass that is not refused counts the lines that it answers with. -/
theorem Collector.lines_collect {c : Collector} {p : Pool} {budget : Option Nat}
    {wanted : Candidate → Bool} {erased : List Reclaimed}
    (h : (c.collect p budget wanted).result = .ok erased) :
    (c.collect p budget wanted).state.1.tally.lines = c.tally.lines + erased.length := by
  unfold collect at h ⊢
  dsimp only at h ⊢
  split at h
  · cases h
  · obtain rfl := Except.ok.inj h
    rfl

namespace Device

variable {d : Device} {w : WriteCommand} {budget : Option Nat} {wanted : Candidate → Bool}

/-! ### Collections -/

/-- The collector counts the lines that a collection answers with. -/
theorem lines_collect {erased : List Reclaimed}
    (h : (d.collect budget wanted).result = .ok erased) :
    (d.collect budget wanted).state.collector.tally.lines =
      d.collector.tally.lines + erased.length := by
  cases hpass : (d.pass budget wanted).result with
  | error cause =>
    rw [collect_of_error budget hpass] at h
    cases h
  | ok lines =>
    have hlines : (d.pass budget wanted).state.collector.tally.lines =
        d.collector.tally.lines + lines.length := Collector.lines_collect hpass
    rw [collect_of_ok budget hpass] at h ⊢
    obtain rfl : lines = erased := Except.ok.inj h
    simp only [Outcome.done, rearmOwners_eq]
    exact hlines

/-! ### Writes -/

/-- A write that counts no pass erases no line. -/
theorem erasedLines_of_spared (hd : d.Sound)
    (h : (d.write w).state.accounting.foregroundPasses = d.accounting.foregroundPasses) :
    erasedLines (d.write w).notices = [] := by
  rw [erasedLines_write]
  obtain ⟨-, honce⟩ | ⟨-, honce⟩ := attempt_of_spared hd h
  · rw [honce]
    exact erasedLines_eq (shifts_routeOnce w.block d.clock.now hd.tick (d.placementOf w)
      (w.bytes d.geometry.blockSize)).2.1
  · rw [honce]
    exact erasedLines_eq (shifts_plainOnce w.block hd (w.bytes d.geometry.blockSize)).2.1

/-- How many lines the pass of a write erases: those whose erase counts it changes. There are none
without a pass. -/
def erasedByPass (d : Device) (w : WriteCommand) : Nat :=
  if (d.write w).state.accounting.foregroundPasses = d.accounting.foregroundPasses then 0
  else (List.range d.pool.lines.size).countP fun id =>
    (d.write w).state.pool.erasesOf id ≠ d.pool.erasesOf id

/-- A write changes the erase counts of the lines that it erases, and no others. -/
theorem erasesOf_write_ne_iff (hd : d.Sound) (w : WriteCommand) {id : LineId}
    (hid : id < d.pool.lines.size) :
    (d.write w).state.pool.erasesOf id ≠ d.pool.erasesOf id ↔
      id ∈ erasedLines (d.write w).notices := by
  have hcount : (d.write w).state.pool.erasesOf id =
      worn (d.pool.erasesOf id) ((erasedLines (d.write w).notices).count id) := by
    have hrun := erasesOf_run hd [(.write w : Request Host.Window)] hid
    rwa [erasureLog, erasureLog, List.append_nil, map_line_owned] at hrun
  rw [hcount]
  constructor
  · contrapose
    intro hspared
    rw [List.count_eq_zero.2 hspared]
    simp [worn]
  · intro hmem
    rw [List.count_eq_one_of_mem (counts_write hd w).2 hmem]
    exact worn_ne (by decide) (by decide)

/-- What a write erases it erases by its pass. -/
theorem erasedByPass_eq (hd : d.Sound) (w : WriteCommand) :
    d.erasedByPass w = (erasedLines (d.write w).notices).length := by
  unfold erasedByPass
  split
  · next hspared =>
    rw [erasedLines_of_spared hd hspared]
    rfl
  · have hknown : ∀ id ∈ erasedLines (d.write w).notices, id < d.pool.lines.size := by
      intro id hid
      have hlog : id ∈ (d.erasureLog [(.write w : Request Host.Window)]).map (·.line) := by
        rwa [erasureLog, erasureLog, List.append_nil, map_line_owned]
      obtain ⟨r, hr, rfl⟩ := List.mem_map.1 hlog
      exact line_lt_of_mem_erasureLog hd hr
    have hperm : ((List.range d.pool.lines.size).filter fun id =>
        (d.write w).state.pool.erasesOf id ≠ d.pool.erasesOf id).Perm
          (erasedLines (d.write w).notices) := by
      refine (List.perm_ext_iff_of_nodup (List.nodup_range.filter _)
        (counts_write hd w).2).2 fun id => ?_
      rw [List.mem_filter, List.mem_range, decide_eq_true_eq]
      exact ⟨fun h => (erasesOf_write_ne_iff hd w h.1).1 h.2,
        fun hmem => ⟨hknown id hmem, (erasesOf_write_ne_iff hd w (hknown id hmem)).2 hmem⟩⟩
    rw [List.countP_eq_length_filter, hperm.length_eq]

/-- The collector counts what the pass of a write erases. -/
theorem lines_write (hd : d.Sound) (w : WriteCommand) :
    (d.write w).state.collector.tally.lines = d.collector.tally.lines + d.erasedByPass w := by
  rw [(counts_write hd w).1.lines, owned, List.length_map, erasedByPass_eq hd]

end Device

end DataPlacement
