import DataPlacement.Proofs.Device.Actions
import DataPlacement.Proofs.Device.Endings
import DataPlacement.Proofs.Device.Runs
import DataPlacement.Proofs.Pool.Progress

namespace DataPlacement.Device

variable {d e : Device} {w : WriteCommand} {cause : Error} {μ : Type} [Host.Memory μ]

/-- What a device is like between requests, whatever it was asked to do. -/
structure Poised (d : Device) : Prop where
  capabilities : d.capabilities = if d.enabled then .all else {}
  begun : d.path.pointer.Begun

theorem Poised.of_same (h : d.Poised) (hcapabilities : e.capabilities = d.capabilities)
    (henabled : e.enabled = d.enabled) (hpath : e.path = d.path) : e.Poised := by
  refine ⟨?_, hpath ▸ h.begun⟩
  rw [hcapabilities, henabled]
  exact h.capabilities

theorem poised_build {g : Geometry} {params : Parameters} {clock : Clock}
    (h : build g params clock = .ok d) : d.Poised := by
  have hoff := enabled_build h
  obtain ⟨c, -, rfl⟩ := exists_of_build h
  refine ⟨?_, WritePointer.begun_closed⟩
  rw [hoff]
  rfl

/-! ### Requests -/

/-- Opening units again is the business of the units and their lines. -/
theorem exists_setUnits_rearmOwners (now : Nat) (erased : List Reclaimed) (d : Device) :
    ∃ s, (rearmOwners now erased d).1 = d.setUnits s := by
  induction erased generalizing d with
  | nil => exact ⟨(d.configuration, d.pool), rfl⟩
  | cons r rest ih =>
    rw [rearmOwners]
    cases r.owner with
    | none => exact ih d
    | some u =>
      obtain ⟨s, hs⟩ := ih (d.onUnits fun c p => c.rearm p u now).state
      exact ⟨s, hs⟩

theorem capabilities_and_path_collect (d : Device) (budget : Option Nat)
    (wanted : Candidate → Bool) :
    (d.collect budget wanted).state.capabilities = d.capabilities ∧
      (d.collect budget wanted).state.path = d.path := by
  cases hresult : (d.pass budget wanted).result with
  | error cause =>
    rw [collect_of_error budget hresult]
    exact ⟨rfl, rfl⟩
  | ok erased =>
    obtain ⟨s, hrearmed⟩ := exists_setUnits_rearmOwners (d.pass budget wanted).state.clock.now
      erased (d.pass budget wanted).state.tick
    rw [collect_of_ok budget hresult, Outcome.done, hrearmed]
    exact ⟨rfl, rfl⟩

theorem Upkeep.capabilities_and_path (h : Upkeep d e) :
    e.capabilities = d.capabilities ∧ e.path = d.path := by
  induction h with
  | refl d => exact ⟨rfl, rfl⟩
  | ticks d => exact ⟨rfl, rfl⟩
  | countsPass d => exact ⟨rfl, rfl⟩
  | collects d budget wanted => exact capabilities_and_path_collect d budget wanted
  | sweeps d => exact ⟨rfl, rfl⟩
  | trans h h' ih ih' => exact ⟨ih'.1.trans ih.1, ih'.2.trans ih.2⟩

theorem Upkeep.poised (h : Upkeep d e) (hd : d.Sound) (hp : d.Poised) : e.Poised := by
  obtain ⟨es, hadvances⟩ := h.advances hd
  obtain ⟨hcapabilities, hpath⟩ := h.capabilities_and_path
  exact hp.of_same hcapabilities hadvances.enabled hpath

theorem poised_attempt (hd : d.Sound) (h : d.Poised) (w : WriteCommand) :
    (d.attempt w).outcome.state.Poised := by
  cases attemptEnd hd w with
  | refused cause hkept => exact hkept.poised hd h
  | routed e u unit r now hkept _ _ _ _ _ _ hstate =>
    rw [hstate]
    exact (hkept.poised hd h).of_same rfl rfl rfl
  | plain e r hkept _ _ _ _ _ hstate =>
    have hready := hkept.poised hd h
    rw [hstate]
    exact ⟨hready.capabilities, Pool.begun_fill hready.begun _ _ _⟩

theorem poised_write (hd : d.Sound) (h : d.Poised) (w : WriteCommand) :
    (d.write w).state.Poised := by
  have hattempt := poised_attempt hd h w
  rw [write_eq]
  split
  · unfold account
    dsimp only
    split <;> exact hattempt.of_same rfl rfl rfl
  · exact hattempt

theorem poised_disable (h : d.Poised) : d.disable.state.Poised := by
  cases henabled : d.enabled with
  | false =>
    rw [disable_of_off henabled]
    exact ⟨(if_neg (ne_true_of_eq_false henabled)).symm, h.begun⟩
  | true =>
    rw [disable_of_on henabled]
    exact ⟨rfl, h.begun⟩

theorem poised_enable (hd : d.Sound) (h : d.Poised) : d.enable.state.Poised := by
  cases henabled : d.enabled with
  | true =>
    rw [enable_of_on henabled]
    exact h
  | false =>
    obtain ⟨p, -, -, ⟨u, notices, -, henable⟩ | ⟨dist, c, q, notices, -, -, -, henable⟩⟩ :=
      enable_cases hd henabled
    · have hclosed : (d.closed p).tick.Poised := ⟨h.capabilities, WritePointer.begun_closed⟩
      rw [henable]
      exact poised_disable hclosed
    · rw [henable]
      exact ⟨rfl, WritePointer.begun_closed⟩

theorem poised_collect (hd : d.Sound) (h : d.Poised) (budget : Option Nat)
    (wanted : Candidate → Bool) : (d.collect budget wanted).state.Poised :=
  (Upkeep.collects d budget wanted).poised hd h

theorem poised_act (hd : d.Sound) (h : d.Poised) (action : Action) : (d.act action).Poised := by
  cases action with
  | write w => exact poised_write hd h w
  | enable => exact poised_enable hd h
  | disable => exact poised_disable h
  | gc budget => exact poised_collect hd h budget _
  | reclaimUnit u => exact poised_collect hd h none _
  | read | resetAccounting | trace | install | nothing => exact h.of_same rfl rfl rfl

theorem Reachable.poised (h : Reachable μ d) : d.Poised := by
  obtain ⟨g, params, clock, fresh, hbuild, rs, rfl⟩ := h
  refine run_preserves (Q := fun _ => True) (fun d r hd hp _ => ?_) (sound_build hbuild)
    (poised_build hbuild) fun _ _ => trivial
  rw [after_eq_act]
  exact poised_act hd hp r.action

/-! ### The refusal -/

/-- The pool once the plain path gave up its line for good. -/
def surrendered (d : Device) : Pool :=
  match d.path.pointer.line with
  | none => d.pool
  | some id => d.pool.retire id

/-- A path that has begun its line gives it up to the collector. -/
theorem close_of_begun (h : d.path.pointer.Begun) :
    d.onPath PlainPath.close = .done () (d.closed d.surrendered) := by
  rw [onPath_eq_mapState]
  cases hline : d.path.pointer.line with
  | none =>
    rw [PlainPath.close_of_closed d.path d.pool hline, surrendered, hline]
    rfl
  | some id =>
    have hpointer : d.path.pointer = ⟨some id, d.path.pointer.page⟩ := by rw [← hline]
    rw [PlainPath.close_of_written d.pool hpointer (h id hline), surrendered, hline]
    rfl

theorem sound_surrendered (hd : d.Sound) (h : d.path.pointer.Begun) :
    (d.closed d.surrendered).Sound := by
  obtain ⟨p, hclose, hkeeps, hsteps⟩ := close_eq hd
  have hsame : d.closed p = d.closed d.surrendered :=
    congrArg Outcome.state (hclose.symm.trans (close_of_begun h))
  rw [← hsame]
  exact sound_closed hd hkeeps hsteps

theorem state_of_refused_enable (hd : d.Sound) (hp : d.Poised) (hoff : d.enabled = false)
    (hrefused : d.enable.result = .error cause) :
    d.enable.state = (d.closed d.surrendered).tick := by
  have hnone : (d.closed d.surrendered).tick.capabilities = {} := by
    have hcapabilities := hp.capabilities
    rwa [hoff, if_neg Bool.false_ne_true] at hcapabilities
  have hoff' : (d.closed d.surrendered).tick.enabled = false := hoff
  obtain ⟨u, notices, -, henable⟩ | ⟨dist, c, q, notices, -, -, -, henable⟩ :=
    enable_of_closed hoff (close_of_begun hp.begun) (sound_surrendered hd hp.begun)
  · rw [henable, disable_of_off hoff', ← hnone]
    rfl
  · rw [henable] at hrefused
    cases hrefused

/-- What is left to a path without a line is its free lines. -/
theorem availablePages_surrendered (d : Device) :
    (d.closed d.surrendered).path.availablePages (d.closed d.surrendered).pool =
      d.pool.freeCount none * d.pool.pagesPerLine := by
  have hcount : d.surrendered.freeCount none = d.pool.freeCount none ∧
      d.surrendered.pagesPerLine = d.pool.pagesPerLine := by
    unfold surrendered
    split
    · exact ⟨rfl, rfl⟩
    · rw [Pool.freeCount_eq_length, Pool.freeLines_retire, Pool.pagesPerLine_retire,
        Pool.freeCount_eq_length]
      exact ⟨rfl, rfl⟩
  change d.surrendered.streamPages none .closed = _
  rw [Pool.streamPages_closed _ _ rfl, hcount.1, hcount.2]

/-- A refusal to turn placement on costs the plain path its line: that becomes full as it is, and
the path is left with its free lines. All else but the clock is as it was, so that the device is
unchanged if and only if the plain path had no line. -/
theorem refused_enable (hd : Reachable μ d) (hoff : d.enabled = false)
    (hrefused : d.enable.result = .error cause) :
    d.enable.state = (d.closed d.surrendered).tick ∧
      d.enable.state.path.availablePages d.enable.state.pool =
        d.pool.freeCount none * d.pool.pagesPerLine ∧
      (d.enable.state = d.tick ↔ d.path.pointer.line = none) := by
  have hstate := state_of_refused_enable hd.sound hd.poised hoff hrefused
  rw [hstate]
  refine ⟨rfl, availablePages_surrendered d, ?_, fun hline => ?_⟩
  · intro hintact
    have hpointer : WritePointer.closed = d.path.pointer :=
      congrArg (fun e : Device => e.path.pointer) hintact
    rw [← hpointer]
    rfl
  · have hpointer : d.path.pointer = .closed := hd.sound.allocation.eq_closed (o := none) hline
    rw [surrendered, hline, closed, setPath, ← hpointer]

/-- Two lines are too few for four units, but the plain path has just completed its line, so there
is nothing for it to lose. -/
theorem refused_enable_of_idle_path :
    ∃ fresh, build ⟨4, 2, 2, 1, by decide⟩ {} (.steady 0 1) = .ok fresh ∧
      let d := fresh.run ([.write (.plain 0 7)] : List (Request Host.Window))
      Reachable Host.Window d ∧ d.enabled = false ∧
        d.enable.result = .error (.distributionFailed 1) ∧ d.enable.state = d.tick := by
  have hbuild : build ⟨4, 2, 2, 1, by decide⟩ {} (.steady 0 1) = .ok _ := rfl
  refine ⟨_, hbuild, ?_⟩
  intro d
  have hreach : Reachable Host.Window d := ⟨_, _, _, _, hbuild, _, rfl⟩
  have hoff : d.enabled = false := rfl
  have hrefused : d.enable.result = .error (.distributionFailed 1) := by decide +kernel
  have hline : d.path.pointer.line = none := by decide +kernel
  obtain ⟨-, -, hintact⟩ := refused_enable hreach hoff hrefused
  exact ⟨hreach, hoff, hrefused, hintact.2 hline⟩

/-- The same two lines, of which the plain path has written half of the first. The refusal makes
that line full and leaves the path without it. -/
theorem line_lost_to_refused_enable :
    ∃ fresh, build ⟨4096, 2, 2, 4096, by decide⟩ {} (.steady 0 1) = .ok fresh ∧
      let d := fresh.run ([.write (.plain 0 0)] : List (Request Host.Window))
      Reachable Host.Window d ∧ d.enabled = false ∧
        d.enable.result = .error (.distributionFailed 1) ∧
        d.path.pointer = ⟨some 0, 1⟩ ∧ d.enable.state.path.pointer = .closed ∧
        d.pool.lines[0]? = some ⟨none, .active, 0, 1, 0⟩ ∧
        d.enable.state.pool.lines[0]? = some ⟨none, .full, 0, 1, 1⟩ ∧
        d.path.availablePages d.pool = 3 ∧
        d.enable.state.path.availablePages d.enable.state.pool = 2 := by
  have hbuild : build ⟨4096, 2, 2, 4096, by decide⟩ {} (.steady 0 1) = .ok _ := rfl
  refine ⟨_, hbuild, ?_⟩
  intro d
  have hreach : Reachable Host.Window d := ⟨_, _, _, _, hbuild, _, rfl⟩
  exact ⟨hreach, rfl, by decide +kernel⟩

end DataPlacement.Device
