import DataPlacement.Proofs.Audit.Consistency
import DataPlacement.Proofs.Session.Writing

namespace DataPlacement

/-- Requests led to the device, which is of the geometry, and the journal is theirs. None of them
installs a policy that does more than reorder. -/
def Device.Led (g : Geometry) (d : Device) (j : List Entry) : Prop :=
  ∃ params clock fresh, build g params clock = .ok fresh ∧
    ∃ rs : List (Request Host.Window), (∀ r ∈ rs, r.Orderly ∧ r.Sized) ∧
      d = fresh.run rs ∧ j = fresh.journal rs

/-- Some requests led to the device. -/
def Device.Driven (g : Geometry) (d : Device) : Prop := ∃ j, d.Led g j

namespace Device.Led

variable {g : Geometry} {d : Device} {j : List Entry}

theorem of_build {params : Parameters} {clock : Clock} (h : build g params clock = .ok d) :
    d.Led g [] :=
  ⟨params, clock, d, h, [], by simp, rfl, rfl⟩

theorem run (h : d.Led g j) {rs : List (Request Host.Window)}
    (hrs : ∀ r ∈ rs, r.Orderly ∧ r.Sized) : (d.run rs).Led g (j ++ d.journal rs) := by
  obtain ⟨params, clock, fresh, hbuild, earlier, hearlier, rfl, rfl⟩ := h
  refine ⟨params, clock, fresh, hbuild, earlier ++ rs, fun r hr => ?_, (run_append _ _ _).symm,
    (journal_append _ _ _).symm⟩
  exact (List.mem_append.1 hr).elim (hearlier r) (hrs r)

theorem orderly (h : d.Led g j) : Orderly Host.Window d := by
  obtain ⟨params, clock, fresh, hbuild, rs, hrs, rfl, -⟩ := h
  exact ⟨g, params, clock, fresh, hbuild, rs, fun r hr => (hrs r hr).1, rfl⟩

theorem geometry (h : d.Led g j) : d.geometry = g := by
  obtain ⟨params, clock, fresh, hbuild, rs, -, rfl, -⟩ := h
  have hfresh := sound_build hbuild
  rw [(changes_run hfresh rs).geometry]
  obtain ⟨c, -, rfl⟩ := exists_of_build hbuild
  rfl

end Device.Led

namespace Device.Driven

variable {g : Geometry} {d : Device}

theorem of_build {params : Parameters} {clock : Clock} (h : build g params clock = .ok d) :
    d.Driven g :=
  ⟨[], .of_build h⟩

theorem run (hd : d.Driven g) {rs : List (Request Host.Window)}
    (hrs : ∀ r ∈ rs, r.Orderly ∧ r.Sized) : (d.run rs).Driven g :=
  have ⟨_, hled⟩ := hd
  ⟨_, hled.run hrs⟩

theorem orderly (hd : d.Driven g) : Orderly Host.Window d :=
  have ⟨_, hled⟩ := hd
  hled.orderly

theorem sound (hd : d.Driven g) : d.Sound := hd.orderly.sound

theorem reorders (hd : d.Driven g) : d.collector.policy.Reorders := hd.orderly.reorders

theorem geometry (hd : d.Driven g) : d.geometry = g :=
  have ⟨_, hled⟩ := hd
  hled.geometry

end Device.Driven

namespace Session

open Scenario (Failure Step)
open Device (Request)

variable {g : Geometry}

/-! ### Requests of steps -/

theorem orderly_and_sized (r : Request Host.Window)
    (hinstall : ∀ collector, r ≠ .install collector) (hwrite : ∀ w, r ≠ .write w) :
    r.Orderly ∧ r.Sized :=
  ⟨fun collector h => absurd h (hinstall collector), fun w h => absurd h (hwrite w)⟩

/-- What goes on after an operation leaves the device to it. -/
theorem device_ofOutcome {α : Type} (s : Session) (o : Outcome Device α)
    {next : α → Session → Progress} (hnext : ∀ value t, (next value t).session.device = t.device) :
    (s.ofOutcome o next).session.device = o.state := by
  unfold ofOutcome
  dsimp only
  split
  · rfl
  · exact hnext _ _

/-- The requests that a step makes. -/
def requests (d : Device) : Step → List (Request Host.Window)
  | .write group handle size count block =>
    match blocksOf d.geometry size with
    | .error _ => []
    | .ok blocks =>
      (repeated (writeCommand d.configuration.groupBits group handle block blocks) count).map
        fun w => .submitWrite w.block w.dwords.1 w.dwords.2
  | .read _ size =>
    match blocksOf d.geometry size with
    | .error _ => []
    | .ok blocks => [.read blocks]
  | .enable => [.enable]
  | .disable => [.disable]
  | .gc budget => [.gc budget]
  | .reclaim u => [.reclaimUnit u]
  | .toggle code => [.toggle code]
  | .resetAccounting => [.apply .resetAccounting]
  | .check => []
  | .report => []

/-- No step installs a policy or goes round the dwords of a write. -/
theorem orderly_requests (d : Device) (step : Step) :
    ∀ r ∈ requests d step, r.Orderly ∧ r.Sized := by
  intro r hr
  cases step with
  | write group handle size count block =>
    simp only [requests] at hr
    split at hr
    · cases hr
    · obtain ⟨w, -, rfl⟩ := List.mem_map.1 hr
      exact orderly_and_sized _ (by simp) (by simp)
  | read block size =>
    simp only [requests] at hr
    split at hr
    · cases hr
    · obtain rfl := List.mem_singleton.1 hr
      exact orderly_and_sized _ (by simp) (by simp)
  | enable | disable | gc | reclaim | toggle | resetAccounting =>
    obtain rfl := List.mem_singleton.1 hr
    exact orderly_and_sized _ (by simp) (by simp)
  | check | report => cases hr

theorem writeAll_map (d : Device) (ws : List WriteCommand) :
    d.writeAll (ws.map WriteCommand.received) = d.run (ws.map fun w =>
      (.submitWrite w.block w.dwords.1 w.dwords.2 : Request Host.Window)) := by
  rw [Device.writeAll, Device.run, List.foldl_map, List.foldl_map]
  rfl

/-- The device after a step is the one that the requests of the step lead to. -/
theorem device_perform (s : Session) (step : Step) :
    (s.perform step).session.device = s.device.run (requests s.device step) := by
  cases step with
  | write group handle size count block =>
    cases hblocks : blocksOf s.device.geometry size with
    | error cause =>
      simp only [perform, write, requests, hblocks]
      rfl
    | ok blocks =>
      obtain ⟨-, hsession⟩ := write_of_blocks s hblocks group handle count block
      obtain rfl := eq_of_blocksOf hblocks
      simp only [perform, requests, hblocks, hsession]
      exact writeAll_map _ _
  | read block size =>
    simp only [perform, read, requests]
    cases blocksOf s.device.geometry size <;> rfl
  | enable | disable | gc | reclaim => exact device_ofOutcome s _ fun _ _ => rfl
  | toggle code =>
    simp only [perform, toggle]
    cases (s.device.toggle code).result <;> rfl
  | check =>
    simp only [perform, check]
    split <;> rfl
  | resetAccounting | report => rfl

theorem driven_perform {s : Session} (hs : s.device.Driven g) (step : Step) :
    (s.perform step).session.device.Driven g := by
  rw [device_perform]
  exact hs.run (orderly_requests _ step)

theorem driven_runFrom {s : Session} (hs : s.device.Driven g) (index : Nat) (steps : List Step) :
    (s.runFrom index steps).session.device.Driven g := by
  induction steps generalizing s index with
  | nil => exact hs
  | cons step rest ih =>
    have hstep := driven_perform hs step
    rw [runFrom]
    split
    · exact hstep
    · exact ih (s := (s.perform step).session.addStep) hstep (index + 1)

theorem eq_ok_of_isOk {result : Except Failure Unit} (h : result.isOk) : result = .ok () := by
  cases result with
  | ok value => rfl
  | error cause => cases h

/-- The session on a new device, which traces if the scenario asks for it. -/
def traced (scenario : Scenario) (d : Device) : Session :=
  { device := if scenario.placement.trace then { d with tracing := true } else d }

theorem prepare_cases {scenario : Scenario} {d : Device} {s : Session}
    (h : (prepare scenario d).result = .ok s) :
    s = traced scenario d ∨ s = (traced scenario d).enable.session := by
  have htraced : (if scenario.placement.trace then d.apply .startTrace
      else (.done () d : Outcome Device Unit)).state = (traced scenario d).device := by
    unfold traced
    split <;> rfl
  have hfresh : ({ device := (traced scenario d).device } : Session) = traced scenario d := rfl
  unfold prepare at h
  dsimp only at h
  rw [htraced, hfresh] at h
  split at h
  · right
    cases hresult : (traced scenario d).enable.result with
    | error cause =>
      rw [hresult] at h
      cases h
    | ok value =>
      rw [hresult] at h
      exact (Except.ok.inj h).symm
  · exact .inl (Except.ok.inj h).symm

theorem driven_traced {d : Device} (hd : d.Driven g) (scenario : Scenario) :
    (traced scenario d).device.Driven g := by
  unfold traced
  split
  · have hrequest : ∀ r ∈ [(.apply .startTrace : Request Host.Window)], r.Orderly ∧ r.Sized := by
      intro r hr
      obtain rfl := List.mem_singleton.1 hr
      exact orderly_and_sized _ (by simp) (by simp)
    exact hd.run hrequest
  · exact hd

/-- A session begins for a valid scenario on a new device of the geometry that the scenario asks
for. -/
theorem exists_of_start {scenario : Scenario} {clock : Clock} {s : Session}
    (h : (start scenario clock).result = .ok s) :
    ∃ g fresh, scenario.geometry = .ok g ∧ scenario.validate.1 = .ok () ∧
      Device.build g scenario.parameters clock = .ok fresh ∧
      (s = traced scenario fresh ∨ s = (traced scenario fresh).enable.session) := by
  unfold start at h
  dsimp only at h
  split at h
  · cases h
  · cases h
  · next hvalid hg =>
    split at h
    · cases h
    · next hbuild => exact ⟨_, _, hg, hvalid, hbuild, prepare_cases h⟩

theorem driven_start {scenario : Scenario} {clock : Clock} {s : Session}
    (h : (start scenario clock).result = .ok s) :
    ∃ g, scenario.geometry = .ok g ∧ scenario.validate.1 = .ok () ∧ s.device.Driven g := by
  obtain ⟨g, fresh, hg, hvalid, hbuild, hs⟩ := exists_of_start h
  have htraced := driven_traced (.of_build hbuild) scenario
  refine ⟨g, hg, hvalid, ?_⟩
  obtain rfl | rfl := hs
  · exact htraced
  · exact driven_perform htraced .enable

/-- A session for a scenario that asks for placement begins with placement on. -/
theorem result_start_of_enabled {scenario : Scenario} {clock : Clock} {g : Geometry}
    {fresh : Device} (hvalid : scenario.validate.1 = .ok ()) (hg : scenario.geometry = .ok g)
    (hbuild : Device.build g scenario.parameters clock = .ok fresh)
    (hon : scenario.placement.enabled) (hsilent : scenario.placement.trace = false)
    (henable : ({ device := fresh } : Session).enable.result = .ok ()) :
    (start scenario clock).result = .ok ({ device := fresh } : Session).enable.session := by
  unfold start
  simp only [hvalid, hg, hbuild, prepare, hon, hsilent]
  simp [Outcome.done, henable, Except.map]

end Session

end DataPlacement
