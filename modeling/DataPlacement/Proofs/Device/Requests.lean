import DataPlacement.Device.Queues
import DataPlacement.Proofs.Device.Switching
import DataPlacement.Proofs.Device.Writes

namespace DataPlacement.Device

/-- What a device can be asked to do that may change it. Commands from the queues come with the
memory of their host. -/
inductive Request (μ : Type) where
  | toggle (code : Nat)
  | apply (t : Toggle)
  | enable
  | disable
  | write (w : WriteCommand)
  | submitWrite (block dword12 dword13 : Nat)
  | read (blocks : Nat)
  | gc (budget : Option Nat)
  | reclaimUnit (u : UnitId)
  | submitAdministrative (memory : μ) (opcode dword10 dword11 : Nat)
  | submitIo (memory : μ) (opcode dword10 dword11 dword12 dword13 : Nat)
  | install (collector : Collector)

variable {μ : Type} [Host.Memory μ]

/-- The write command in a request. -/
def Request.write? : Request μ → Option WriteCommand
  | .write w => some w
  | .submitWrite block dword12 dword13 => some (.ofDwords block dword12 dword13)
  | .submitIo _ 0x01 dword10 dword11 dword12 dword13 =>
    some (.ofDwords (dword10 + dword11 * bitRange 32) dword12 dword13)
  | _ => none

/-- The device after a request, and its notices. -/
def perform (d : Device) : Request μ → Device × List Notice
  | .toggle code => ((d.toggle code).state, (d.toggle code).notices)
  | .apply t => ((d.apply t).state, (d.apply t).notices)
  | .enable => (d.enable.state, d.enable.notices)
  | .disable => (d.disable.state, d.disable.notices)
  | .write w => ((d.write w).state, (d.write w).notices)
  | .submitWrite block dword12 dword13 => (d.submitWrite block dword12 dword13).2
  | .read blocks => (d.read blocks).2
  | .gc budget => ((d.gc budget).state, (d.gc budget).notices)
  | .reclaimUnit u => ((d.reclaimUnit u).state, (d.reclaimUnit u).notices)
  | .submitAdministrative memory opcode dword10 dword11 =>
    let s := d.submitAdministrative memory opcode dword10 dword11
    (s.device, s.notices)
  | .submitIo memory opcode dword10 dword11 dword12 dword13 =>
    let s := d.submitIo memory opcode dword10 dword11 dword12 dword13
    (s.device, s.notices)
  | .install collector => (d.install collector, [])

/-- The device after a request. -/
def after (d : Device) (r : Request μ) : Device := (d.perform r).1

/-- The device after a run of requests. -/
def run (d : Device) (rs : List (Request μ)) : Device := rs.foldl after d

/-- The report of the write in a request, if the write was accepted. -/
def report? (d : Device) (r : Request μ) : Option WriteReport :=
  r.write?.bind fun w => (d.write w).result.toOption

/-- What a request does to lines: the erasures that it makes, then its writes. -/
def lineEvents (d : Device) (r : Request μ) : List LineEvent :=
  erasures (d.perform r).2 ++ ((d.report? r).map (·.events)).getD []

/-- A device that a run of requests leads to. -/
def Reachable (μ : Type) [Host.Memory μ] (d : Device) : Prop :=
  ∃ g params clock fresh, build g params clock = .ok fresh ∧ ∃ rs : List (Request μ), d = fresh.run rs

variable {d : Device}

/-- What a request comes down to; the collectors in `P` are those that it may install. -/
inductive Effect (P : Collector → Prop) (d : Device) (es : List LineEvent) : Device → Prop where
  | advances {d' : Device} (h : Advances (fun _ => True) d es d') : Effect P d es d'
  | enables (hes : es = []) : Effect P d es d.enable.state
  | disables (hes : es = []) : Effect P d es d.disable.state
  | installs (collector : Collector) (hp : P collector) (hes : es = []) :
      Effect P d es (d.install collector)

variable {P : Collector → Prop}

theorem lineEvents_eq (w : WriteCommand) :
    erasures (d.write w).notices ++ (((d.write w).result.toOption).map (·.events)).getD [] =
      (d.write w).lineEvents := by
  unfold Outcome.lineEvents
  cases (d.write w).result <;> rfl

theorem effect_write (hd : d.Sound) (w : WriteCommand) :
    Effect P d
      (erasures (d.write w).notices ++ (((d.write w).result.toOption).map (·.events)).getD [])
      (d.write w).state := by
  rw [lineEvents_eq]
  exact .advances (advances_any_write hd w)

/-- No toggle erases a line. -/
theorem erasures_apply (hd : d.Sound) (t : Toggle) : erasures (d.apply t).notices = [] := by
  cases t with
  | resetAccounting | startTrace | stopTrace => rfl
  | enablePlacement =>
    cases enableEnd hd with
    | already hon henable =>
      simp only [apply, henable]
      rfl
    | refused hoff cause after notices henable hchanges hafter hquiet =>
      simp only [apply, henable]
      exact hquiet
    | dealt hoff dist after notices henable hchanges hafter hquiet hshares =>
      simp only [apply, henable]
      exact hquiet
  | disablePlacement => exact (changes_disable hd).2.2

theorem erasures_toggle (hd : d.Sound) (code : Nat) : erasures (d.toggle code).notices = [] := by
  unfold toggle
  split
  · rfl
  · exact erasures_apply hd _

theorem effect_apply (hd : d.Sound) (t : Toggle) :
    Effect P d (erasures (d.apply t).notices) (d.apply t).state := by
  cases t with
  | resetAccounting => exact .advances (.recount d {} d.tracing d.clock)
  | startTrace => exact .advances (.recount d d.accounting true d.clock)
  | stopTrace => exact .advances (.recount d d.accounting false d.clock)
  | enablePlacement => exact .enables (erasures_apply hd .enablePlacement)
  | disablePlacement => exact .disables (erasures_apply hd .disablePlacement)

theorem effect_toggle (hd : d.Sound) (code : Nat) :
    Effect P d (erasures (d.toggle code).notices) (d.toggle code).state := by
  unfold toggle
  split
  · exact .advances (.refl d)
  · exact effect_apply hd _

theorem erasures_read (d : Device) (blocks : Nat) : erasures (d.read blocks).2.2 = [] :=
  erasures_ite (n := .read blocks) rfl d.tracing

theorem effect_read (blocks : Nat) :
    Effect P d (erasures (d.read blocks).2.2) (d.read blocks).2.1 := by
  rw [erasures_read]
  exact .advances (.recount d _ d.tracing d.clock)

theorem erasures_readLog (m : μ) (r : LogRequest) : erasures (d.readLog m r).notices = [] := by
  unfold readLog
  cases r.page? with
  | none => rfl
  | some page =>
    cases d.enabled with
    | false => rfl
    | true => exact erasures_ite (n := .logServed page.text r.length _) rfl d.tracing

theorem lineEvents_of_no_write {r : Request μ} (hnone : r.write? = none) :
    d.lineEvents r = erasures (d.perform r).2 := by
  simp [lineEvents, report?, hnone]

/-- Every request comes down to one of four effects. -/
theorem effect_after (hd : d.Sound) (r : Request μ) :
    Effect (fun collector => r = .install collector) d (d.lineEvents r) (d.after r) := by
  cases r with
  | toggle code =>
    rw [lineEvents_of_no_write rfl]
    exact effect_toggle hd code
  | apply t =>
    rw [lineEvents_of_no_write rfl]
    exact effect_apply hd t
  | enable =>
    rw [lineEvents_of_no_write rfl]
    exact effect_apply hd .enablePlacement
  | disable =>
    rw [lineEvents_of_no_write rfl]
    exact effect_apply hd .disablePlacement
  | write w => exact effect_write hd w
  | submitWrite block dword12 dword13 => exact effect_write hd _
  | read blocks =>
    rw [lineEvents_of_no_write rfl]
    exact effect_read blocks
  | gc budget =>
    rw [lineEvents_of_no_write rfl]
    exact .advances (advances_collect budget hd fun _ _ _ _ => trivial)
  | reclaimUnit u =>
    rw [lineEvents_of_no_write rfl]
    exact .advances (advances_any_reclaimUnit hd u)
  | submitAdministrative memory opcode dword10 dword11 =>
    rw [lineEvents_of_no_write rfl]
    simp only [after, perform, submitAdministrative]
    split
    · rw [getLog, erasures_readLog]
      exact .advances (.refl d)
    · exact effect_toggle hd dword10
    · exact .advances (.refl d)
  | submitIo memory opcode dword10 dword11 dword12 dword13 =>
    by_cases hwrite : opcode = 0x01
    · subst hwrite
      exact effect_write hd _
    · have hnone :
          (Request.submitIo memory opcode dword10 dword11 dword12 dword13).write? = none := by
        simp [Request.write?, hwrite]
      rw [lineEvents_of_no_write hnone]
      simp only [after, perform, submitIo]
      split
      · exact absurd rfl hwrite
      · exact effect_read _
      · exact .advances (.refl d)
      · exact .advances (.refl d)
      · exact .advances (.refl d)
  | install collector =>
    rw [lineEvents_of_no_write rfl]
    exact .installs collector rfl rfl

end DataPlacement.Device
