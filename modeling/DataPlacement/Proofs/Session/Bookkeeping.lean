import DataPlacement.Proofs.Device.PassErasures
import DataPlacement.Proofs.Session.Failures

namespace DataPlacement

namespace Device

variable {d : Device}

/-- Only the toggle for it resets the accounting. -/
theorem accounting_toggle (hd : d.Sound) {code : Nat}
    (h : code ≠ Toggle.resetAccounting.code) : (d.toggle code).state.accounting = d.accounting := by
  unfold toggle
  split
  · rfl
  · next t ht =>
    cases t with
    | resetAccounting => exact absurd (Toggle.code_of_ofCode? ht).symm h
    | startTrace | stopTrace => rfl
    | enablePlacement => exact accounting_enable hd
    | disablePlacement => exact accounting_disable d

/-! ### Writes in a row -/

/-- How many lines the passes of writes erase, one write after the other. -/
def erasedByPasses (d : Device) : List WriteCommand → Nat
  | [] => 0
  | w :: ws => d.erasedByPass w + (d.write w).state.erasedByPasses ws

theorem lines_writeAll (hd : d.Sound) (ws : List WriteCommand) :
    (d.writeAll ws).collector.tally.lines = d.collector.tally.lines + d.erasedByPasses ws := by
  induction ws generalizing d with
  | nil => rfl
  | cons w ws ih =>
    have hlater := ih ((advances_any_write hd w).sound hd)
    rw [lines_write hd, Nat.add_assoc] at hlater
    exact hlater

/-- The accounting counts a write as refused if it was, and never as a read. -/
theorem refused_and_reads_write (hd : d.Sound) (hc : d.collector.policy.Reorders)
    (w : WriteCommand) :
    (d.write w).state.accounting.refused =
        d.accounting.refused + (if (d.write w).result.isOk then 0 else 1) ∧
      (d.write w).state.accounting.reads = d.accounting.reads := by
  have hcommands := accounting_write hd hc w
  have hrefused := congrArg Accounting.refused hcommands
  have hreads := congrArg Accounting.reads hcommands
  simp only [Accounting.commands] at hrefused hreads
  rw [hrefused, hreads, entryOf]
  cases (d.write w).result with
  | ok report => exact ⟨rfl, rfl⟩
  | error cause => exact ⟨rfl, rfl⟩

theorem refused_and_reads_writeAll (hd : d.Sound) (hc : d.collector.policy.Reorders)
    (ws : List WriteCommand) :
    (d.writeAll ws).accounting.refused =
        d.accounting.refused + (d.answers ws).countP (!·.isOk) ∧
      (d.writeAll ws).accounting.reads = d.accounting.reads := by
  induction ws generalizing d with
  | nil => exact ⟨rfl, rfl⟩
  | cons w ws ih =>
    have hwrite := advances_any_write hd w
    obtain ⟨hfirst, hreads⟩ := refused_and_reads_write hd hc w
    obtain ⟨hlater, hlaterReads⟩ := ih (hwrite.sound hd) (hwrite.policy ▸ hc)
    refine ⟨hlater.trans ?_, hlaterReads.trans hreads⟩
    rw [hfirst, answers, List.countP_cons, Nat.add_assoc, Nat.add_comm (ite _ _ _)]
    cases (d.write w).result <;> rfl

end Device

namespace Session

open Scenario (Failure Step)

variable {g : Geometry} {s t : Session} {step : Step} {n : Nat}

/-- The step does not reset the accounting, neither by itself nor by a toggle. -/
def KeepsAccounting (step : Step) : Prop :=
  step ≠ .resetAccounting ∧ step ≠ .toggle Toggle.resetAccounting.code

instance : DecidablePred KeepsAccounting := fun step =>
  inferInstanceAs (Decidable (step ≠ .resetAccounting ∧ step ≠ .toggle Toggle.resetAccounting.code))

/-- How many lines the passes of a step's writes erase. -/
def erasedInWrites (s : Session) : Step → Nat
  | .write group handle size count block =>
    match blocksOf s.device.geometry size with
    | .error _ => 0
    | .ok _ => s.device.erasedByPasses (commandsOf s.device group handle size count block)
  | _ => 0

/-- The counts of the session are those of its device. The passes of writes, which erased this many
lines, are counted by the device alone. -/
structure Balanced (s : Session) (erased : Nat) : Prop where
  commands : s.tally.commands =
    s.device.accounting.writes + s.device.accounting.refused + s.device.accounting.reads
  refused : s.tally.refused = s.device.accounting.refused
  lines : s.device.collector.tally.lines = s.tally.reclaimed + erased

/-! ### Steps -/

theorem Balanced.of_same (h : s.Balanced n) (htally : t.tally = s.tally)
    (haccounting : t.device.accounting = s.device.accounting)
    (hcollector : t.device.collector = s.device.collector) : t.Balanced n := by
  obtain ⟨hcommands, hrefused, hlines⟩ := h
  rw [← htally, ← haccounting] at hcommands hrefused
  rw [← htally, ← hcollector] at hlines
  exact ⟨hcommands, hrefused, hlines⟩

theorem Balanced.addStep (h : s.Balanced n) : s.addStep.Balanced n :=
  ⟨h.commands, h.refused, h.lines⟩

theorem Balanced.write (h : s.Balanced n) (hs : s.device.Driven g)
    (group : Nat) (handle : Option Nat) (size count block : Nat) :
    (s.perform (.write group handle size count block)).session.Balanced
      (n + s.erasedInWrites (.write group handle size count block)) := by
  rw [erasedInWrites]
  cases hblocks : blocksOf s.device.geometry size with
  | error cause =>
    have hfailed : (s.write group handle size count block).session = s := by
      simp only [Session.write, hblocks]
      rfl
    rw [perform, hfailed]
    exact h
  | ok blocks =>
    obtain ⟨-, hsession⟩ := write_of_blocks s hblocks group handle count block
    have hcount := length_commandsOf s.device group handle size count block
    rw [perform, hsession]
    dsimp only
    generalize commandsOf s.device group handle size count block = sent at hcount ⊢
    have hwrites := Device.accountedWrites_writeAll hs.sound hs.reorders sent
    have hlines := Device.lines_writeAll hs.sound sent
    obtain ⟨hrefused, hreads⟩ := Device.refused_and_reads_writeAll hs.sound hs.reorders sent
    rw [hcount, Device.accountedWrites, Device.accountedWrites] at hwrites
    constructor
    · have hbefore := h.commands
      simp only [setDevice, addCommands]
      omega
    · exact (congrArg (· + _) h.refused).trans hrefused.symm
    · exact hlines.trans ((congrArg (· + _) h.lines).trans (Nat.add_assoc _ _ _))

theorem Balanced.read (h : s.Balanced n) (size : Nat) : (s.read size).session.Balanced n := by
  unfold Session.read
  cases blocksOf s.device.geometry size with
  | error cause => exact h
  | ok blocks =>
    refine ⟨?_, h.refused, h.lines⟩
    exact congrArg (· + 1) h.commands

theorem tally_ofOutcome {α : Type} (s : Session) (o : Outcome Device α)
    {next : α → Session → Progress} (hnext : ∀ value t, (next value t).session.tally = t.tally) :
    (s.ofOutcome o next).session.tally = s.tally := by
  unfold ofOutcome
  dsimp only
  split
  · rfl
  · exact hnext _ _

/-- A collection adds the lines that it answers with on both sides. -/
theorem Balanced.collect {α : Type} {o : Outcome Device α} {value : α} (h : s.Balanced n)
    (hresult : o.result = .ok value) {lines : Nat}
    (haccounting : o.state.accounting = s.device.accounting)
    (hlines : o.state.collector.tally.lines = s.device.collector.tally.lines + lines)
    {next : α → Session → Progress}
    (hnext : ∀ t, (next value t).session = t.addReclaimed lines) :
    (s.ofOutcome o next).session.Balanced n := by
  have hsession : (s.ofOutcome o next).session = (s.setDevice o.state).addReclaimed lines := by
    simp only [ofOutcome, hresult]
    exact hnext _
  obtain ⟨hcommands, hrefused, hcollected⟩ := h
  rw [← haccounting] at hcommands hrefused
  rw [hsession]
  refine ⟨hcommands, hrefused, ?_⟩
  change o.state.collector.tally.lines = s.tally.reclaimed + lines + n
  omega

theorem Balanced.toggle (h : s.Balanced n) (hs : s.device.Driven g) {code : Nat}
    (hcode : code ≠ Toggle.resetAccounting.code) : (s.toggle code).session.Balanced n := by
  have hsession : (s.toggle code).session = s.setDevice (s.device.toggle code).state := by
    unfold Session.toggle
    dsimp only
    split <;> rfl
  rw [hsession]
  exact h.of_same rfl (Device.accounting_toggle hs.sound hcode) (Device.collector_toggle _ code)

theorem Balanced.enable (h : s.Balanced n) (hs : s.device.Driven g) :
    s.enable.session.Balanced n := by
  have hdevice : s.enable.session.device = s.device.enable.state := device_perform s .enable
  refine h.of_same (tally_ofOutcome s _ fun _ _ => rfl) ?_ ?_
  · rw [hdevice]
    exact Device.accounting_enable hs.sound
  · rw [hdevice]
    exact Device.collector_enable _

theorem Balanced.disable (h : s.Balanced n) : s.disable.session.Balanced n := by
  have hdevice : s.disable.session.device = s.device.disable.state := device_perform s .disable
  refine h.of_same (tally_ofOutcome s _ fun _ _ => rfl) ?_ ?_
  · rw [hdevice]
    exact Device.accounting_disable _
  · rw [hdevice]
    exact (Device.path_and_collector_disable _).2

theorem session_check (s : Session) : s.check.session = s := by
  unfold check
  dsimp only
  split <;> rfl

/-- A step adds the same to both books. -/
theorem balanced_perform (hs : s.device.Driven g) (h : s.Balanced n)
    (hstep : KeepsAccounting step) :
    (s.perform step).session.Balanced (n + s.erasedInWrites step) := by
  cases step with
  | write group handle size count block => exact h.write hs group handle size count block
  | read block size => exact h.read size
  | enable => exact h.enable hs
  | disable => exact h.disable
  | gc budget =>
    obtain ⟨erased, hresult⟩ := Device.accepted_gc hs.sound hs.reorders budget
    exact h.collect hresult (Device.accounting_collect _ _ _) (Device.lines_collect hresult)
      fun _ => rfl
  | reclaim u =>
    obtain ⟨erased, hresult⟩ := Device.accepted_collect hs.sound hs.reorders none
      fun candidate => candidate.line.isOwnedBy u
    have hlength : (s.device.reclaimUnit u).result = .ok erased.length :=
      congrArg (Except.map List.length) hresult
    exact h.collect hlength (Device.accounting_collect _ _ _) (Device.lines_collect hresult)
      fun _ => rfl
  | toggle code =>
    refine h.toggle hs fun hcode => hstep.2 ?_
    rw [hcode]
  | resetAccounting => exact absurd rfl hstep.1
  | check =>
    rw [perform, session_check]
    exact h
  | report => exact h

/-- Only a session that goes on to the next step counts the one before. -/
theorem steps_perform (s : Session) (step : Step) :
    (s.perform step).session.tally.steps = s.tally.steps := by
  cases step with
  | write group handle size count block =>
    simp only [perform, Session.write]
    split <;> rfl
  | read block size =>
    simp only [perform, Session.read]
    split <;> rfl
  | enable | disable => exact congrArg Tally.steps (tally_ofOutcome s _ fun _ _ => rfl)
  | gc | reclaim =>
    simp only [perform, gc, reclaim, ofOutcome]
    split <;> rfl
  | toggle code =>
    simp only [perform, Session.toggle]
    split <;> rfl
  | check => rw [perform, session_check]
  | resetAccounting | report => rfl

/-! ### Runs -/

/-- The steps that a run takes up, each with the session before it. The last one may have failed. -/
def attempts (s : Session) : List Step → List (Session × Step)
  | [] => []
  | step :: rest =>
    (s, step) ::
      match (s.perform step).result with
      | .error _ => []
      | .ok _ => (s.perform step).session.addStep.attempts rest

/-- The session after runs, one after the other, whether they fail or not. -/
def runs (s : Session) (calls : List (List Step)) : Session :=
  calls.foldl (fun s steps => (s.run steps).session) s

/-- The steps that runs take up, one run after the other. -/
def taken (s : Session) : List (List Step) → List (Session × Step)
  | [] => []
  | steps :: calls => s.attempts steps ++ (s.run steps).session.taken calls

/-- How many steps were completed among those taken up. -/
def completed (log : List (Session × Step)) : Nat :=
  log.countP fun (s, step) => (s.perform step).result.isOk

/-- A run that ends well completes all its steps, and one that fails those before the step that it
names. -/
theorem completed_attempts (s : Session) (index : Nat) (steps : List Step) :
    (s.runFrom index steps).result = .ok () ∧ completed (s.attempts steps) = steps.length ∨
      ∃ step cause, steps[completed (s.attempts steps)]? = some step ∧
        (s.runFrom index steps).result =
          .error (.inStep (index + completed (s.attempts steps)) step.name cause) := by
  induction steps generalizing s index with
  | nil => exact .inl ⟨rfl, rfl⟩
  | cons step rest ih =>
    cases hresult : (s.perform step).result with
    | error cause =>
      have hnone : completed (s.attempts (step :: rest)) = 0 := by
        simp [completed, attempts, hresult, Except.isOk, Except.toBool]
      rw [hnone]
      exact .inr ⟨step, cause, rfl, runFrom_cons_of_error index rest hresult⟩
    | ok value =>
      have hmore : completed (s.attempts (step :: rest)) =
          completed ((s.perform step).session.addStep.attempts rest) + 1 := by
        simp [completed, attempts, hresult, Except.isOk, Except.toBool]
      rw [hmore, (runFrom_cons_of_ok index rest hresult).1]
      obtain ⟨hrest, hall⟩ | ⟨failed, cause, hfailed, hrest⟩ :=
        ih (s.perform step).session.addStep (index + 1)
      · exact .inl ⟨hrest, by rw [hall, List.length_cons]⟩
      · refine .inr ⟨failed, cause, hfailed, ?_⟩
        rw [hrest, Nat.add_right_comm, Nat.add_assoc]

/-- What a session has counted is what its device has counted and what its runs made of the steps
that they took up. -/
structure Agrees (s : Session) (log : List (Session × Step)) : Prop extends
    s.Balanced (log.map fun (s, step) => s.erasedInWrites step).sum where
  steps : s.tally.steps = completed log

theorem Agrees.fail {log : List (Session × Step)} {cause : Failure} (h : s.Agrees log)
    (hs : s.device.Driven g) (hstep : KeepsAccounting step)
    (hresult : (s.perform step).result = .error cause) :
    (s.perform step).session.Agrees (log ++ [(s, step)]) where
  toBalanced := by
    simpa using balanced_perform hs h.toBalanced hstep
  steps := by
    rw [steps_perform, h.steps]
    simp [completed, hresult, Except.isOk, Except.toBool]

theorem Agrees.complete {log : List (Session × Step)} (h : s.Agrees log)
    (hs : s.device.Driven g) (hstep : KeepsAccounting step)
    (hresult : (s.perform step).result = .ok ()) :
    (s.perform step).session.addStep.Agrees (log ++ [(s, step)]) where
  toBalanced := by
    simpa using (balanced_perform hs h.toBalanced hstep).addStep
  steps := by
    change (s.perform step).session.tally.steps + 1 = _
    rw [steps_perform, h.steps]
    simp [completed, hresult, Except.isOk, Except.toBool]

theorem Agrees.runFrom {log : List (Session × Step)} (h : s.Agrees log) (hs : s.device.Driven g)
    (index : Nat) {steps : List Step} (hsteps : ∀ step ∈ steps, KeepsAccounting step) :
    (s.runFrom index steps).session.Agrees (log ++ s.attempts steps) := by
  induction steps generalizing s log index with
  | nil =>
    rw [attempts, List.append_nil]
    exact h
  | cons step rest ih =>
    obtain ⟨hstep, hrest⟩ := List.forall_mem_cons.1 hsteps
    cases hresult : (s.perform step).result with
    | error cause =>
      have hsession : (s.runFrom index (step :: rest)).session = (s.perform step).session := by
        rw [Session.runFrom, hresult]
        rfl
      rw [hsession, attempts, hresult]
      exact h.fail hs hstep hresult
    | ok value =>
      rw [(runFrom_cons_of_ok index rest hresult).2, attempts, hresult, List.append_cons]
      exact ih (h.complete hs hstep hresult) (driven_perform hs step) (index + 1) hrest

theorem Agrees.runs {log : List (Session × Step)} (h : s.Agrees log) (hs : s.device.Driven g)
    {calls : List (List Step)} (hcalls : ∀ steps ∈ calls, ∀ step ∈ steps, KeepsAccounting step) :
    (s.runs calls).Agrees (log ++ s.taken calls) := by
  induction calls generalizing s log with
  | nil =>
    rw [taken, List.append_nil]
    exact h
  | cons steps calls ih =>
    obtain ⟨hsteps, hlater⟩ := List.forall_mem_cons.1 hcalls
    rw [taken, ← List.append_assoc]
    exact ih (h.runFrom hs 0 hsteps) (driven_runFrom hs 0 steps) hlater

/-! ### Sessions -/

theorem balanced_traced {g : Geometry} {params : Parameters} {clock : Clock} {fresh : Device}
    (hbuild : Device.build g params clock = .ok fresh) (scenario : Scenario) :
    (traced scenario fresh).Balanced 0 := by
  obtain ⟨c, -, rfl⟩ := Device.exists_of_build hbuild
  unfold traced
  split <;> exact ⟨rfl, rfl, rfl⟩

/-- A session begins with nothing counted. -/
theorem agrees_start {scenario : Scenario} {clock : Clock}
    (hstart : (start scenario clock).result = .ok s) : s.Agrees [] := by
  obtain ⟨g, fresh, -, -, hbuild, hs⟩ := exists_of_start hstart
  have htraced := balanced_traced hbuild scenario
  obtain rfl | rfl := hs
  · exact ⟨htraced, rfl⟩
  · exact ⟨htraced.enable (driven_traced (.of_build hbuild) scenario),
      steps_perform (traced scenario fresh) .enable⟩

/-- The statistics of a session agree with its device, however often it is run and wherever the runs
stop, as long as nothing resets the accounting. The commands are the writes and reads that the
device has accounted for, accepted or refused, and as many are refused here and there. The steps are
those that were completed. The collector has erased what the steps report, and what the passes of
writes erased. -/
theorem statistics_agree {scenario : Scenario} {clock : Clock}
    (hstart : (start scenario clock).result = .ok s) {calls : List (List Step)}
    (hcalls : ∀ steps ∈ calls, ∀ step ∈ steps, KeepsAccounting step) :
    (s.runs calls).Agrees (s.taken calls) := by
  obtain ⟨g, -, -, hs⟩ := driven_start hstart
  exact (agrees_start hstart).runs hs hcalls

/-- Two units with two lines each. -/
def twoUnits : Scenario where
  device := ⟨4, 8, 4, 1⟩
  placement := { handles := 2, enabled := false }

/-- A run that stops at a toggle of an unknown code, and one with writes that are refused. -/
def twoRuns : List (List Step) :=
  [[.enable, .write 0 (some 0) 8 3 0, .read 0 4, .toggle 99, .report],
    [.write 0 (some 1) 4 2 0, .write 0 (some 1) 12 2 0, .write 0 (some 1) 24 2 0, .gc (some 1),
      .reclaim 1, .check]]

/-- Of the seven lines that were erased, the writes of two steps erased two each. -/
theorem statistics_agree_of_interrupted_run :
    ∃ s, (start twoUnits (.steady 0 1)).result = .ok s ∧
      (∀ steps ∈ twoRuns, ∀ step ∈ steps, KeepsAccounting step) ∧
      (s.runs twoRuns).tally = ⟨9, 10, 2, 3⟩ ∧
      (s.runs twoRuns).device.collector.tally.lines = 7 ∧
      (s.taken twoRuns).map (fun (s, step) => s.erasedInWrites step) =
        [0, 2, 0, 0, 0, 2, 0, 0, 0, 0] ∧
      (s.runs twoRuns).Agrees (s.taken twoRuns) := by
  have hstart : (start twoUnits (.steady 0 1)).result = .ok _ := rfl
  have hkept : ∀ steps ∈ twoRuns, ∀ step ∈ steps, KeepsAccounting step := by decide
  refine ⟨_, hstart, hkept, ?_, ?_, ?_, statistics_agree hstart hkept⟩
  · decide +kernel
  · decide +kernel
  · decide +kernel

end Session

end DataPlacement
