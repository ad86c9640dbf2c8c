import DataPlacement.Proofs.Device.Requests
import DataPlacement.Proofs.Device.Serving

namespace DataPlacement

open Host

variable {μ ε ε' : Type} [Memory μ]

/-! ### What a meter counts -/

namespace Host

namespace TransferTally

/-- One more write of so many bytes. -/
def addWrite (t : TransferTally) (count : Nat) : TransferTally :=
  { t with
    writes := t.writes + 1
    writtenBytes := t.writtenBytes + count
    largestWrite := max t.largestWrite count }

/-- The tally after an attempt to move bytes. -/
def add (t : TransferTally) : Except ε Nat → TransferTally
  | .ok count => t.addWrite count
  | .error _ => t

@[simp] theorem add_mapError (t : TransferTally) (f : ε → ε') (result : Except ε Nat) :
    t.add (result.mapError f) = t.add result := by
  cases result <;> rfl

end TransferTally

namespace Metered

/-- A meter around the memory after an attempt to move bytes. -/
def count (m : Metered μ) (s : Except ε Nat × μ) : Except ε Nat × Metered μ :=
  (s.1, ⟨s.2, m.tally.add s.1⟩)

theorem writeAt_eq (m : Metered μ) (offset : Nat) (data : List UInt8) :
    Memory.writeAt m offset data =
      let s := Memory.writeAt m.memory offset data
      (s.1, ⟨s.2, m.tally.add (s.1.map fun _ => data.length)⟩) := by
  change m.writeAt offset data = _
  unfold writeAt
  split
  · next heq =>
    rw [heq]
    rfl
  · next heq =>
    rw [heq]
    rfl

/-- A transfer is one write, and none if the memory is too small for it. -/
theorem transfer_eq (m : Metered μ) (payload : List UInt8) (requested : Nat) :
    Memory.transfer m payload requested = m.count (Memory.transfer m.memory payload requested) := by
  have hlength : (payload.take (min payload.length requested)).length =
      min payload.length requested := by simp
  have hcapacity : Memory.capacity m = Memory.capacity m.memory := rfl
  unfold Memory.transfer
  simp only [hcapacity]
  split
  · rfl
  · rw [writeAt_eq, hlength]
    rfl

theorem serve_eq (m : Metered μ) (page : List UInt8) (minimum requested : Nat) :
    Page.serve m page minimum requested =
      m.count (Page.serve m.memory page minimum requested) := by
  unfold Page.serve
  split
  · rfl
  · simp only [transfer_eq, count, TransferTally.add_mapError]

end Metered

end Host

/-! ### Commands -/

namespace Device

variable (d : Device) (m : Metered μ)

theorem readLog_metered (r : LogRequest) :
    ((d.readLog m r).result, (d.readLog m r).memory) =
      m.count ((d.readLog m.memory r).result, (d.readLog m.memory r).memory) := by
  unfold readLog
  cases r.page? with
  | none => rfl
  | some name =>
    cases d.enabled with
    | false => rfl
    | true => exact m.serve_eq (d.logPage name) name.minimum r.length

theorem readUnitStatus_metered (r : ManagementRequest) :
    d.readUnitStatus m r = m.count (d.readUnitStatus m.memory r) := by
  unfold readUnitStatus
  split
  · rfl
  · split
    · rfl
    · exact m.serve_eq d.unitStatusPage Page.unitStatusHeader r.length

end Device

/-- A command for a page, by its dwords. -/
inductive PageCommand where
  | getLog (dword10 dword11 : Nat)
  | receiveManagement (dword10 dword11 : Nat)

namespace PageCommand

/-- How the command ends on a device, and the memory after it. -/
def perform (d : Device) (m : μ) : PageCommand → Completion × μ
  | getLog dword10 dword11 =>
    let s := d.getLog m dword10 dword11
    (s.result, s.memory)
  | receiveManagement dword10 dword11 => d.receiveManagement m dword10 dword11

end PageCommand

/-- The tally after a command with this completion. -/
def Host.TransferTally.record (t : TransferTally) (c : Completion) : TransferTally :=
  if c.isOk then t.addWrite c.transferred else t

theorem Host.TransferTally.record_ofResult (t : TransferTally) (result : Except Error Nat) :
    t.record (.ofResult result) = t.add result := by
  cases result with
  | ok count => exact if_pos (Completion.isOk_done count)
  | error cause => exact if_neg (by simp [Completion.ofResult])

namespace PageCommand

/-- The meter counts a command by its completion, and has no other part in it. -/
theorem perform_metered (d : Device) (m : Metered μ) (c : PageCommand) :
    c.perform d m =
      ((c.perform d m.memory).1,
        ⟨(c.perform d m.memory).2, m.tally.record (c.perform d m.memory).1⟩) := by
  cases c with
  | getLog dword10 dword11 =>
    have hread := d.readLog_metered m (.ofDwords dword10 dword11)
    rw [Metered.count, Prod.mk.injEq] at hread
    simp only [perform, Device.getLog, hread.1, hread.2, TransferTally.record_ofResult]
  | receiveManagement dword10 dword11 =>
    simp only [perform, Device.receiveManagement, d.readUnitStatus_metered m, Metered.count,
      TransferTally.record_ofResult]

/-! ### Commands in a row -/

/-- How commands end that are issued one after the other with one memory. Between them the device
can become any other. -/
def completions (m : μ) : List (Device × PageCommand) → List Completion
  | [] => []
  | (d, c) :: commands => (c.perform d m).1 :: completions (c.perform d m).2 commands

/-- The memory after commands. -/
def after (m : μ) : List (Device × PageCommand) → μ
  | [] => m
  | (d, c) :: commands => after (c.perform d m).2 commands

theorem run_metered (m : Metered μ) (commands : List (Device × PageCommand)) :
    completions m commands = completions m.memory commands ∧
      after m commands =
        ⟨after m.memory commands, (completions m.memory commands).foldl .record m.tally⟩ := by
  induction commands generalizing m with
  | nil => exact ⟨rfl, rfl⟩
  | cons command commands ih =>
    obtain ⟨d, c⟩ := command
    obtain ⟨hcompletions, hafter⟩ := ih (c.perform d m).2
    rw [perform_metered] at hcompletions hafter
    rw [completions, completions, after, after, perform_metered, hcompletions, hafter]
    exact ⟨rfl, rfl⟩

/-- How many bytes each accepted command moved. -/
def moved (cs : List Completion) : List Nat := (cs.filter (·.isOk)).map (·.transferred)

theorem moved_cons_of_isOk {c : Completion} (h : c.isOk = true) (cs : List Completion) :
    moved (c :: cs) = c.transferred :: moved cs := by
  rw [moved, List.filter_cons_of_pos h, List.map_cons, moved]

theorem moved_cons_of_not_isOk {c : Completion} (h : ¬ c.isOk = true) (cs : List Completion) :
    moved (c :: cs) = moved cs := by
  rw [moved, List.filter_cons_of_neg h, moved]

/-- What a meter has counted after commands, if it began with some tally. -/
theorem foldl_record (t : TransferTally) (cs : List Completion) :
    cs.foldl .record t =
      { t with
        writes := t.writes + (moved cs).length
        writtenBytes := t.writtenBytes + (moved cs).sum
        largestWrite := (moved cs).foldl max t.largestWrite } := by
  induction cs generalizing t with
  | nil => rfl
  | cons c cs ih =>
    rw [List.foldl_cons, ih]
    by_cases hok : c.isOk = true
    · rw [moved_cons_of_isOk hok, TransferTally.record, if_pos hok, List.length_cons, List.sum_cons,
        List.foldl_cons, TransferTally.addWrite, Nat.add_right_comm, Nat.add_assoc, Nat.add_assoc]
    · rw [moved_cons_of_not_isOk hok, TransferTally.record, if_neg hok]

/-- Commands for pages end in the same way through a meter as without one, and the memory becomes
the same, whatever the memory, the commands and the devices they are issued to. A new meter then has
counted as many writes as commands were accepted, the sum of the bytes that they moved and the
largest number of them, and neither reads nor flushes. A refused command never changes its tally. -/
theorem metered_commands (m : μ) (commands : List (Device × PageCommand)) :
    let ends := completions m commands
    let metered := after (⟨m, {}⟩ : Metered μ) commands
    completions (⟨m, {}⟩ : Metered μ) commands = ends ∧
      metered.memory = after m commands ∧
      metered.tally = {
        reads := 0
        readBytes := 0
        writes := ends.countP (·.isOk)
        writtenBytes := (moved ends).sum
        flushes := 0
        largestWrite := (moved ends).foldl max 0 } ∧
      ∀ (d : Device) (c : PageCommand) (m : Metered μ),
        (c.perform d m).1.isOk = false → (c.perform d m).2.tally = m.tally := by
  intro ends metered
  obtain ⟨hcompletions, hafter⟩ := run_metered (⟨m, {}⟩ : Metered μ) commands
  have hwrites : (moved ends).length = ends.countP (·.isOk) := by
    rw [moved, List.length_map, List.countP_eq_length_filter]
  have htally : metered.tally = ends.foldl .record {} := congrArg Metered.tally hafter
  refine ⟨hcompletions, congrArg Metered.memory hafter, ?_, fun d c m hrefused => ?_⟩
  · rw [htally, foldl_record, ← hwrites]
    simp
  · rw [perform_metered] at hrefused ⊢
    exact if_neg (by simp [hrefused])

/-- Two accepted commands on 64 of 100 bytes, and one that is refused for each cause: an unknown
log, a length without room for the header, an unknown operation, a page that passes the limit, and
placement that is off. -/
theorem metered_commands_of_every_cause :
    ∃ fresh, Device.build ⟨4096, 4, 8, 512, by decide⟩ {} (.steady 0 1) = .ok fresh ∧
      let d := fresh.run ([.enable] : List (Device.Request Window))
      let m := Window.exposing (List.replicate 100 0xee) 64
      let commands := [(d, getLog 0x000f0022 0), (d, getLog 0x00ff0030 0), (d, getLog 0x00070022 0),
        (d, receiveManagement 2 11), (d, receiveManagement 1 35), (fresh, receiveManagement 1 11),
        (d, receiveManagement 1 11)]
      let metered := after (⟨m, {}⟩ : Metered Window) commands
      let late := (receiveManagement 1 35).perform d metered
      completions (⟨m, {}⟩ : Metered Window) commands =
          [.done 64, .refused (.invalidLogId 0x30), .refused (.bufferTooSmall 64 32),
            .refused (.unsupportedOperation 2), .refused (.transfer .outOfBounds),
            .refused .disabled, .done 48] ∧
        metered.memory = after m commands ∧
        metered.tally = { writes := 2, writtenBytes := 112, largestWrite := 64 } ∧
        late.1.isOk = false ∧ late.2.tally = metered.tally := by
  have hbuild : Device.build ⟨4096, 4, 8, 512, by decide⟩ {} (.steady 0 1) = .ok _ := rfl
  refine ⟨_, hbuild, ?_⟩
  intro d m commands metered late
  obtain ⟨hcompletions, hmemory, htally, hrefused⟩ := metered_commands m commands
  have hends : completions m commands = [.done 64, .refused (.invalidLogId 0x30),
      .refused (.bufferTooSmall 64 32), .refused (.unsupportedOperation 2),
      .refused (.transfer .outOfBounds), .refused .disabled, .done 48] := by
    decide +kernel
  have hlate : late.1.isOk = false := by decide +kernel
  rw [hends] at hcompletions htally
  exact ⟨hcompletions, hmemory, htally, hlate, hrefused d (receiveManagement 1 35) metered hlate⟩

end PageCommand

end DataPlacement
