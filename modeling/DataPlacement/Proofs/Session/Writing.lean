import DataPlacement.Proofs.Command.Dwords
import DataPlacement.Proofs.Device.Counting
import DataPlacement.Proofs.Device.Refusals
import DataPlacement.Proofs.Device.Serving
import DataPlacement.Proofs.Scenario.Validation
import DataPlacement.Session.Basic

namespace DataPlacement

/-! ### Writes in a row -/

namespace Device

variable {d : Device} {ws : List WriteCommand}

/-- The device after writes, one after the other. -/
def writeAll (d : Device) (ws : List WriteCommand) : Device :=
  ws.foldl (fun d w => (d.write w).state) d

/-- What the device answers to writes, one after the other. -/
def answers (d : Device) : List WriteCommand → List (Except Error WriteReport)
  | [] => []
  | w :: ws => (d.write w).result :: (d.write w).state.answers ws

/-- The device accounts for every write in a row, accepted or refused. -/
theorem accountedWrites_writeAll {d : Device} (hd : d.Sound) (hc : d.collector.policy.Reorders)
    (ws : List WriteCommand) :
    (d.writeAll ws).accountedWrites = d.accountedWrites + ws.length := by
  induction ws generalizing d with
  | nil => rfl
  | cons w ws ih =>
    have hwrite := advances_any_write hd w
    have hfirst : (d.write w).state.accountedWrites = d.accountedWrites + 1 :=
      accountedWrites_act hd hc (.write w)
    have hlater := ih (hwrite.sound hd) (hwrite.policy ▸ hc)
    rw [hfirst] at hlater
    refine hlater.trans ?_
    rw [List.length_cons, Nat.add_right_comm, Nat.add_assoc]

end Device

namespace Session

open Scenario (Transferable Step)

variable {g : Geometry} {size multiple : Nat}

/-! ### Transfers -/

theorem eq_of_blocksOf {blocks : Nat} (h : blocksOf g size = .ok blocks) :
    blocks = size / g.blockSize - 1 := by
  unfold blocksOf at h
  dsimp only at h
  split at h
  · cases h
  · split at h
    · cases h
    · exact (Except.ok.inj h).symm

/-! ### The commands of a step -/

/-- The commands of a write step as the device reads them. -/
def commandsOf (d : Device) (group : Nat) (handle : Option Nat) (size count block : Nat) :
    List WriteCommand :=
  let first := writeCommand d.configuration.groupBits group handle block
    (size / d.geometry.blockSize - 1)
  (repeated first count).map WriteCommand.received

theorem length_commandsOf (d : Device) (group : Nat) (handle : Option Nat)
    (size count block : Nat) : (commandsOf d group handle size count block).length = count := by
  simp [commandsOf, repeated]

theorem blocks_writeCommand (groupBits group : Nat) (handle : Option Nat) (block blocks : Nat) :
    (writeCommand groupBits group handle block blocks).blocks = blocks := by
  cases handle <;> rfl

theorem isOk_ofResult {α : Type} (result : Except Error α) :
    (Completion.ofResult (result.map fun _ => 0)).isOk = result.isOk := by
  cases result with
  | ok value => rfl
  | error cause => exact Completion.isOk_refused cause

/-- Submitting a write carries it out, and counts it if it is refused. -/
theorem submit_eq (b : Batch) (w : WriteCommand) :
    (b.submit w).device = (b.device.write w.received).state ∧
      (b.submit w).refused =
        b.refused + if (b.device.write w.received).result.isOk then 0 else 1 := by
  have hok := isOk_ofResult (b.device.write w.received).result
  unfold Batch.submit Device.submitWrite
  dsimp only
  change (Completion.ofResult ((b.device.write (.ofDwords _ _ _)).result.map _)).isOk = _ at hok
  rw [hok]
  split <;> exact ⟨rfl, by simp [*]⟩

/-- Submitting writes leads to the device that carried them out, and counts the refused ones. -/
theorem foldl_submit (ws : List WriteCommand) (b : Batch) :
    let received := ws.map WriteCommand.received
    (ws.foldl Batch.submit b).device = b.device.writeAll received ∧
      (ws.foldl Batch.submit b).refused =
        b.refused + (b.device.answers received).countP (!·.isOk) := by
  induction ws generalizing b with
  | nil => exact ⟨rfl, rfl⟩
  | cons w ws ih =>
    obtain ⟨hdevice, hrefused⟩ := ih (b.submit w)
    obtain ⟨hfirst, hcount⟩ := submit_eq b w
    rw [hfirst] at hdevice hrefused
    refine ⟨hdevice, ?_⟩
    rw [List.foldl_cons, hrefused, hcount, List.map_cons, Device.answers, List.countP_cons]
    cases (b.device.write w.received).result with
    | ok report => simp [Except.isOk, Except.toBool]
    | error cause =>
      simp only [Except.isOk, Except.toBool, Bool.not_false, Bool.false_eq_true, if_true, if_false]
      omega

/-- A write step whose transfer fits into a command sends all its commands, whatever is
answered. -/
theorem write_of_blocks (s : Session) {blocks : Nat}
    (h : blocksOf s.device.geometry size = .ok blocks) (group : Nat) (handle : Option Nat)
    (count block : Nat) :
    let sent := commandsOf s.device group handle size count block
    (s.write group handle size count block).result = .ok () ∧
      (s.write group handle size count block).session =
        (s.setDevice (s.device.writeAll sent)).addCommands count
          ((s.device.answers sent).countP (!·.isOk)) := by
  intro sent
  have hblocks := eq_of_blocksOf h
  obtain ⟨hdevice, hrefused⟩ := foldl_submit (repeated (writeCommand
    s.device.configuration.groupBits group handle block blocks) count) { device := s.device }
  rw [Nat.zero_add] at hrefused
  subst hblocks
  simp only [write, h, hdevice, hrefused]
  exact ⟨rfl, rfl⟩

end Session

end DataPlacement
