import DataPlacement.Command.Request
import DataPlacement.Command.Write
import Mathlib.Algebra.Group.Nat.Defs

namespace DataPlacement

theorem bitRange_eq_two_pow (width : Nat) : bitRange width = 2 ^ width := Nat.one_shiftLeft width

theorem bitField_eq_mod (low width n : Nat) : bitField low width n = n / 2 ^ low % 2 ^ width := by
  rw [bitField, bitRange_eq_two_pow, Nat.shiftRight_eq_div_pow]

namespace WriteCommand

/-- A write as it is read back from its dwords. -/
def received (w : WriteCommand) : WriteCommand := .ofDwords w.block w.dwords.1 w.dwords.2

/-- A block count of 16 bits survives, and so do the low bits of the directive and the
identifier. -/
theorem received_eq (w : WriteCommand) (hblocks : w.blocks < bitRange 16) :
    w.received = ⟨w.block, w.blocks, lowBits 4 w.directive, lowBits 16 w.identifier⟩ := by
  have hblocks : w.blocks < 2 ^ 16 := by rwa [bitRange_eq_two_pow] at hblocks
  have hcount : (w.blocks + w.directive % 2 ^ 4 * 2 ^ 20) % 2 ^ 16 = w.blocks := by omega
  have hdirective : (w.blocks + w.directive % 2 ^ 4 * 2 ^ 20) / 2 ^ 20 % 2 ^ 4 =
      w.directive % 2 ^ 4 := by omega
  have hidentifier : w.identifier * 2 ^ 16 / 2 ^ 16 = w.identifier := by omega
  simp only [received, ofDwords, dwords, lowBits, bitField_eq_mod, bitRange_eq_two_pow,
    Nat.pow_zero, Nat.div_one, hcount, hdirective, hidentifier]

end WriteCommand

theorem dwordCount_add_one {length : Nat} (h : 4 ≤ length) :
    dwordCount length + 1 = length / 4 := by
  unfold dwordCount
  omega

namespace LogRequest

/-- A request as it is read back from its dwords. -/
def received (r : LogRequest) : LogRequest := .ofDwords r.dwords.1 r.dwords.2

/-- The two halves of the count make up its low 32 bits. -/
theorem received_eq (r : LogRequest) (hlog : r.log < bitRange 16) :
    r.received = ⟨r.log, (dwordCount r.length % bitRange 32 + 1) * 4⟩ := by
  rw [bitRange_eq_two_pow] at hlog
  generalize hcount : dwordCount r.length = count
  have hid : (r.log + count % 2 ^ 16 * 2 ^ 16) % 2 ^ 16 = r.log := by omega
  have hlow : (r.log + count % 2 ^ 16 * 2 ^ 16) / 2 ^ 16 % 2 ^ 16 = count % 2 ^ 16 := by omega
  have hhalves : count / 2 ^ 16 % 2 ^ 16 % 2 ^ 16 * 2 ^ 16 + count % 2 ^ 16 = count % 2 ^ 32 := by
    omega
  simp only [received, ofDwords, dwords, hcount, bitField_eq_mod, bitRange_eq_two_pow, Nat.pow_zero,
    Nat.div_one, hid, hlow, hhalves]

theorem page?_received (page : LogPage) (length : Nat) :
    (received ⟨page.identifier, length⟩).page? = some page := by
  have hlog : page.identifier < bitRange 16 := by cases page <;> decide
  rw [received_eq _ hlog]
  cases page <;> rfl

end LogRequest

namespace ManagementRequest

/-- A request as it is read back from its dwords. -/
def received (r : ManagementRequest) : ManagementRequest := .ofDwords r.dwords.1 r.dwords.2

theorem received_eq (r : ManagementRequest) (hoperation : r.operation < bitRange 8) :
    r.received = ⟨r.operation, (min (dwordCount r.length) (bitRange 32 - 1) + 1) * 4⟩ := by
  rw [bitRange_eq_two_pow] at hoperation
  have hid : r.operation % 2 ^ 8 = r.operation := Nat.mod_eq_of_lt hoperation
  simp only [received, ofDwords, dwords, bitField_eq_mod, Nat.pow_zero, Nat.div_one, hid]

end ManagementRequest

end DataPlacement
