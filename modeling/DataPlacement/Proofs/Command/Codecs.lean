import DataPlacement.Proofs.Command.Dwords

namespace DataPlacement

/-! ### Bits of dwords -/

theorem testBit_bitField (low width n i : Nat) :
    (bitField low width n).testBit i = (decide (i < width) && n.testBit (low + i)) := by
  rw [bitField, bitRange_eq_two_pow, Nat.testBit_mod_two_pow, Nat.testBit_shiftRight]

/-- Two fields of one number, the upper one behind the bits that the lower one may use. -/
theorem testBit_add_mul_bitRange {low a : Nat} (ha : a < bitRange low) (b i : Nat) :
    (a + b * bitRange low).testBit i = if i < low then a.testBit i else b.testBit (i - low) := by
  rw [bitRange_eq_two_pow] at ha ⊢
  rw [Nat.add_comm, Nat.mul_comm]
  exact Nat.testBit_two_pow_mul_add b ha i

theorem bitField_lt (low width n : Nat) : bitField low width n < bitRange width :=
  Nat.mod_lt _ (bitRange_pos width)

theorem bitField_of_lt {width n : Nat} (h : n < bitRange width) : bitField 0 width n = n :=
  Nat.mod_eq_of_lt h

/-! ### Writes -/

namespace WriteCommand

/-- The fields have the widths that they have in the dwords. -/
structure Fits (w : WriteCommand) : Prop where
  blocks : w.blocks < bitRange 16
  directive : w.directive < bitRange 4
  identifier : w.identifier < bitRange 16

variable {w : WriteCommand}

theorem Fits.received_eq_self (h : w.Fits) : w.received = w := by
  have hdirective : lowBits 4 w.directive = w.directive := Nat.mod_eq_of_lt h.directive
  have hidentifier : lowBits 16 w.identifier = w.identifier := Nat.mod_eq_of_lt h.identifier
  rw [received_eq w h.blocks, hdirective, hidentifier]

theorem Fits.dwords_lt (h : w.Fits) : w.dwords.1 < bitRange 32 ∧ w.dwords.2 < bitRange 32 := by
  obtain ⟨hblocks, -, hidentifier⟩ := h
  have hdirective := bitField_lt 0 4 w.directive
  simp only [bitRange_eq_two_pow] at hblocks hdirective hidentifier
  simp only [dwords, bitRange_eq_two_pow]
  omega

/-- Of the first dword the block count and the directive are kept. -/
theorem testBit_first (block dword12 dword13 i : Nat) :
    (ofDwords block dword12 dword13).dwords.1.testBit i =
      (dword12.testBit i && decide (i ≤ 15 ∨ 20 ≤ i ∧ i ≤ 23)) := by
  have hcount : bitField 0 16 dword12 < bitRange 20 :=
    Nat.lt_trans (bitField_lt 0 16 dword12) (by decide)
  simp only [ofDwords, dwords]
  rw [testBit_add_mul_bitRange hcount]
  by_cases hlow : i < 20
  · have hkept : i < 16 ↔ i ≤ 15 ∨ 20 ≤ i ∧ i ≤ 23 := by omega
    rw [if_pos hlow, testBit_bitField, Nat.zero_add, decide_eq_decide.2 hkept, Bool.and_comm]
  · have hkept : i - 20 < 4 ↔ i ≤ 15 ∨ 20 ≤ i ∧ i ≤ 23 := by omega
    have hplace : 20 + (i - 20) = i := by omega
    rw [if_neg hlow, bitField_of_lt (bitField_lt 20 4 dword12), testBit_bitField, hplace,
      decide_eq_decide.2 hkept, Bool.and_comm]

/-- Of the second dword the identifier is kept. -/
theorem testBit_second (block dword12 dword13 i : Nat) :
    (ofDwords block dword12 dword13).dwords.2.testBit i =
      (dword13.testBit i && decide (16 ≤ i ∧ i ≤ 31)) := by
  have hempty : 0 < bitRange 16 := bitRange_pos 16
  have hfields := testBit_add_mul_bitRange hempty (bitField 16 16 dword13) i
  rw [Nat.zero_add] at hfields
  simp only [ofDwords, dwords]
  rw [hfields]
  by_cases hlow : i < 16
  · have hlost : ¬ (16 ≤ i ∧ i ≤ 31) := by omega
    rw [if_pos hlow, Nat.zero_testBit, decide_eq_false hlost, Bool.and_false]
  · have hkept : i - 16 < 16 ↔ 16 ≤ i ∧ i ≤ 31 := by omega
    have hplace : 16 + (i - 16) = i := by omega
    rw [if_neg hlow, testBit_bitField, hplace, decide_eq_decide.2 hkept, Bool.and_comm]

end WriteCommand

/-! ### Requests -/

/-- The bytes of a request in whole dwords, of which there is at least one. -/
theorem dwordCount_bytes (length : Nat) :
    (dwordCount length + 1) * 4 = max 4 (length / 4 * 4) := by
  unfold dwordCount
  omega

theorem dwordCount_of_dwords (count : Nat) : dwordCount ((count + 1) * 4) = count := by
  unfold dwordCount
  omega

namespace LogRequest

/-- A count of up to 2^32 dwords survives. -/
theorem received_of_le {r : LogRequest} (hlog : r.log < bitRange 16) (hlength : r.length ≤ 2 ^ 34) :
    r.received = ⟨r.log, max 4 (r.length / 4 * 4)⟩ := by
  have hcount : dwordCount r.length < bitRange 32 := by
    rw [bitRange_eq_two_pow, dwordCount]
    omega
  rw [received_eq r hlog, Nat.mod_eq_of_lt hcount, dwordCount_bytes]

theorem dwords_lt {r : LogRequest} (hlog : r.log < bitRange 16) :
    r.dwords.1 < bitRange 32 ∧ r.dwords.2 < bitRange 32 := by
  have hlow := bitField_lt 0 16 (dwordCount r.length)
  have hhigh := bitField_lt 16 16 (dwordCount r.length)
  simp only [bitRange_eq_two_pow] at hlog hlow hhigh
  simp only [dwords, bitRange_eq_two_pow]
  omega

/-- Only the upper half of the second dword is lost, which no field uses. -/
theorem dwords_ofDwords {dword10 : Nat} (h : dword10 < bitRange 32) (dword11 : Nat) :
    (ofDwords dword10 dword11).dwords = (dword10, lowBits 16 dword11) := by
  rw [bitRange_eq_two_pow] at h
  have hfirst : dword10 % 2 ^ 16 +
      (dword11 % 2 ^ 16 * 2 ^ 16 + dword10 / 2 ^ 16 % 2 ^ 16) % 2 ^ 16 * 2 ^ 16 = dword10 := by
    omega
  have hsecond : (dword11 % 2 ^ 16 * 2 ^ 16 + dword10 / 2 ^ 16 % 2 ^ 16) / 2 ^ 16 % 2 ^ 16 =
      dword11 % 2 ^ 16 := by
    omega
  simp only [ofDwords, dwords, dwordCount_of_dwords, lowBits, bitField_eq_mod, bitRange_eq_two_pow,
    Nat.pow_zero, Nat.div_one, hfirst, hsecond]

end LogRequest

namespace ManagementRequest

/-- A count of more than 2^32 dwords becomes the largest one. -/
theorem received_eq_min {r : ManagementRequest} (hoperation : r.operation < bitRange 8) :
    r.received = ⟨r.operation, min (2 ^ 34) (max 4 (r.length / 4 * 4))⟩ := by
  have hlargest : (min (dwordCount r.length) (bitRange 32 - 1) + 1) * 4 =
      min (2 ^ 34) ((dwordCount r.length + 1) * 4) := by
    rw [bitRange_eq_two_pow]
    omega
  rw [received_eq r hoperation, hlargest, dwordCount_bytes]

theorem dwords_lt {r : ManagementRequest} (hoperation : r.operation < bitRange 8) :
    r.dwords.1 < bitRange 32 ∧ r.dwords.2 < bitRange 32 := by
  simp only [bitRange_eq_two_pow] at hoperation
  simp only [dwords, bitRange_eq_two_pow]
  omega

theorem dwords_ofDwords (dword10 : Nat) {dword11 : Nat} (h : dword11 < bitRange 32) :
    (ofDwords dword10 dword11).dwords = (lowBits 8 dword10, dword11) := by
  have hfits : min dword11 (bitRange 32 - 1) = dword11 := by omega
  simp only [ofDwords, dwords, dwordCount_of_dwords, hfits]
  rfl

end ManagementRequest

/-! ### All three -/

/-- The codecs of writes, of requests for log pages and of requests for management data. What is
written are dwords, and it is read back: a write whose fields fit as it was, the length of a request
in whole dwords, of which there is at least one. The count of dwords has 32 bits, which the length
of a log page must keep to and to which that of management data is cut. Dwords that are read and
written again keep the bits that belong to a field and no others. -/
theorem dwords_read_back :
    (∀ w : WriteCommand, w.Fits →
      w.received = w ∧ w.dwords.1 < bitRange 32 ∧ w.dwords.2 < bitRange 32) ∧
    (∀ block dword12 dword13 i,
      let again := (WriteCommand.ofDwords block dword12 dword13).dwords
      again.1.testBit i = (dword12.testBit i && decide (i ≤ 15 ∨ 20 ≤ i ∧ i ≤ 23)) ∧
        again.2.testBit i = (dword13.testBit i && decide (16 ≤ i ∧ i ≤ 31))) ∧
    (∀ r : LogRequest, r.log < bitRange 16 →
      r.dwords.1 < bitRange 32 ∧ r.dwords.2 < bitRange 32 ∧
        (r.length ≤ 2 ^ 34 → r.received = ⟨r.log, max 4 (r.length / 4 * 4)⟩)) ∧
    (∀ dword10 dword11, dword10 < bitRange 32 →
      (LogRequest.ofDwords dword10 dword11).dwords = (dword10, lowBits 16 dword11)) ∧
    (∀ r : ManagementRequest, r.operation < bitRange 8 →
      r.received = ⟨r.operation, min (2 ^ 34) (max 4 (r.length / 4 * 4))⟩ ∧
        r.dwords.1 < bitRange 32 ∧ r.dwords.2 < bitRange 32) ∧
    ∀ dword10 dword11, dword11 < bitRange 32 →
      (ManagementRequest.ofDwords dword10 dword11).dwords = (lowBits 8 dword10, dword11) := by
  refine ⟨fun w h => ⟨h.received_eq_self, h.dwords_lt⟩, ?_, ?_, ?_, ?_, ?_⟩
  · intro block dword12 dword13 i
    exact ⟨WriteCommand.testBit_first block dword12 dword13 i,
      WriteCommand.testBit_second block dword12 dword13 i⟩
  · intro r hlog
    obtain ⟨hfirst, hsecond⟩ := LogRequest.dwords_lt hlog
    exact ⟨hfirst, hsecond, LogRequest.received_of_le hlog⟩
  · intro dword10 dword11 h
    exact LogRequest.dwords_ofDwords h dword11
  · intro r hoperation
    exact ⟨ManagementRequest.received_eq_min hoperation, ManagementRequest.dwords_lt hoperation⟩
  · intro dword10 dword11 h
    exact ManagementRequest.dwords_ofDwords dword10 h

/-- The largest write, a dword in which every bit is set, the longest log page, and management data
of a length that no dword count can name. -/
theorem dwords_read_back_of_extremes :
    WriteCommand.Fits ⟨0, 65535, 15, 65535⟩ ∧
    WriteCommand.received ⟨0, 65535, 15, 65535⟩ = ⟨0, 65535, 15, 65535⟩ ∧
    LogRequest.received ⟨0x21, 2 ^ 34⟩ = ⟨0x21, 2 ^ 34⟩ ∧
    (LogRequest.ofDwords 0xffffffff 0xffffffff).dwords = (0xffffffff, 0xffff) ∧
    ManagementRequest.received ⟨1, 2 ^ 64 - 1⟩ = ⟨1, 2 ^ 34⟩ ∧
    (ManagementRequest.ofDwords 0xffffffff 0xffffffff).dwords = (0xff, 0xffffffff) := by
  obtain ⟨hwrite, -, hlog, hlogAgain, hmanagement, hmanagementAgain⟩ := dwords_read_back
  have hfits : WriteCommand.Fits ⟨0, 65535, 15, 65535⟩ :=
    ⟨by decide, by decide, by decide⟩
  refine ⟨hfits, (hwrite _ hfits).1, ?_, ?_, ?_, ?_⟩
  · exact (hlog ⟨0x21, 2 ^ 34⟩ (by decide)).2.2 (Nat.le_refl _)
  · exact hlogAgain _ _ (by decide)
  · exact (hmanagement ⟨1, 2 ^ 64 - 1⟩ (by decide)).1
  · exact hmanagementAgain _ _ (by decide)

end DataPlacement
