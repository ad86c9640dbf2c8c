import DataPlacement.Arithmetic
import DataPlacement.Host.Transfer

namespace DataPlacement.Host

variable {μ : Type} [Memory μ] {m : μ} {n : Nat} {data : List UInt8}

open Memory

theorem Window.take_of_readAt {w : Window} (h : (readAt w 0 n).1 = .ok data) :
    w.bytes.take n = data := by
  change (w.readAt 0 n).1 = _ at h
  unfold Window.readAt at h
  split at h
  · simpa using h
  · cases h

namespace Store

variable (s : Store)

theorem holds_of_lt {length : Nat} (h : length < bitRange 63) : s.holds length = true := by
  unfold holds
  split
  · rfl
  · exact decide_eq_true h

theorem writeAt_zero (hdata : data ≠ []) (h : data.length < bitRange 63) :
    s.writeAt 0 data = (.ok (), { s with bytes := data ++ s.bytes.drop data.length }) := by
  rw [writeAt, Nat.zero_add, s.holds_of_lt h]
  simp [hdata, resize]

variable {s}

theorem take_of_readAt (h : (Memory.readAt s 0 n).1 = .ok data) : s.bytes.take n = data := by
  change (s.readAt 0 n).1 = _ at h
  unfold readAt at h
  split at h
  · cases h
  · split at h
    · simpa using h
    · cases h

theorem readAt_zero_of_le {count : Nat} (hstored : count ≤ s.bytes.length)
    (h : count < bitRange 63) : (s.readAt 0 count).1 = .ok (s.bytes.take count) := by
  rw [readAt, Nat.zero_add, s.holds_of_lt h]
  simp [hstored]

end Store

/-- The memory takes as many bytes at its start, whichever they are, and has them from then on. -/
structure Takes (m : μ) (n : Nat) : Prop where
  room : n ≤ capacity m
  writes : ∀ data : List UInt8, data.length ≤ n → (writeAt m 0 data).1 = .ok ()
  reads : ∀ data : List UInt8, data.length ≤ n →
    (readAt (writeAt m 0 data).2 0 data.length).1 = .ok data

namespace Takes

theorem mono {k : Nat} (h : Takes m n) (hk : k ≤ n) : Takes m k where
  room := Nat.le_trans hk h.room
  writes data hdata := h.writes data (Nat.le_trans hdata hk)
  reads data hdata := h.reads data (Nat.le_trans hdata hk)

/-- A transfer moves the start of the payload, and all of it if that is asked for. -/
theorem transfer {payload : List UInt8} {requested : Nat}
    (h : Takes m (min payload.length requested)) :
    (Memory.transfer m payload requested).1 = .ok (min payload.length requested) ∧
      (readAt (Memory.transfer m payload requested).2 0 (min payload.length requested)).1 =
        .ok (payload.take (min payload.length requested)) := by
  have hlength : (payload.take (min payload.length requested)).length =
      min payload.length requested := by simp
  have hwrites := h.writes _ (Nat.le_of_eq hlength)
  have hreads := h.reads _ (Nat.le_of_eq hlength)
  rw [hlength] at hreads
  simp only [Memory.transfer, if_neg (Nat.not_lt.2 h.room), hwrites]
  exact ⟨rfl, hreads⟩

theorem window {w : Window} (h : n ≤ w.limit) : Takes w n where
  room := h
  writes data hdata := by
    have hfits : 0 + data.length ≤ w.limit := by omega
    change (w.writeAt 0 data).1 = _
    rw [Window.writeAt, dif_pos hfits]
  reads data hdata := by
    have hfits : 0 + data.length ≤ w.limit := by omega
    change ((w.writeAt 0 data).2.readAt 0 data.length).1 = _
    rw [Window.writeAt, dif_pos hfits, Window.readAt, if_pos hfits]
    simp [Window.overlay]

theorem store {s : Store} (h : n < bitRange 63) : Takes s n where
  room := by
    have hroom : bitRange 63 ≤ bitRange 64 - 1 := by decide
    exact Nat.le_trans (Nat.le_of_lt h) hroom
  writes data hdata := by
    have hholds := s.holds_of_lt (Nat.lt_of_le_of_lt hdata h)
    change (s.writeAt 0 data).1 = _
    rw [Store.writeAt, Nat.zero_add, hholds]
    simp only [Bool.not_true, Bool.false_eq_true, if_false]
    split <;> rfl
  reads data hdata := by
    have hlength := Nat.lt_of_le_of_lt hdata h
    change ((s.writeAt 0 data).2.readAt 0 data.length).1 = _
    cases data with
    | nil => rw [List.length_nil, Store.readAt_zero_of_le (Nat.zero_le _) (bitRange_pos 63)]; rfl
    | cons b rest =>
      rw [s.writeAt_zero (List.cons_ne_nil b rest) hlength,
        Store.readAt_zero_of_le (by rw [List.length_append]; omega) hlength, List.take_left]

/-- Through the meter one writes to the memory behind it and reads from there. -/
theorem metered (h : Takes m n) (tally : TransferTally) : Takes (⟨m, tally⟩ : Metered μ) n where
  room := h.room
  writes data hdata := by
    change (Metered.writeAt ⟨m, tally⟩ 0 data).1 = _
    have hwrites := h.writes data hdata
    unfold Metered.writeAt
    split
    · next heq => simp [heq] at hwrites
    · rfl
  reads data hdata := by
    change (Metered.readAt (Metered.writeAt ⟨m, tally⟩ 0 data).2 0 data.length).1 = _
    have hwrites := h.writes data hdata
    have hreads := h.reads data hdata
    unfold Metered.writeAt
    split
    · next heq => simp [heq] at hwrites
    · next memory heq =>
      simp only [heq] at hreads
      unfold Metered.readAt
      split
      · next heq' => simp [heq'] at hreads
      · next heq' => simpa [heq'] using hreads

end Takes

end DataPlacement.Host
