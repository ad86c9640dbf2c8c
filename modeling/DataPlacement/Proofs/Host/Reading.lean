import DataPlacement.Host.Transfer
import DataPlacement.Proofs.Command.Dwords

namespace DataPlacement.Host

/-! ### Numbers -/

@[simp] theorem length_littleEndian (width n : Nat) : (littleEndian width n).length = width := by
  induction width generalizing n with
  | zero => rfl
  | succ width ih => rw [littleEndian, List.length_cons, ih]

theorem bitRange_bytes (width : Nat) : bitRange (8 * width) = 256 ^ width := by
  rw [bitRange_eq_two_pow, Nat.pow_mul]

/-- Of a number, its bytes keep as many bits as they have. -/
theorem ofLittleEndian_littleEndian_eq_mod (width n : Nat) :
    ofLittleEndian (littleEndian width n) = n % bitRange (8 * width) := by
  rw [bitRange_bytes]
  induction width generalizing n with
  | zero => rw [Nat.pow_zero, Nat.mod_one, littleEndian, ofLittleEndian]
  | succ width ih =>
    have hlowest : (UInt8.ofNat (n % 256)).toNat = n % 256 := by simp
    rw [littleEndian, ofLittleEndian, hlowest, ih, Nat.pow_succ', Nat.mod_mul]

/-- A number that fits into its bytes is read back from them. -/
theorem ofLittleEndian_littleEndian {width n : Nat} (h : n < bitRange (8 * width)) :
    ofLittleEndian (littleEndian width n) = n := by
  rw [ofLittleEndian_littleEndian_eq_mod, Nat.mod_eq_of_lt h]

/-- Items that are encoded in one width take up as many times the width. -/
theorem length_flatten_map {ι : Type} {encode : ι → List UInt8} {width : Nat}
    (hwidth : ∀ item, (encode item).length = width) (items : List ι) :
    (items.map encode).flatten.length = width * items.length := by
  induction items with
  | nil => rfl
  | cons item items ih =>
    rw [List.map_cons, List.flatten_cons, List.length_append, hwidth, ih, List.length_cons,
      Nat.mul_add, Nat.mul_one, Nat.add_comm]

/-! ### Readers -/

/-- Takes a value from the front of some bytes, if one is there, and leaves the bytes behind it. -/
abbrev Reader (α : Type) := StateT (List UInt8) Option α

namespace Reader

variable {α β : Type}

/-- Takes some bytes as they are. -/
def take (count : Nat) : Reader (List UInt8) := fun bytes =>
  if count ≤ bytes.length then some (bytes.take count, bytes.drop count) else none

/-- Takes a number of `width` bytes. -/
def number (width : Nat) : Reader Nat := do
  let bytes ← take width
  return ofLittleEndian bytes

/-- Passes over reserved bytes. -/
def skip (count : Nat) : Reader Unit := do
  let _ ← take count

/-- Takes as many values as are told. -/
def times (r : Reader α) : Nat → Reader (List α)
  | 0 => return []
  | count + 1 => do
    let first ← r
    let rest ← times r count
    return first :: rest

/-- The value that all of the bytes stand for. -/
def whole (r : Reader α) (bytes : List UInt8) : Option α :=
  match r bytes with
  | some (a, []) => some a
  | _ => none

/-- Takes a value that has the next `count` bytes for itself, no fewer and no more. -/
def within (count : Nat) (r : Reader α) : Reader α := do
  let bytes ← take count
  r.whole bytes

end Reader

open Reader

/-- The reader takes the bytes for the value, and leaves what stands behind them. -/
def Reads {α : Type} (r : Reader α) (bytes : List UInt8) (a : α) : Prop :=
  ∀ rest, r (bytes ++ rest) = some (a, rest)

namespace Reads

variable {α β : Type} {r : Reader α} {bytes bytes' : List UInt8} {a : α} {b : β}

theorem pure (a : α) : Reads (return a) [] a := fun _ => rfl

theorem bind {f : α → Reader β} (h : Reads r bytes a) (h' : Reads (f a) bytes' b) :
    Reads (r >>= f) (bytes ++ bytes') b := by
  intro rest
  have hstep : (r >>= f) ((bytes ++ bytes') ++ rest) =
      (r (bytes ++ (bytes' ++ rest))).bind fun s => f s.1 s.2 := by
    rw [← List.append_assoc]
    rfl
  rw [hstep, h]
  exact h' rest

/-- The last value of a record, from which the record is made. -/
theorem last (h : Reads r bytes a) (f : α → β) : Reads (do return f (← r)) bytes (f a) := by
  have hmade : Reads (do return f (← r)) (bytes ++ []) (f a) := h.bind (.pure (f a))
  rwa [List.append_nil] at hmade

theorem take (bytes : List UInt8) : Reads (take bytes.length) bytes bytes := by
  intro rest
  simp [Reader.take]

theorem number {width n : Nat} (h : n < bitRange (8 * width)) :
    Reads (number width) (littleEndian width n) n := by
  have hread := (Reads.take (littleEndian width n)).last ofLittleEndian
  rwa [length_littleEndian, ofLittleEndian_littleEndian h] at hread

theorem skip {count : Nat} (hlength : bytes.length = count) : Reads (skip count) bytes () := by
  have hread := (Reads.take bytes).last fun _ => ()
  rwa [hlength] at hread

/-- Items that are encoded one behind the other are taken one by one. -/
theorem times {ι : Type} {items : List ι} {encode : ι → List UInt8} {value : ι → α}
    (h : ∀ item ∈ items, Reads r (encode item) (value item)) :
    Reads (times r items.length) (items.map encode).flatten (items.map value) := by
  induction items with
  | nil => exact .pure []
  | cons item items ih =>
    obtain ⟨hitem, hitems⟩ := List.forall_mem_cons.1 h
    exact hitem.bind ((ih hitems).last (value item :: ·))

theorem whole (h : Reads r bytes a) : r.whole bytes = some a := by
  have hall := h []
  rw [List.append_nil] at hall
  rw [Reader.whole, hall]

theorem within {count : Nat} (h : Reads r bytes a) (hlength : bytes.length = count) :
    Reads (within count r) bytes a := by
  intro rest
  have htake := Reads.take bytes rest
  rw [hlength] at htake
  have hstep : Reader.within count r (bytes ++ rest) =
      (Reader.take count (bytes ++ rest)).bind fun s => (r.whole s.1).bind fun a => some (a, s.2) :=
    rfl
  rw [hstep, htake]
  simp [h.whole]

end Reads

end DataPlacement.Host
