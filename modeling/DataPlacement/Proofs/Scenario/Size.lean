import DataPlacement.Proofs.Text.LowerCase
import DataPlacement.Scenario.Size

namespace DataPlacement.Scenario.Size

open Text (InNumeral Numeral Trims lowerCase trims_iff)

variable {text number count : List Char} {c letter : Char} {n bytes : Nat}

/-- What stands behind a number, and how many bytes it makes of one: a character that is k, m or g
in lower case, or nothing. -/
inductive IsUnit : List Char → Nat → Prop where
  | none : IsUnit [] 1
  | kilo {c : Char} (h : lowerCase c = ['k']) : IsUnit [c] (2 ^ 10)
  | mega {c : Char} (h : lowerCase c = ['m']) : IsUnit [c] (2 ^ 20)
  | giga {c : Char} (h : lowerCase c = ['g']) : IsUnit [c] (2 ^ 30)

/-- The text denotes a byte count. The number has 64 bits, and so has the count. -/
def Denotes (text : List Char) (n : Nat) : Prop :=
  ∃ core number unit numeral amount bytes,
    Trims text core ∧ core = number ++ unit ∧ IsUnit unit bytes ∧
      Trims number numeral ∧ Numeral numeral amount ∧
        n = amount * bytes ∧ amount < 2 ^ 64 ∧ n < 2 ^ 64

/-! ### Units -/

theorem isUnit_of_unit? (hcase : lowerCase c = [letter]) (h : unit? letter = some bytes) :
    IsUnit [c] bytes := by
  unfold unit? at h
  split at h
  · next hletter =>
    obtain rfl := Option.some.inj h
    exact .kilo (hletter ▸ hcase)
  · split at h
    · next hletter =>
      obtain rfl := Option.some.inj h
      exact .mega (hletter ▸ hcase)
    · split at h
      · next hletter =>
        obtain rfl := Option.some.inj h
        exact .giga (hletter ▸ hcase)
      · cases h

theorem unit?_of_inNumeral (h : InNumeral c) : unit? c = none := by
  have hother : ∀ letter, ¬ InNumeral letter → c ≠ letter :=
    fun letter hletter hc => hletter (hc ▸ h)
  rw [unit?, if_neg (hother 'k' (by decide)), if_neg (hother 'm' (by decide)),
    if_neg (hother 'g' (by decide))]

theorem splitUnit_concat (h : unit? letter = some bytes) :
    splitUnit (number ++ [letter]) = (number, bytes) := by
  simp [splitUnit, h]

theorem splitUnit_of_inNumeral (h : ∀ c ∈ text, InNumeral c) : splitUnit text = (text, 1) := by
  have hnone : text.getLast?.bind unit? = none := by
    cases hlast : text.getLast? with
    | none => rfl
    | some c => exact unit?_of_inNumeral (h c (List.mem_of_getLast? hlast))
  rw [splitUnit, hnone]

/-- A unit is split off, or there is none. -/
theorem splitUnit_cases (text : List Char) :
    (∃ number letter bytes, text = number ++ [letter] ∧ unit? letter = some bytes ∧
      splitUnit text = (number, bytes)) ∨ splitUnit text = (text, 1) := by
  cases hunit : text.getLast?.bind unit? with
  | none =>
    right
    rw [splitUnit, hunit]
  | some bytes =>
    left
    obtain ⟨letter, hlast, hletter⟩ := Option.bind_eq_some_iff.1 hunit
    obtain ⟨number, rfl⟩ := List.getLast?_eq_some_iff.1 hlast
    exact ⟨number, letter, bytes, rfl, hletter, splitUnit_concat hletter⟩

/-- Where a text in lower case ends in the letter of a unit, the text itself ends in one character
of that lower case. -/
theorem exists_concat_of_lower (h : Text.lower text = count ++ [letter])
    (hletter : unit? letter = some bytes) :
    ∃ number c, text = number ++ [c] ∧ lowerCase c = [letter] ∧ Text.lower number = count := by
  obtain rfl | ⟨number, c, rfl⟩ := List.eq_nil_or_concat' text
  · simp [Text.lower] at h
  · rw [Text.lower, List.flatMap_append, List.flatMap_singleton] at h
    obtain hpair | ⟨x, hsingle⟩ := Text.lowerCase_cases c
    · -- The second character of the pair is the letter of no unit.
      rw [hpair, List.append_cons] at h
      have hdot : '\u0307' = letter := List.singleton_inj.1 (List.append_inj_right' h rfl)
      rw [← hdot] at hletter
      cases hletter
    · rw [hsingle] at h
      obtain rfl : x = letter := List.singleton_inj.1 (List.append_inj_right' h rfl)
      exact ⟨number, c, rfl, hsingle, List.append_inj_left' h rfl⟩

theorem splitUnit_lower {unit : List Char} (hnumber : ∀ c ∈ number, InNumeral c)
    (h : IsUnit unit bytes) : splitUnit (Text.lower (number ++ unit)) = (number, bytes) := by
  have hlower : Text.lower (number ++ unit) = number ++ Text.lower unit := by
    rw [Text.lower, List.flatMap_append]
    exact congrArg (· ++ Text.lower unit) (Text.lower_of_inNumeral hnumber)
  have hsingle : ∀ c, Text.lower [c] = lowerCase c := fun c => List.flatMap_singleton lowerCase c
  rw [hlower]
  cases h with
  | none => rw [Text.lower, List.flatMap_nil, List.append_nil, splitUnit_of_inNumeral hnumber]
  | kilo hc =>
    rw [hsingle, hc]
    exact splitUnit_concat rfl
  | mega hc =>
    rw [hsingle, hc]
    exact splitUnit_concat rfl
  | giga hc =>
    rw [hsingle, hc]
    exact splitUnit_concat rfl

/-! ### Reading -/

/-- Once the unit is known, the rest must be a number with white space around it. -/
theorem parse?_of_splitUnit (h : splitUnit (Text.lower (Text.trim text)) = (count, bytes)) :
    parse? text = some n ↔ ∃ numeral amount, Trims count numeral ∧ Numeral numeral amount ∧
      n = amount * bytes ∧ amount < 2 ^ 64 ∧ n < 2 ^ 64 := by
  unfold parse?
  rw [h]
  dsimp only
  constructor
  · intro hread
    split at hread
    · cases hread
    · next amount hamount =>
      obtain ⟨hnumeral, hamount⟩ := Text.number?_eq_some_iff.1 hamount
      obtain ⟨hfits, hn⟩ := Option.ite_none_right_eq_some.1 hread
      obtain rfl := Option.some.inj hn
      exact ⟨_, amount, trims_iff.2 rfl, hnumeral, rfl, hamount, hfits⟩
  · rintro ⟨numeral, amount, htrims, hnumeral, rfl, hamount, hfits⟩
    have hread : Text.number? (Text.trim count) = some amount := by
      rw [trims_iff.1 htrims]
      exact Text.number?_eq_some_iff.2 ⟨hnumeral, hamount⟩
    rw [hread]
    exact if_pos hfits

/-- A byte count is read from the texts that denote one. -/
theorem parse?_eq_some_iff : parse? text = some n ↔ Denotes text n := by
  have htext : Trims text (Text.trim text) := trims_iff.2 rfl
  constructor
  · intro h
    obtain ⟨count, letter, bytes, hlower, hletter, hsplit⟩ | hsplit :=
      splitUnit_cases (Text.lower (Text.trim text))
    · obtain ⟨numeral, amount, hcount, hnumeral, hn⟩ := (parse?_of_splitUnit hsplit).1 h
      obtain ⟨number, c, hnumber, hcase, rfl⟩ := exists_concat_of_lower hlower hletter
      rw [Text.lower_eq_self (hcount.inNumeral hnumeral.inNumeral)] at hcount
      exact ⟨_, number, [c], numeral, amount, bytes, htext, hnumber,
        isUnit_of_unit? hcase hletter, hcount, hnumeral, hn⟩
    · obtain ⟨numeral, amount, hcount, hnumeral, hn⟩ := (parse?_of_splitUnit hsplit).1 h
      rw [Text.lower_eq_self (hcount.inNumeral hnumeral.inNumeral)] at hcount
      exact ⟨_, Text.trim text, [], numeral, amount, 1, htext, (List.append_nil _).symm, .none,
        hcount, hnumeral, hn⟩
  · rintro ⟨core, number, unit, numeral, amount, bytes, hcore, rfl, hunit, hnumber, hnumeral, hn⟩
    have hsplit : splitUnit (Text.lower (Text.trim text)) = (number, bytes) := by
      rw [trims_iff.1 hcore]
      exact splitUnit_lower (hnumber.inNumeral hnumeral.inNumeral) hunit
    exact (parse?_of_splitUnit hsplit).2 ⟨numeral, amount, hnumber, hnumeral, hn⟩

/-- What a text says is its byte count, and a text that says none is refused as such. Nothing is
read modulo 2 ^ 64. -/
theorem ofText_reads_byte_counts (text : String) :
    (∀ n, ofText text = .ok n ↔ Denotes text.toList n) ∧
      (ofText text = .error (.badFormat text) ↔ ¬ ∃ n, Denotes text.toList n) := by
  unfold ofText
  cases hparse : parse? text.toList with
  | none =>
    have hnone : ∀ n, ¬ Denotes text.toList n := fun n hn => by
      rw [← parse?_eq_some_iff, hparse] at hn
      cases hn
    exact ⟨fun n => iff_of_false (by simp) (hnone n),
      iff_of_true rfl fun ⟨n, hn⟩ => hnone n hn⟩
  | some bytes =>
    refine ⟨fun n => ?_, iff_of_false (by simp) (not_not.2 ⟨bytes, parse?_eq_some_iff.1 hparse⟩)⟩
    rw [← parse?_eq_some_iff, hparse, Except.ok.injEq, Option.some.injEq]

/-- The unit is the Kelvin sign, whose lower case is k. -/
example : ofText " +4 \u212a" = .ok 4096 := by decide +kernel

/-- The last of these would be 2 ^ 64 bytes. -/
example : ["4 0K", "-1", "1kk", "K", "18014398509481984K"].map ofText =
    ["4 0K", "-1", "1kk", "K", "18014398509481984K"].map (.error ∘ .badFormat) := by
  decide +kernel

end DataPlacement.Scenario.Size
