import DataPlacement.Arithmetic
import DataPlacement.Text.Basic
import Mathlib.Data.List.DropRight
import Mathlib.Data.Nat.Digits.Defs

namespace DataPlacement.Text

variable {text core : List Char} {n : Nat}

/-! ### White space -/

/-- The text is the core with white space around it, and the core has none at its ends. -/
structure Trims (text core : List Char) : Prop where
  around : ∃ before after, text = before ++ core ++ after ∧
    (∀ c ∈ before, isBlank c) ∧ ∀ c ∈ after, isBlank c
  head : ∀ c ∈ core.head?, isBlank c = false
  last : ∀ c ∈ core.getLast?, isBlank c = false

theorem dropWhile_of_head (h : ∀ c ∈ text.head?, isBlank c = false) :
    text.dropWhile isBlank = text := by
  cases text with
  | nil => rfl
  | cons c rest =>
    have hc : isBlank c = false := h c rfl
    exact List.dropWhile_cons_of_neg (by rw [hc]; decide)

/-- The white space in front is dropped first, and then that behind. -/
theorem trim_append {before after : List Char} (hbefore : ∀ c ∈ before, isBlank c)
    (hafter : ∀ c ∈ after, isBlank c) (hhead : ∀ c ∈ core.head?, isBlank c = false)
    (hlast : ∀ c ∈ core.getLast?, isBlank c = false) : trim (before ++ core ++ after) = core := by
  have hbehind : ∀ c ∈ after.reverse, isBlank c := fun c hc => hafter c (List.mem_reverse.1 hc)
  have hreversed : ∀ c ∈ core.reverse.head?, isBlank c = false := by
    rwa [List.head?_reverse]
  rw [trim, List.append_assoc, List.dropWhile_append_of_pos hbefore]
  cases core with
  | nil =>
    have hnothing : (after ++ []).dropWhile isBlank = [] := List.dropWhile_append_of_pos hafter
    rw [List.append_nil] at hnothing
    rw [List.nil_append, hnothing]
    rfl
  | cons c rest =>
    have hfront : ∀ c' ∈ (c :: rest ++ after).head?, isBlank c' = false := hhead
    rw [dropWhile_of_head hfront, List.reverse_append, List.dropWhile_append_of_pos hbehind,
      dropWhile_of_head hreversed, List.reverse_reverse]

theorem isBlank_of_head_dropWhile {c : Char} (h : (text.dropWhile isBlank).head? = some c) :
    isBlank c = false := by
  have hhead := List.head?_dropWhile_not isBlank text
  rwa [h] at hhead

/-- Trimming removes the white space around a text, all of it and nothing else. -/
theorem trims_iff : Trims text core ↔ trim text = core := by
  constructor
  · rintro ⟨⟨before, after, rfl, hbefore, hafter⟩, hhead, hlast⟩
    exact trim_append hbefore hafter hhead hlast
  · rintro rfl
    have hcore : trim text = (text.dropWhile isBlank).rdropWhile isBlank := rfl
    refine ⟨⟨text.takeWhile isBlank, (text.dropWhile isBlank).rtakeWhile isBlank, ?_,
      fun c hc => List.mem_takeWhile_imp hc, fun c hc => List.mem_rtakeWhile_imp hc⟩, ?_, ?_⟩
    · rw [hcore, List.append_assoc, List.rdropWhile_append_rtakeWhile,
        List.takeWhile_append_dropWhile]
    · intro c hc
      obtain ⟨behind, hbody⟩ : trim text <+: text.dropWhile isBlank :=
        List.rdropWhile_prefix isBlank _
      obtain ⟨rest, hrest⟩ := List.head?_eq_some_iff.1 hc
      apply isBlank_of_head_dropWhile
      rw [← hbody, hrest]
      rfl
    · intro c hc
      rw [trim, List.getLast?_reverse] at hc
      exact isBlank_of_head_dropWhile hc

/-! ### Numbers -/

/-- The text is a number in decimal: digits, at least one, with a plus sign before them or not. -/
def Numeral (text : List Char) (n : Nat) : Prop :=
  ∃ sign digits, text = sign ++ digits ∧ (sign = [] ∨ sign = ['+']) ∧ digits ≠ [] ∧
    (∀ c ∈ digits, c.isDigit) ∧ n = Nat.ofDigits 10 (digits.reverse.map (·.toNat - '0'.toNat))

theorem digitsValue_eq_ofDigits (digits : List Char) :
    digitsValue digits = Nat.ofDigits 10 (digits.reverse.map (·.toNat - '0'.toNat)) := by
  induction digits using List.reverseRecOn with
  | nil => rfl
  | append_singleton digits c ih =>
    have hlast : digitsValue (digits ++ [c]) = 10 * digitsValue digits + (c.toNat - '0'.toNat) := by
      rw [digitsValue, List.foldl_append]
      rfl
    rw [hlast, ih, List.reverse_append, List.map_append, List.reverse_singleton, List.map_singleton,
      List.singleton_append, Nat.ofDigits_cons, Nat.add_comm]

/-- Reads digits without a sign. -/
def digits? (digits : List Char) : Option Nat :=
  if digits.isEmpty || !digits.all Char.isDigit then none
  else if digitsValue digits < bitRange 64 then some (digitsValue digits) else none

theorem digits?_eq_some_iff {digits : List Char} :
    digits? digits = some n ↔
      (digits ≠ [] ∧ (∀ c ∈ digits, c.isDigit) ∧
        n = Nat.ofDigits 10 (digits.reverse.map (·.toNat - '0'.toNat))) ∧ n < bitRange 64 := by
  have hform : (digits.isEmpty || !digits.all Char.isDigit) = true ↔
      ¬ (digits ≠ [] ∧ ∀ c ∈ digits, c.isDigit) := by
    rw [Bool.or_eq_true, List.isEmpty_iff, Bool.not_eq_true', ← Bool.not_eq_true,
      List.all_eq_true, not_and_or, not_ne_iff]
  rw [digits?, ← digitsValue_eq_ofDigits]
  by_cases hdigits : digits ≠ [] ∧ ∀ c ∈ digits, c.isDigit
  · rw [if_neg (fun hfails => hform.1 hfails hdigits)]
    by_cases hfits : digitsValue digits < bitRange 64
    · rw [if_pos hfits, Option.some.injEq]
      constructor
      · rintro rfl
        exact ⟨⟨hdigits.1, hdigits.2, rfl⟩, hfits⟩
      · rintro ⟨⟨-, -, rfl⟩, -⟩
        rfl
    · rw [if_neg hfits]
      refine iff_of_false (by simp) ?_
      rintro ⟨⟨-, -, rfl⟩, hn⟩
      exact hfits hn
  · rw [if_pos (hform.2 hdigits)]
    refine iff_of_false (by simp) ?_
    rintro ⟨⟨hsome, hall, -⟩, -⟩
    exact hdigits ⟨hsome, hall⟩

theorem number?_plus (digits : List Char) : number? ('+' :: digits) = digits? digits := rfl

theorem number?_of_no_plus (h : text.head? ≠ some '+') : number? text = digits? text := by
  unfold number?
  split
  · next hplus => exact absurd rfl h
  · rfl

/-- A number is read if it is written in decimal and has 64 bits, and in no other case. -/
theorem number?_eq_some_iff : number? text = some n ↔ Numeral text n ∧ n < bitRange 64 := by
  by_cases hplus : text.head? = some '+'
  · obtain ⟨digits, rfl⟩ := List.head?_eq_some_iff.1 hplus
    rw [number?_plus, digits?_eq_some_iff]
    constructor
    · rintro ⟨hdigits, hfits⟩
      exact ⟨⟨['+'], digits, rfl, .inr rfl, hdigits⟩, hfits⟩
    · rintro ⟨⟨sign, digits', htext, rfl | rfl, hdigits⟩, hfits⟩
      · -- Without a sign the plus would have to be a digit.
        obtain ⟨-, hall, -⟩ := hdigits
        have hdigit := hall '+' (by rw [← List.nil_append digits', ← htext]; simp)
        exact absurd hdigit (by decide)
      · obtain rfl : digits = digits' := (List.cons.inj htext).2
        exact ⟨hdigits, hfits⟩
  · rw [number?_of_no_plus hplus, digits?_eq_some_iff]
    constructor
    · rintro ⟨hdigits, hfits⟩
      exact ⟨⟨[], text, rfl, .inl rfl, hdigits⟩, hfits⟩
    · rintro ⟨⟨sign, digits, rfl, rfl | rfl, hdigits⟩, hfits⟩
      · exact ⟨hdigits, hfits⟩
      · exact absurd rfl hplus

end DataPlacement.Text
