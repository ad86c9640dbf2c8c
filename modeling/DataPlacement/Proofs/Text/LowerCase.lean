import DataPlacement.Proofs.Text.Numbers
import DataPlacement.Text.LowerCase

namespace DataPlacement.Text

variable {text : List Char} {c : Char} {n : Nat}

/-- The ranges of the characters that a number and the white space around it have. -/
def numeralRanges : List (Nat × Nat) :=
  ('+'.toNat, '+'.toNat) :: ('0'.toNat, '9'.toNat) :: blankRanges

/-- The character may stand in a number or in the white space around it. -/
def InNumeral (c : Char) : Prop := ∃ range ∈ numeralRanges, range.1 ≤ c.toNat ∧ c.toNat ≤ range.2

instance : DecidablePred InNumeral := fun c =>
  inferInstanceAs (Decidable (∃ range ∈ numeralRanges, range.1 ≤ c.toNat ∧ c.toNat ≤ range.2))

theorem InNumeral.of_isBlank (h : isBlank c) : InNumeral c := by
  obtain ⟨range, hrange, hc⟩ := List.any_eq_true.1 h
  rw [Bool.and_eq_true, decide_eq_true_eq, decide_eq_true_eq] at hc
  exact ⟨range, by simp [numeralRanges, hrange], hc⟩

theorem InNumeral.of_isDigit (h : c.isDigit) : InNumeral c := by
  refine ⟨('0'.toNat, '9'.toNat), by simp [numeralRanges], ?_⟩
  rw [Char.isDigit, Bool.and_eq_true, decide_eq_true_eq, decide_eq_true_eq] at h
  exact h

theorem Numeral.inNumeral (h : Numeral text n) : ∀ c ∈ text, InNumeral c := by
  obtain ⟨sign, digits, rfl, hsign, -, hdigits, -⟩ := h
  intro c hc
  obtain hc | hc := List.mem_append.1 hc
  · have hplus : c = '+' := by
      obtain rfl | rfl := hsign
      · cases hc
      · exact List.mem_singleton.1 hc
    subst hplus
    decide
  · exact .of_isDigit (hdigits c hc)

theorem Trims.inNumeral {core : List Char} (h : Trims text core) (hcore : ∀ c ∈ core, InNumeral c) :
    ∀ c ∈ text, InNumeral c := by
  obtain ⟨⟨before, after, rfl, hbefore, hafter⟩, -, -⟩ := h
  intro c hc
  obtain hc | hc := List.mem_append.1 hc
  · obtain hc | hc := List.mem_append.1 hc
    · exact .of_isBlank (hbefore c hc)
    · exact hcore c hc
  · exact .of_isBlank (hafter c hc)

/-! ### Lower case -/

/-- Nothing in these ranges has another lower case, and nothing else has its lower case there. -/
theorem caseRuns_apart : ∀ r ∈ caseRuns, ∀ range ∈ numeralRanges,
    (r.last < range.1 ∨ range.2 < r.first) ∧
      (r.lower + (r.last - r.first) < range.1 ∨ range.2 < r.lower) := by
  decide +kernel

/-- A number that is no character stands for the character 0. -/
theorem toNat_ofNat_cases (n : Nat) : (Char.ofNat n).toNat = n ∨ (Char.ofNat n).toNat = 0 := by
  by_cases hvalid : n.isValidChar
  · left
    rw [Char.ofNat, dif_pos hvalid]
    rfl
  · right
    rw [Char.ofNat, dif_neg hvalid]
    rfl

theorem zero_lt_first : ∀ range ∈ numeralRanges, 0 < range.1 := by decide

theorem CaseRun.of_lower? {r : CaseRun} {m : Nat} (h : r.lower? m = some n) :
    r.first ≤ m ∧ m ≤ r.last ∧ n = r.lower + (m - r.first) := by
  unfold lower? at h
  split at h
  · next hinside => exact ⟨hinside.1, hinside.2.1, (Option.some.inj h).symm⟩
  · cases h

theorem lowerCase_of_inNumeral (h : InNumeral c) : lowerCase c = [c] := by
  have hdotted : c ≠ '\u0130' := by
    rintro rfl
    exact absurd h (by decide)
  have hnone : caseRuns.findSome? (·.lower? c.toNat) = none := by
    rw [List.findSome?_eq_none_iff]
    intro r hr
    obtain ⟨range, hrange, hfirst, hlast⟩ := h
    have hapart := (caseRuns_apart r hr range hrange).1
    exact if_neg (by omega)
  rw [lowerCase, if_neg hdotted, hnone]

/-- Such characters are the lower cases of themselves only. -/
theorem lowerCase_eq_self (h : ∀ x ∈ lowerCase c, InNumeral x) : lowerCase c = [c] := by
  unfold lowerCase at h ⊢
  by_cases hdotted : c = '\u0130'
  · rw [if_pos hdotted] at h
    exact absurd (h 'i' (by simp)) (by decide)
  · rw [if_neg hdotted] at h ⊢
    cases hfound : caseRuns.findSome? (·.lower? c.toNat) with
    | none => rfl
    | some n =>
      rw [hfound] at h
      obtain ⟨range, hrange, hfirst, hlast⟩ := h (Char.ofNat n) (by simp)
      obtain ⟨r, hr, hlower⟩ := List.exists_of_findSome?_eq_some hfound
      obtain ⟨hinside, hbound, rfl⟩ := CaseRun.of_lower? hlower
      have hapart := (caseRuns_apart r hr range hrange).2
      have hpositive := zero_lt_first range hrange
      obtain hvalid | hzero := toNat_ofNat_cases (r.lower + (c.toNat - r.first)) <;> omega

theorem lowerCase_cases (c : Char) : lowerCase c = ['i', '\u0307'] ∨ ∃ x, lowerCase c = [x] := by
  unfold lowerCase
  split
  · exact .inl rfl
  · split
    · exact .inr ⟨_, rfl⟩
    · exact .inr ⟨_, rfl⟩

theorem lower_of_inNumeral (h : ∀ c ∈ text, InNumeral c) : lower text = text := by
  induction text with
  | nil => rfl
  | cons c text ih =>
    obtain ⟨hc, htext⟩ := List.forall_mem_cons.1 h
    rw [lower, List.flatMap_cons, lowerCase_of_inNumeral hc]
    exact congrArg (c :: ·) (ih htext)

theorem lower_eq_self (h : ∀ x ∈ lower text, InNumeral x) : lower text = text := by
  induction text with
  | nil => rfl
  | cons c text ih =>
    rw [lower, List.flatMap_cons] at h ⊢
    obtain ⟨hc, htext⟩ := List.forall_mem_append.1 h
    rw [lowerCase_eq_self hc]
    exact congrArg (c :: ·) (ih htext)

end DataPlacement.Text
