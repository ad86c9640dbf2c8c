namespace DataPlacement

variable {σ ε : Type}

/-- From the first state to the last one by steps, which emit the events in between. -/
inductive Steps (step : σ → List ε → σ → Prop) : σ → List ε → σ → Prop where
  | refl (s : σ) : Steps step s [] s
  | tail {s t u : σ} {es fs : List ε} :
      Steps step s es t → step t fs u → Steps step s (es ++ fs) u

namespace Steps

variable {step step' : σ → List ε → σ → Prop} {s t u : σ} {es fs : List ε}

theorem single (h : step s es t) : Steps step s es t := by
  simpa using (Steps.refl s).tail h

theorem trans (h : Steps step s es t) (h' : Steps step t fs u) : Steps step s (es ++ fs) u := by
  induction h' with
  | refl => simpa using h
  | tail _ hstep ih =>
    rw [← List.append_assoc]
    exact ih.tail hstep

theorem mono (himp : ∀ s es t, step s es t → step' s es t) (h : Steps step s es t) :
    Steps step' s es t := by
  induction h with
  | refl => exact .refl _
  | tail _ hstep ih => exact ih.tail (himp _ _ _ hstep)

/-- What every step keeps holds after a run. -/
theorem preserves {P : σ → Prop} (hstep : ∀ s es t, P s → step s es t → P t)
    (h : Steps step s es t) (hs : P s) : P t := by
  induction h with
  | refl => exact hs
  | tail _ h ih => exact hstep _ _ _ ih h

end Steps

end DataPlacement
