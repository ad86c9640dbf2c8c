import DataPlacement.Notice

namespace DataPlacement

/-- The result of an operation, the state after it, and its notices, oldest first. -/
structure Outcome (σ α : Type) where
  result : Except Error α
  state : σ
  notices : List Notice := []

namespace Outcome

variable {σ τ α : Type}

/-- A successful operation. -/
def done (value : α) (state : σ) (notices : List Notice := []) : Outcome σ α :=
  ⟨.ok value, state, notices⟩

/-- A refused operation. -/
def refused (cause : Error) (state : σ) (notices : List Notice := []) : Outcome σ α :=
  ⟨.error cause, state, notices⟩

/-- The same outcome, seen as one of a larger state. -/
def mapState (f : σ → τ) (o : Outcome σ α) : Outcome τ α :=
  ⟨o.result, f o.state, o.notices⟩

/-- The same outcome after earlier notices. -/
def after (earlier : List Notice) (o : Outcome σ α) : Outcome σ α :=
  { o with notices := earlier ++ o.notices }

end Outcome

end DataPlacement
