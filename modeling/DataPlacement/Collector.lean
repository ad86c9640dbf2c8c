import DataPlacement.Pool.Moves

namespace DataPlacement

/-- A line that a pass may erase. -/
structure Candidate where
  id : LineId
  line : Line
  deriving DecidableEq

/-- How victims are ordered: the first entry of the ordered list is erased first. A policy is
expected to reorder its candidates and nothing else, but passes are defined for any. -/
structure VictimPolicy where
  name : String
  order : List Candidate → List Candidate

namespace VictimPolicy

/-- Earlier retirement first, then the smaller number. -/
def olderOrEqual (a b : Candidate) : Bool :=
  a.line.retiredAt < b.line.retiredAt ||
    (a.line.retiredAt == b.line.retiredAt && a.id ≤ b.id)

/-- No line stands behind a younger one. -/
def isByAge : List Candidate → Bool
  | a :: b :: rest => olderOrEqual a b && isByAge (b :: rest)
  | _ => true

/-- The candidates from the oldest to the youngest. Often they are in this order already. -/
def byAge (candidates : List Candidate) : List Candidate :=
  if isByAge candidates then candidates else candidates.mergeSort olderOrEqual

theorem olderOrEqual_trans {a b c : Candidate} (hab : olderOrEqual a b) (hbc : olderOrEqual b c) :
    olderOrEqual a c := by
  simp only [olderOrEqual, Bool.or_eq_true, decide_eq_true_eq, Bool.and_eq_true,
    beq_iff_eq] at hab hbc ⊢
  rcases hab with hab | ⟨hab, hid⟩ <;> rcases hbc with hbc | ⟨hbc, hid'⟩
  · exact .inl (Nat.lt_trans hab hbc)
  · exact .inl (hbc ▸ hab)
  · exact .inl (hab ▸ hbc)
  · exact .inr ⟨hab.trans hbc, Nat.le_trans hid hid'⟩

theorem pairwise_of_isByAge {candidates : List Candidate} (h : isByAge candidates) :
    candidates.Pairwise fun a b => olderOrEqual a b := by
  induction candidates with
  | nil => exact .nil
  | cons a rest ih =>
    cases rest with
    | nil => exact List.pairwise_singleton _ _
    | cons b rest =>
      simp only [isByAge, Bool.and_eq_true] at h
      have hrest := ih h.2
      refine .cons (fun c hc => ?_) hrest
      rcases List.mem_cons.1 hc with rfl | hc
      · exact h.1
      · exact olderOrEqual_trans h.1 ((List.pairwise_cons.1 hrest).1 c hc)

/-- Candidates that are in order already would not be moved by sorting them. -/
theorem byAge_eq_mergeSort (candidates : List Candidate) :
    byAge candidates = candidates.mergeSort olderOrEqual := by
  unfold byAge
  split
  · next h => exact (List.mergeSort_of_pairwise (pairwise_of_isByAge h)).symm
  · rfl

/-- Erases the line that became full first. -/
def oldestFirst : VictimPolicy where
  name := "oldest-first"
  order := byAge

/-- Erases the line that became full last. -/
def newestFirst : VictimPolicy where
  name := "newest-first"
  order candidates := (byAge candidates).reverse

/-- Names the oldest line twice in place of the second oldest, so that a pass which gets to the
second entry is refused there. -/
def repeating : VictimPolicy where
  name := "repeating"
  order candidates :=
    match byAge candidates with
    | first :: _ :: rest => first :: first :: rest
    | short => short

end VictimPolicy

/-- A line that was erased, with the owner whose list it went to. -/
structure Reclaimed where
  line : LineId
  owner : Option UnitId
  deriving DecidableEq

/-- Passes made, lines erased, and those of them that went to a reclaim unit. -/
structure CollectorTally where
  passes : Nat := 0
  lines : Nat := 0
  toUnits : Nat := 0
  deriving DecidableEq

/-- The tally after a pass that erased these lines. -/
def CollectorTally.add (t : CollectorTally) (erased : List Reclaimed) : CollectorTally where
  passes := t.passes + 1
  lines := t.lines + erased.length
  toUnits := t.toUnits + erased.countP (·.owner.isSome)

/-- The collector erases full lines. It never names a destination: where a line goes after its
erasure follows from its record. -/
structure Collector where
  policy : VictimPolicy := .oldestFirst
  tally : CollectorTally := {}

namespace Pool

/-- The line waits for its erasure and is wanted. -/
def isWantedFull (wanted : Candidate → Bool) (id : LineId) (l : Line) : Bool :=
  l.state = .full && wanted ⟨id, l⟩

/-- The wanted full lines among the first `count` ones, in front of `later` ones. -/
def fullLinesBelow (p : Pool) (wanted : Candidate → Bool) :
    (count : Nat) → (later : List Candidate) → List Candidate
  | 0, later => later
  | id + 1, later =>
    match p.lines[id]? with
    | none => fullLinesBelow p wanted id later
    | some l =>
      if isWantedFull wanted id l then fullLinesBelow p wanted id (⟨id, l⟩ :: later)
      else fullLinesBelow p wanted id later

/-- The wanted lines among those that wait for their erasure, in line order. -/
def fullLines (p : Pool) (wanted : Candidate → Bool) : List Candidate :=
  p.fullLinesBelow wanted p.lines.size []

theorem fullLinesBelow_eq (p : Pool) (wanted : Candidate → Bool) (count : Nat)
    (later : List Candidate) :
    p.fullLinesBelow wanted count later =
      ((p.numberedLines.take count).filter fun (id, l) => isWantedFull wanted id l).map
        (fun (id, l) => ⟨id, l⟩) ++ later := by
  induction count generalizing later with
  | zero => simp [fullLinesBelow]
  | succ id ih =>
    rw [fullLinesBelow, List.take_add_one]
    cases hline : p.lines[id]? with
    | none => simp [ih, numberedLines, hline]
    | some l => by_cases hwanted : isWantedFull wanted id l <;>
        simp [ih, numberedLines, hline, hwanted]

/-- The collector's view of the numbered lines. -/
theorem fullLines_eq (p : Pool) (wanted : Candidate → Bool) :
    p.fullLines wanted =
      (p.numberedLines.filter fun (id, l) => isWantedFull wanted id l).map
        fun (id, l) => ⟨id, l⟩ := by
  have hall : p.numberedLines.take p.lines.size = p.numberedLines :=
    List.take_of_length_le (by simp [numberedLines])
  rw [fullLines, fullLinesBelow_eq, hall, List.append_nil]

/-- The pool after a run of erasures, what was erased, and the refusal that ended the run
early, if one did. -/
structure Erasures where
  pool : Pool
  erased : List Reclaimed := []
  refusal : Option Error := none

/-- Erases lines in order up to the first one that is refused. -/
def eraseLines : List LineId → Pool → Erasures
  | [], p => { pool := p }
  | id :: rest, p =>
    match p.reclaim id with
    | ⟨.error cause, p, _⟩ => { pool := p, refusal := some cause }
    | ⟨.ok owner, p, _⟩ =>
      let e := eraseLines rest p
      { e with erased := ⟨id, owner⟩ :: e.erased }

end Pool

namespace Collector

/-- The lines that a pass sets out to erase: the first entries of the policy's order, as many
as the budget allows. No budget stands for no limit. -/
def victims (c : Collector) (p : Pool) (budget : Option Nat) (wanted : Candidate → Bool) :
    List LineId :=
  let ordered := c.policy.order (p.fullLines wanted)
  let chosen := match budget with
    | none => ordered
    | some n => ordered.take n
  chosen.map (·.id)

/-- One pass over the full lines that are wanted. Lines are chosen and ordered once, and
erasures made before a refusal stay made. -/
def collect (c : Collector) (p : Pool) (budget : Option Nat) (wanted : Candidate → Bool) :
    Outcome (Collector × Pool) (List Reclaimed) :=
  let e := p.eraseLines (c.victims p budget wanted)
  let c := { c with tally := c.tally.add e.erased }
  let notices := e.erased.map fun r => Notice.reclaimed r.line r.owner
  match e.refusal with
  | some cause => .refused cause (c, e.pool) notices
  | none =>
    .done e.erased (c, e.pool)
      (notices ++ [.passDone c.tally.passes e.erased.length c.policy.name])

end Collector

end DataPlacement
