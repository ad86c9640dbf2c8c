import DataPlacement.Proofs.Pool.Disowning
import DataPlacement.Proofs.Pool.Erasure
import DataPlacement.Proofs.Pool.Queue
import Mathlib.Data.List.Pairwise

namespace DataPlacement

/-- The retirement by which the line became full, if it is full. -/
def Line.age? (l : Line) : Option Nat := if l.state = .full then some l.retiredAt else none

theorem Line.age?_of_full {l : Line} (hstate : l.state = .full) : l.age? = some l.retiredAt :=
  if_pos hstate

theorem Line.age?_of_not_full {l : Line} (hstate : l.state ≠ .full) : l.age? = none :=
  if_neg hstate

namespace Pool

variable {p q r : Pool} {queue gone fresh ids : List LineId} {id i j : LineId} {l : Line}

/-- The age of a line; lines that are not full have none. -/
def ageOf (p : Pool) (id : LineId) : Option Nat := p.lines[id]?.bind Line.age?

theorem ageOf_eq (hline : p.lines[id]? = some l) : p.ageOf id = l.age? := by
  simp [ageOf, hline]

theorem isSome_ageOf : (p.ageOf id).isSome ↔ ∃ l, p.lines[id]? = some l ∧ l.state = .full := by
  unfold ageOf Line.age?
  cases p.lines[id]? with
  | none => simp
  | some l => by_cases hstate : l.state = .full <;> simp [hstate]

theorem ageOf_of_change {l' : Line}
    (hlines : ∀ i : LineId, q.lines[i]? = if id = i then some l' else p.lines[i]?) (i : LineId) :
    q.ageOf i = if id = i then l'.age? else p.ageOf i := by
  rw [ageOf, hlines]
  split <;> rfl

/-- Both lines are full, and the first one became full earlier. -/
def Precedes (p : Pool) (i j : LineId) : Prop :=
  ∃ a b, p.ageOf i = some a ∧ p.ageOf j = some b ∧ a < b

/-- The full lines, each behind those that became full before it. -/
structure Queued (p : Pool) (queue : List LineId) : Prop where
  mem : ∀ id, id ∈ queue ↔ (p.ageOf id).isSome
  sorted : queue.Pairwise p.Precedes
  bound : ∀ id age, p.ageOf id = some age → age ≤ p.retirements

namespace Queued

theorem nodup (h : p.Queued queue) : queue.Nodup := by
  refine h.sorted.imp fun {i j} hlt heq => ?_
  subst heq
  obtain ⟨a, b, ha, hb, hlt⟩ := hlt
  obtain rfl : a = b := Option.some.inj (ha.symm.trans hb)
  exact Nat.lt_irrefl a hlt

/-- No two lines became full at once. -/
theorem eq_of_age (h : p.Queued queue) (hi : i ∈ queue) (hj : j ∈ queue)
    (hage : p.ageOf i = p.ageOf j) : i = j := by
  by_contra hne
  have hsymm : Std.Symm fun i j => p.ageOf i ≠ p.ageOf j := ⟨fun _ _ h => h.symm⟩
  have hages : queue.Pairwise fun i j => p.ageOf i ≠ p.ageOf j := by
    refine h.sorted.imp fun ⟨a, b, ha, hb, hlt⟩ heq => ?_
    rw [ha, hb] at heq
    exact Nat.ne_of_lt hlt (Option.some.inj heq)
  exact hages.forall hi hj hne hage

end Queued

/-! ### What changes of a pool do to the queue -/

/-- From a pool to a later one, lines have left the queue, and others have joined it at its end. -/
def Shifts (p : Pool) (gone fresh : List LineId) (q : Pool) : Prop :=
  ∀ queue, p.Queued queue → q.Queued (queue.filter (· ∉ gone) ++ fresh)

theorem Queued.keep (h : p.Queued queue) (hkept : p.Shifts [] [] q) : q.Queued queue := by
  simpa using hkept queue h

theorem Queued.join (h : p.Queued queue) (hjoined : p.Shifts [] fresh q) :
    q.Queued (queue ++ fresh) := by
  simpa using hjoined queue h

namespace Shifts

/-- Where no age changed, the queue is as it was. -/
theorem of_ages (hages : ∀ id, q.ageOf id = p.ageOf id) (hretired : p.retirements ≤ q.retirements) :
    p.Shifts [] [] q := by
  intro queue h
  have hsame : q.ageOf = p.ageOf := funext hages
  have hprecedes : q.Precedes = p.Precedes := by
    unfold Precedes
    rw [hsame]
  refine ⟨?_, ?_, fun id age hage => ?_⟩
  · simpa [hsame] using h.mem
  · simpa [hprecedes] using h.sorted
  · rw [hages] at hage
    exact Nat.le_trans (h.bound id age hage) hretired

theorem refl (p : Pool) : p.Shifts [] [] p := of_ages (fun _ => rfl) (Nat.le_refl _)

/-- A line that becomes full joins the queue. -/
theorem of_retired (hidle : p.ageOf id = none)
    (hages : ∀ i, q.ageOf i = if id = i then some (p.retirements + 1) else p.ageOf i)
    (hretired : q.retirements = p.retirements + 1) : p.Shifts [] [id] q := by
  intro queue h
  have hout : id ∉ queue := by simp [h.mem, hidle]
  have hkept : ∀ i ∈ queue, q.ageOf i = p.ageOf i := by
    intro i hi
    rw [hages, if_neg]
    rintro rfl
    exact hout hi
  simp only [List.not_mem_nil, not_false_eq_true, decide_true, List.filter_true]
  refine ⟨fun i => ?_,
    List.pairwise_append.2 ⟨?_, List.pairwise_singleton _ _, fun i hi j hj => ?_⟩,
    fun i age hage => ?_⟩
  · rw [hages]
    by_cases hi : id = i
    · simp [hi]
    · simp [hi, Ne.symm hi, h.mem]
  · refine h.sorted.imp_of_mem fun {i j} hi hj hlt => ?_
    unfold Precedes at hlt ⊢
    rwa [hkept i hi, hkept j hj]
  · obtain rfl := List.mem_singleton.1 hj
    obtain ⟨age, hage⟩ := Option.isSome_iff_exists.1 ((h.mem i).1 hi)
    exact ⟨age, p.retirements + 1, (hkept i hi).trans hage, by rw [hages, if_pos rfl],
      Nat.lt_succ_of_le (h.bound i age hage)⟩
  · rw [hages] at hage
    rw [hretired]
    split at hage
    · exact Nat.le_of_eq (Option.some.inj hage).symm
    · exact Nat.le_succ_of_le (h.bound i age hage)

theorem append {later : List LineId} (h : p.Shifts gone fresh q) (h' : q.Shifts [] later r) :
    p.Shifts gone (fresh ++ later) r := by
  intro queue hqueue
  rw [← List.append_assoc]
  exact (h queue hqueue).join h'

theorem quiet (h : p.Shifts gone fresh q) (h' : q.Shifts [] [] r) : p.Shifts gone fresh r := by
  simpa using h.append h'

theorem after_quiet (h : p.Shifts [] [] q) (h' : q.Shifts gone fresh r) : p.Shifts gone fresh r :=
  fun queue hqueue => h' queue (hqueue.keep h)

end Shifts

/-- A change of one record that leaves the line full or not full, as it was. -/
theorem shifts_of_change (l' : Line) (hline : p.lines[id]? = some l)
    (hlines : ∀ i : LineId, q.lines[i]? = if id = i then some l' else p.lines[i]?)
    (hage : l'.age? = l.age?) (hretired : p.retirements ≤ q.retirements) : p.Shifts [] [] q := by
  refine .of_ages (fun i => ?_) hretired
  rw [ageOf_of_change hlines]
  split
  · next hi => rw [← hi, ageOf_eq hline, hage]
  · rfl

/-- A change of one record by which the line becomes full. -/
theorem shifts_of_filled {l' : Line} (hline : p.lines[id]? = some l)
    (hlines : ∀ i : LineId, q.lines[i]? = if id = i then some l' else p.lines[i]?)
    (hstate : l.state ≠ .full) (hage : l'.age? = some (p.retirements + 1))
    (hretired : q.retirements = p.retirements + 1) : p.Shifts [] [id] q := by
  refine .of_retired ?_ (fun i => ?_) hretired
  · rw [ageOf_eq hline, Line.age?_of_not_full hstate]
  · rw [ageOf_of_change hlines, hage]

/-! ### Moves -/

theorem shifts_program (p : Pool) (id : LineId) (pages : Nat) :
    p.Shifts [] [] (p.program id pages) := by
  refine .of_ages (fun i => ?_) (Nat.le_refl _)
  rw [ageOf, ageOf, getElem?_program]
  split
  · rw [Option.bind_map]
    rfl
  · rfl

theorem shifts_retire (hline : p.lines[id]? = some l) (hstate : l.state = .active) :
    p.Shifts [] [id] (p.retire id) :=
  shifts_of_filled hline (fun i => getElem?_retire i hline hstate) (by simp [hstate])
    (Line.age?_of_full rfl) (retirements_retire hline hstate)

theorem shifts_shareReserved (p : Pool) : p.Shifts [] [] p.shareReserved := by
  refine .of_ages (fun i => ?_) (Nat.le_of_eq p.retirements_shareReserved.symm)
  rw [ageOf, ageOf, getElem?_shareReserved]
  split
  · rw [Option.bind_map]
    rfl
  · rfl

/-- Of the lines that lose their owner, the current ones that were begun become full. -/
theorem shifts_disown (p : Pool) (id : LineId) :
    p.Shifts [] ([id].filter p.begun) (p.disown id) ∧
      (p.disown id).retirements = p.retirements + ([id].filter p.begun).length := by
  have hquiet (hnot : p.begun id = false) (hshifts : p.Shifts [] [] (p.disown id))
      (hretired : (p.disown id).retirements = p.retirements) :
      p.Shifts [] ([id].filter p.begun) (p.disown id) ∧
        (p.disown id).retirements = p.retirements + ([id].filter p.begun).length := by
    have hnone : [id].filter p.begun = [] := by simp [hnot]
    rw [hnone]
    exact ⟨hshifts, hretired⟩
  cases p.disowns id with
  | idle hunowned =>
    have hsame := disown_of_unowned hunowned
    refine hquiet ?_ (by rw [hsame]; exact .refl p) (by rw [hsame])
    cases hline : p.lines[id]? with
    | none => simp [begun, hline]
    | some l => simp [begun, hline, hunowned l hline]
  | inactive l u hline howner hstate =>
    have hdisown := disown_of_inactive hline howner hstate
    refine hquiet (by simp [begun, hline, hstate]) ?_ (by rw [hdisown]; rfl)
    refine shifts_of_change { l with owner := none } hline (fun i => ?_) rfl
      (by rw [hdisown]; exact Nat.le_refl _)
    rw [hdisown, getElem?_updateLine, ite_map_line hline]
  | untouched l u hline howner hstate hpages =>
    have hdisown := disown_of_untouched hline howner hstate hpages
    refine hquiet (by simp [begun, hline, hpages]) ?_ (by rw [hdisown]; rfl)
    refine shifts_of_change _ hline (getElem?_disown_of_untouched hline howner hstate hpages) ?_
      (by rw [hdisown]; exact Nat.le_refl _)
    rw [Line.age?_of_not_full (by simp), Line.age?_of_not_full (by simp [hstate])]
  | written l u hline howner hstate hpages =>
    have hbegun : [id].filter p.begun = [id] := by simp [begun, hline, howner, hstate, hpages]
    have hretired := retirements_disown_of_written hline howner hstate hpages
    rw [hbegun]
    exact ⟨shifts_of_filled hline (getElem?_disown_of_written hline howner hstate hpages)
      (by simp [hstate]) (Line.age?_of_full rfl) hretired, hretired⟩

theorem shifts_foldl_disown (p : Pool) (hnodup : ids.Nodup) :
    p.Shifts [] (ids.filter p.begun) (ids.foldl disown p) := by
  induction ids generalizing p with
  | nil => exact .refl p
  | cons id ids ih =>
    obtain ⟨hfresh, hnodup⟩ := List.nodup_cons.1 hnodup
    have hlater : ids.filter (p.disown id).begun = ids.filter p.begun := by
      refine List.filter_congr fun i hi => begun_congr ?_
      exact getElem?_disown_of_ne p fun heq => hfresh (heq ▸ hi)
    have hrest := ih (p.disown id) hnodup
    rw [hlater] at hrest
    rw [← List.singleton_append, List.filter_append]
    exact (p.shifts_disown id).1.append hrest

/-- The lines that are erased leave the queue. -/
theorem Erased.shifts (h : Erased p ids q) : p.Shifts ids [] q := by
  have hages : ∀ i, q.ageOf i = if i ∈ ids then none else p.ageOf i := by
    intro i
    rw [ageOf, h.lines]
    split
    · cases p.lines[i]? with
      | none => rfl
      | some l => exact Line.age?_of_not_full (by simp [Line.erase])
    · rfl
  intro queue hqueue
  rw [List.append_nil]
  refine ⟨fun i => ?_, ?_, fun i age hage => ?_⟩
  · by_cases hi : i ∈ ids <;> simp [hages, hi, hqueue.mem]
  · refine (hqueue.sorted.sublist List.filter_sublist).imp_of_mem fun {i j} hi hj hlt => ?_
    have hi : i ∉ ids := by simpa using (List.mem_filter.1 hi).2
    have hj : j ∉ ids := by simpa using (List.mem_filter.1 hj).2
    unfold Precedes at hlt ⊢
    rwa [hages, if_neg hi, hages, if_neg hj]
  · rw [hages] at hage
    split at hage
    · cases hage
    · rw [h.retirements]
      exact hqueue.bound i age hage

end Pool

/-! ### What the collector chooses -/

/-- The first entries of a list, as many as the budget allows. No budget stands for no limit. -/
def upTo (budget : Option Nat) (ids : List LineId) : List LineId :=
  match budget with
  | none => ids
  | some n => ids.take n

namespace Pool

variable {p : Pool} {queue : List LineId} {wanted : Candidate → Bool}

/-- The collector would erase the line if it is full. -/
def wants (p : Pool) (wanted : Candidate → Bool) (id : LineId) : Bool :=
  p.lines[id]?.any fun l => wanted ⟨id, l⟩

theorem mem_oldest_iff {id : LineId} :
    id ∈ p.oldest wanted ↔ (p.ageOf id).isSome ∧ p.wants wanted id := by
  rw [mem_oldest, isSome_ageOf, wants]
  cases p.lines[id]? <;> simp

/-- Both lines are full, and the first one became full no later. -/
def NoLater (p : Pool) (i j : LineId) : Prop :=
  ∃ a b, p.ageOf i = some a ∧ p.ageOf j = some b ∧ a ≤ b

theorem pairwise_oldest (p : Pool) (wanted : Candidate → Bool) :
    (p.oldest wanted).Pairwise p.NoLater := by
  have hage {c : Candidate} (hc : c ∈ VictimPolicy.byAge (p.fullLines wanted)) :
      p.ageOf c.id = some c.line.retiredAt := by
    have hfull : c ∈ p.fullLines wanted := (VictimPolicy.reorders_oldestFirst _).mem_iff.1 hc
    obtain ⟨hline, hstate, -⟩ := mem_fullLines.1 hfull
    rw [ageOf_eq hline, Line.age?_of_full hstate]
  rw [oldest, List.pairwise_map]
  refine (VictimPolicy.pairwise_byAge _).imp_of_mem fun {a b} ha hb hle => ?_
  refine ⟨_, _, hage ha, hage hb, ?_⟩
  simp only [VictimPolicy.olderOrEqual, Bool.or_eq_true, Bool.and_eq_true, decide_eq_true_eq,
    beq_iff_eq] at hle
  omega

/-- Sorted by age, the wanted full lines are in the order of the queue. -/
theorem Queued.oldest_eq (h : p.Queued queue) (wanted : Candidate → Bool) :
    p.oldest wanted = queue.filter (p.wants wanted) := by
  have hmem : ∀ id, id ∈ p.oldest wanted ↔ id ∈ queue.filter (p.wants wanted) := by
    intro id
    rw [mem_oldest_iff, List.mem_filter, h.mem]
  have hperm := (List.perm_ext_iff_of_nodup (p.nodup_oldest wanted) (h.nodup.filter _)).2 hmem
  have hsorted : (queue.filter (p.wants wanted)).Pairwise p.NoLater := by
    refine (h.sorted.sublist List.filter_sublist).imp fun ⟨a, b, ha, hb, hlt⟩ => ?_
    exact ⟨a, b, ha, hb, Nat.le_of_lt hlt⟩
  refine List.Perm.eq_of_pairwise (fun i j hi hj hij hji => ?_) (p.pairwise_oldest wanted) hsorted
    hperm
  obtain ⟨a, b, ha, hb, hab⟩ := hij
  obtain ⟨b', a', hb', ha', hba⟩ := hji
  obtain rfl : a = a' := Option.some.inj (ha.symm.trans ha')
  obtain rfl : b = b' := Option.some.inj (hb.symm.trans hb')
  refine h.eq_of_age (List.mem_filter.1 ((hmem i).1 hi)).1 (List.mem_filter.1 hj).1 ?_
  rw [ha, hb, Nat.le_antisymm hab hba]

end Pool

/-- Under the oldest-first policy a pass takes its victims from the head of the queue, as far as
they are wanted. -/
theorem Collector.victims_of_queued {c : Collector} {p : Pool} {queue : List LineId}
    (hc : c.policy = .oldestFirst) (h : p.Queued queue) (budget : Option Nat)
    (wanted : Candidate → Bool) :
    c.victims p budget wanted = upTo budget (queue.filter (p.wants wanted)) := by
  rw [← h.oldest_eq wanted]
  unfold victims
  rw [hc]
  cases budget with
  | none => rfl
  | some n => exact List.map_take

end DataPlacement
