import DataPlacement.Proofs.Device.Agreement
import DataPlacement.Proofs.Device.Runs

namespace DataPlacement.Device

variable {d e : Device} {u : UnitId} {μ : Type} [Host.Memory μ]

/-- What is done while placement stays as it is, apart from passes over all units. -/
inductive Operation where
  | write (w : WriteCommand)
  | read (blocks : Nat)
  | reclaimUnit (u : UnitId)
  | resetAccounting
  | startTrace
  | stopTrace
  deriving DecidableEq

/-- What an operation answers: the report of a write or its refusal, the number of lines that were
erased or the refusal to do so, and nothing of interest otherwise. -/
inductive Answer where
  | written (result : Except Error WriteReport)
  | emptied (result : Except Error Nat)
  | done

/-- The device after an operation. -/
def operate (d : Device) : Operation → Device
  | .write w => (d.write w).state
  | .read blocks => (d.read blocks).2.1
  | .reclaimUnit u => (d.reclaimUnit u).state
  | .resetAccounting => (d.apply .resetAccounting).state
  | .startTrace => (d.apply .startTrace).state
  | .stopTrace => (d.apply .stopTrace).state

def answer (d : Device) : Operation → Answer
  | .write w => .written (d.write w).result
  | .reclaimUnit u => .emptied (d.reclaimUnit u).result
  | _ => .done

def operateAll (d : Device) (os : List Operation) : Device := os.foldl operate d

/-- Every operation of a sequence with its answer. -/
def transcript (d : Device) : List Operation → List (Operation × Answer)
  | [] => []
  | o :: os => (o, d.answer o) :: (d.operate o).transcript os

/-- The operation is one on the unit: a placed write that leads to it, or its reclaim. -/
def concerns (d : Device) (u : UnitId) : Operation → Bool
  | .write w => d.places w &&
    match d.configuration.resolve (d.placementOf w) with
    | .ok v => v == u
    | .error _ => false
  | .reclaimUnit v => v == u
  | _ => false

/-- What a unit sees of the device: its record but for the time at which it was opened, its free
lines in order, the state, pages and erasures of each line that it owns, and its full lines by
age. -/
structure UnitView where
  unit : Option ReclaimUnit
  free : List LineId
  lines : List (LineId × LineView)
  queue : List LineId
  deriving DecidableEq

def view (d : Device) (u : UnitId) : UnitView where
  unit := (d.configuration.unit? u).map (·.unstamped)
  free := d.pool.freeLines (some u)
  lines := (List.range d.pool.lines.size).filterMap fun id =>
    ((d.pool.lineOf u id).map Line.view).map fun l => (id, l)
  queue := d.pool.queue u

theorem Agree.view (h : Agree u d e) : e.view u = d.view u := by
  simp only [Device.view, h.unit, h.pool.free, h.pool.size, h.pool.views, h.pool.queue]

/-! ### One operation -/

theorem concerns_write_iff {w : WriteCommand} :
    d.concerns u (.write w) ↔
      d.places w ∧ d.configuration.resolve (d.placementOf w) = .ok u := by
  simp only [concerns, Bool.and_eq_true]
  cases d.configuration.resolve (d.placementOf w) <;> simp

/-- Whom an operation concerns follows from what stays of a device. -/
theorem concerns_eq (hblank : e.configuration.blank = d.configuration.blank)
    (henabled : e.enabled = d.enabled) (u : UnitId) : e.concerns u = d.concerns u := by
  funext o
  cases o with
  | write w =>
    have hplaces : e.places w = d.places w := by rw [places, places, henabled]
    have hplacement : e.placementOf w = d.placementOf w := by
      have hsame := congrArg (fun c => c.placementOf w.identifier) hblank
      exact hsame
    simp only [concerns, hplaces, hplacement, Configuration.resolve_eq_of_blank hblank]
  | _ => rfl

/-- An operation is traffic on behalf of the unit that it concerns, or of the plain path. -/
theorem advances_operate {W : Option UnitId → Prop} (hd : d.Sound)
    (hpolicy : d.collector.policy.Reorders) (o : Operation) (hnone : W none)
    (hW : ∀ v, d.concerns v o → W (some v)) : ∃ es, Advances W d es (d.operate o) := by
  have hconfined : ∀ v, W (some v) → d.collector.Confined (fun c => c.line.isOwnedBy v) W := by
    intro v hv
    refine Collector.confined_of_reorders hpolicy fun candidate howned => ?_
    rw [(Line.isOwnedBy_iff _ _).1 howned]
    exact hv
  cases o with
  | write w =>
    refine ⟨_, advances_write hd (fun hplaced v htargets => ?_) fun _ => ⟨hnone, ?_⟩⟩
    · have hv := hW v (concerns_write_iff.2 ⟨hplaced, htargets.2.2.2⟩)
      exact ⟨hv, hconfined v hv⟩
    · refine Collector.confined_of_reorders hpolicy fun candidate hunowned => ?_
      rw [Option.isNone_iff_eq_none.1 hunowned]
      exact hnone
  | read blocks => exact ⟨[], .recount d _ d.tracing d.clock⟩
  | reclaimUnit v => exact ⟨_, advances_reclaimUnit hd (hconfined v (hW v (by simp [concerns])))⟩
  | resetAccounting => exact ⟨[], .recount d {} d.tracing d.clock⟩
  | startTrace => exact ⟨[], .recount d d.accounting true d.clock⟩
  | stopTrace => exact ⟨[], .recount d d.accounting false d.clock⟩

/-- An operation that does not concern a unit changes nothing that the unit sees. -/
theorem agree_operate (hd : d.Sound) (hpolicy : d.collector.policy = .oldestFirst) {o : Operation}
    (ho : d.concerns u o = false) : Agree u d (d.operate o) := by
  have hother : ∀ v, d.concerns v o → some v ≠ some u := by
    intro v hv heq
    rw [Option.some.inj heq, ho] at hv
    cases hv
  obtain ⟨es, hadvances⟩ := advances_operate (W := fun owner => owner ≠ some u) hd
    (reorders_of_oldestFirst hpolicy) o (by simp) hother
  exact hadvances.agree (by simp) hd

/-- An operation on a unit is answered alike by devices that agree on it. -/
theorem Agree.operate (h : Agree u d e) (hd : d.Sound) (he : e.Sound)
    (hpolicy : d.collector.policy = .oldestFirst) {o : Operation} (ho : d.concerns u o) :
    e.answer o = d.answer o ∧ Agree u (d.operate o) (e.operate o) := by
  cases o with
  | write w =>
    obtain ⟨hplaced, hresolve⟩ := concerns_write_iff.1 ho
    obtain ⟨hresult, hagree⟩ := h.write hd he hpolicy hplaced hresolve
    exact ⟨congrArg Answer.written hresult, hagree⟩
  | reclaimUnit v =>
    obtain rfl : v = u := by simpa [concerns] using ho
    obtain ⟨hresult, hagree⟩ := h.reclaimUnit hd he hpolicy
    exact ⟨congrArg Answer.emptied hresult, hagree⟩
  | read | resetAccounting | startTrace | stopTrace => cases ho

/-! ### Sequences of operations -/

/-- A unit cannot tell a sequence of operations from the part of it that concerns the unit. -/
theorem Agree.operateAll (h : Agree u d e) (hd : d.Sound) (he : e.Sound)
    (hpolicy : d.collector.policy = .oldestFirst) (os : List Operation) :
    (d.transcript os).filter (fun entry => d.concerns u entry.1) =
        e.transcript (os.filter (d.concerns u)) ∧
      Agree u (d.operateAll os) (e.operateAll (os.filter (d.concerns u))) := by
  induction os generalizing d e with
  | nil => exact ⟨rfl, h⟩
  | cons o os ih =>
    obtain ⟨es, hadvances⟩ := advances_operate (W := fun _ => True) hd
      (reorders_of_oldestFirst hpolicy) o trivial fun _ _ => trivial
    have hpolicy' := hadvances.policy.trans hpolicy
    have hconcerns := concerns_eq hadvances.blank hadvances.enabled u
    cases ho : d.concerns u o with
    | false =>
      have hnext := (agree_operate hd hpolicy ho).symm.trans h
      have hrest := ih hnext (hadvances.sound hd) he hpolicy'
      rw [hconcerns] at hrest
      simpa [transcript, Device.operateAll, ho] using hrest
    | true =>
      obtain ⟨es', hadvances'⟩ := advances_operate (W := fun _ => True) he
        (reorders_of_oldestFirst (h.policy.trans hpolicy)) o trivial fun _ _ => trivial
      obtain ⟨hanswer, hnext⟩ := h.operate hd he hpolicy ho
      have hrest := ih hnext (hadvances.sound hd) (hadvances'.sound he) hpolicy'
      rw [hconcerns] at hrest
      simpa [transcript, Device.operateAll, ho, hanswer] using hrest

/-- From a device that collects oldest-first, take two sequences of operations that are the same
as far as a unit is concerned. The unit sees the same after both, and each of its operations is
answered in the same way in both. -/
theorem view_eq_of_same_operations (hreach : Reachable μ d)
    (hpolicy : d.collector.policy = .oldestFirst) (u : UnitId) {os os' : List Operation}
    (hsame : os.filter (d.concerns u) = os'.filter (d.concerns u)) :
    (d.operateAll os).view u = (d.operateAll os').view u ∧
      (d.transcript os).filter (fun entry => d.concerns u entry.1) =
        (d.transcript os').filter fun entry => d.concerns u entry.1 := by
  have hd := hreach.sound
  obtain ⟨hanswers, hview⟩ := (Agree.refl (u := u) hd).operateAll hd hd hpolicy os
  obtain ⟨hanswers', hview'⟩ := (Agree.refl (u := u) hd).operateAll hd hd hpolicy os'
  rw [hsame] at hanswers hview
  exact ⟨(hview'.trans hview.symm).view, hanswers.trans hanswers'.symm⟩

/-- Unit 0 fills its lines and erases one of them to write on it again, whether or not unit 1 has
done the same before and the plain path was refused. -/
theorem view_eq_of_busy_neighbour :
    ∃ fresh, build ⟨4, 2, 6, 1, by decide⟩ { handles := 2 } (.steady 0 1) = .ok fresh ∧
      let d := fresh.run ([.enable] : List (Request Host.Window))
      let os : List Operation := [.write (.placed 0 11 0), .write (.placed 0 23 1),
        .write (.placed 0 3 1), .write (.plain 0 3), .reclaimUnit 1, .read 1,
        .write (.placed 0 15 0)]
      let os' : List Operation := [.write (.placed 0 11 0), .write (.placed 0 15 0)]
      d.collector.policy = .oldestFirst ∧ os.filter (d.concerns 0) = os'.filter (d.concerns 0) ∧
        (d.operateAll os).view 0 = (d.operateAll os').view 0 ∧
        (d.transcript os).filter (fun entry => d.concerns 0 entry.1) =
          (d.transcript os').filter fun entry => d.concerns 0 entry.1 := by
  have hbuild : build ⟨4, 2, 6, 1, by decide⟩ { handles := 2 } (.steady 0 1) = .ok _ := rfl
  refine ⟨_, hbuild, ?_⟩
  intro d os os'
  have hreach : Reachable Host.Window d := ⟨_, _, _, _, hbuild, _, rfl⟩
  have hpolicy : d.collector.policy = .oldestFirst := congrArg Collector.policy (collector_enable _)
  have hsame : os.filter (d.concerns 0) = os'.filter (d.concerns 0) := by decide +kernel
  exact ⟨hpolicy, hsame, view_eq_of_same_operations hreach hpolicy 0 hsame⟩

end DataPlacement.Device
