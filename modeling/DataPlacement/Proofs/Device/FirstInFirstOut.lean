import DataPlacement.Proofs.Device.Periods
import DataPlacement.Proofs.Device.Retirements

namespace DataPlacement.Device

variable {d fresh : Device} {queue : List LineId} {μ : Type} [Host.Memory μ]

/-- The lines that become full by an action, in the order in which they do: those that a write
reports, the line that the plain path gives up when placement is turned on, and the lines that units
had begun when it is turned off. -/
def retiredBy (d : Device) : Action → List LineId
  | .write w => (d.write w).retired
  | .enable => if d.enabled then [] else d.path.pointer.line.toList
  | .disable =>
    if d.enabled then (List.range d.pool.lines.size).filter d.pool.begun else []
  | _ => []

/-- The lines of a queue that an action takes: a collection those that its budget allows, emptying a
unit those of the unit, and a write that counts a pass those of its writer. -/
def takenBy (d : Device) (queue : List LineId) : Action → List LineId
  | .gc budget => upTo budget queue
  | .reclaimUnit u => queue.filter (d.pool.ownerOf · = some u)
  | .write w =>
    if (d.write w).state.accounting.foregroundPasses = d.accounting.foregroundPasses then []
    else queue.filter (d.pool.ownerOf · = d.writerOf w)
  | _ => []

/-- A queue after an action. -/
def queueAct (d : Device) (queue : List LineId) (action : Action) : List LineId :=
  queue.filter (· ∉ d.takenBy queue action) ++ d.retiredBy action

/-- A queue after a run of requests. -/
def queueRun (d : Device) (queue : List LineId) : List (Request μ) → List LineId
  | [] => queue
  | r :: rs => (d.after r).queueRun (d.queueAct queue r.action) rs

theorem takenBy_ofToggle (d : Device) (queue : List LineId) (t : Toggle) :
    d.takenBy queue (.ofToggle t) = [] := by
  cases t <;> rfl

theorem takenBy_ofCode (d : Device) (queue : List LineId) (code : Nat) :
    d.takenBy queue (.ofCode code) = [] := by
  unfold Action.ofCode
  split
  · rfl
  · exact takenBy_ofToggle d queue _

/-! ### One request -/

section Step

variable (hd : d.Sound) (hc : d.collector.policy = .oldestFirst) (hq : d.pool.Queued queue)
include hd hc hq

theorem queued_write (w : WriteCommand) :
    (d.write w).state.pool.Queued (d.queueAct queue (.write w)) ∧
      erasures (d.write w).notices = (d.takenBy queue (.write w)).map .erased := by
  cases draws_write hd hc hq w with
  | spared hpasses hqueue herased =>
    have htaken : d.takenBy queue (.write w) = [] := if_pos hpasses
    rw [queueAct, htaken, herased]
    simpa [retiredBy] using hqueue
  | cleared hpasses hqueue herased =>
    have htaken : d.takenBy queue (.write w) =
        queue.filter (d.pool.ownerOf · = d.writerOf w) := if_neg (by omega)
    rw [queueAct, htaken, herased]
    exact ⟨hqueue, rfl⟩

omit hc in
theorem queued_enable (hp : d.Poised) :
    d.enable.state.pool.Queued (queue ++ d.retiredBy .enable) := by
  cases henabled : d.enabled with
  | true =>
    rw [enable_of_on henabled, retiredBy, if_pos henabled, List.append_nil]
    exact hq
  | false =>
    rw [retiredBy, if_neg (ne_true_of_eq_false henabled)]
    exact hq.join (shifts_enable hd hp henabled)

omit hc in
theorem queued_disable : d.disable.state.pool.Queued (queue ++ d.retiredBy .disable) := by
  cases henabled : d.enabled with
  | true =>
    rw [retiredBy, if_pos henabled]
    exact hq.join (shifts_disable hd henabled)
  | false =>
    rw [disable_of_off henabled, retiredBy, if_neg (ne_true_of_eq_false henabled), List.append_nil]
    exact hq

/-- The queue of the full lines goes on as the queue of the actions does. -/
theorem queued_act (hp : d.Poised) (action : Action) :
    (d.act action).pool.Queued (d.queueAct queue action) := by
  have hspared {fresh : List LineId} {p : Pool} (h : p.Queued (queue ++ fresh)) :
      p.Queued (queue.filter (· ∉ ([] : List LineId)) ++ fresh) := by simpa using h
  have hnone {gone : List LineId} {p : Pool} (h : p.Queued (queue.filter (· ∉ gone))) :
      p.Queued (queue.filter (· ∉ gone) ++ []) := by simpa using h
  cases action with
  | write w => exact (queued_write hd hc hq w).1
  | enable => exact hspared (queued_enable hd hq hp)
  | disable => exact hspared (queued_disable hd hq)
  | gc budget => exact hnone (gc_of_queued hd hc hq budget).2.1
  | reclaimUnit u => exact hnone (reclaimUnit_of_queued hd hc hq u).2.1
  | read | resetAccounting | trace | install | nothing =>
    have hsame : d.pool.Queued (queue ++ []) := by rwa [List.append_nil]
    exact hspared hsame

/-- A request reports the erasure of the lines that its action takes, in the order of the queue. -/
theorem erasures_perform (r : Request μ) :
    erasures (d.perform r).2 = (d.takenBy queue r.action).map .erased := by
  cases r with
  | toggle code =>
    rw [Request.action, takenBy_ofCode]
    exact erasures_toggle hd code
  | apply t =>
    rw [Request.action, takenBy_ofToggle]
    exact erasures_apply hd t
  | enable => exact erasures_apply hd .enablePlacement
  | disable => exact erasures_apply hd .disablePlacement
  | write w => exact (queued_write hd hc hq w).2
  | submitWrite block dword12 dword13 => exact (queued_write hd hc hq _).2
  | read blocks => exact d.erasures_read blocks
  | gc budget => exact (gc_of_queued hd hc hq budget).2.2
  | reclaimUnit u => exact (reclaimUnit_of_queued hd hc hq u).2.2
  | submitAdministrative memory opcode dword10 dword11 =>
    unfold perform submitAdministrative Request.action
    dsimp only
    split
    · exact erasures_readLog memory _
    · refine (erasures_toggle hd dword10).trans ?_
      exact (congrArg (List.map LineEvent.erased) (d.takenBy_ofCode queue dword10)).symm
    · next hlog htoggle =>
      split
      · exact absurd rfl htoggle
      · rfl
  | submitIo memory opcode dword10 dword11 dword12 dword13 =>
    unfold perform submitIo Request.action
    dsimp only
    split
    · exact (queued_write hd hc hq _).2
    · exact d.erasures_read _
    · rfl
    · rfl
    · next hwrite hread hreceive hsend =>
      split
      · exact absurd rfl hwrite
      · exact absurd rfl hread
      · rfl
  | install policy => rfl

end Step

/-! ### Runs -/

/-- The request installs no other policy than the oldest-first one. -/
def Request.Fair (r : Request μ) : Prop :=
  ∀ collector, r = .install collector → collector.policy = .oldestFirst

/-- What holds between requests while lines are collected in the order of their age. -/
structure Queueing (d : Device) (queue : List LineId) : Prop where
  sound : d.Sound
  poised : d.Poised
  policy : d.collector.policy = .oldestFirst
  queued : d.pool.Queued queue

theorem Queueing.after (h : Queueing d queue) {r : Request μ} (hr : r.Fair) :
    Queueing (d.after r) (d.queueAct queue r.action) where
  sound := (changes_after h.sound r).sound
  poised := by
    rw [after_eq_act]
    exact poised_act h.sound h.poised r.action
  policy := policy_after (P := (· = .oldestFirst)) h.sound h.policy hr
  queued := by
    rw [after_eq_act]
    exact queued_act h.sound h.policy h.queued h.poised r.action

theorem Queueing.run (h : Queueing d queue) {rs : List (Request μ)} (hrs : ∀ r ∈ rs, r.Fair) :
    Queueing (d.run rs) (d.queueRun queue rs) := by
  induction rs generalizing d queue with
  | nil => exact h
  | cons r rs ih =>
    obtain ⟨hr, hrest⟩ := List.forall_mem_cons.1 hrs
    exact ih (h.after hr) hrest

/-- At first no line is full. -/
theorem queueing_build {g : Geometry} {params : Parameters} {clock : Clock}
    (hbuild : build g params clock = .ok fresh) : Queueing fresh [] := by
  have hnone (id : LineId) : fresh.pool.ageOf id = none := by
    rw [pool_build hbuild, Pool.ageOf, Pool.erased, Array.getElem?_replicate]
    split <;> rfl
  exact ⟨sound_build hbuild, poised_build hbuild, policy_build hbuild,
    ⟨fun id => by simp [hnone], .nil, fun id age hage => by simp [hnone] at hage⟩⟩

/-- Under the oldest-first policy collection is first in, first out. At any time the full lines are
those of a queue in the order of their age. A request erases the lines that its action takes from
the queue, in the order of the queue, and then those that it makes full join the queue; a collection
answers the first lines, as far as its budget goes, and emptying a unit the number of its lines. -/
theorem first_in_first_out {g : Geometry} {params : Parameters} {clock : Clock}
    (hbuild : build g params clock = .ok fresh) {rs : List (Request μ)}
    (hrs : ∀ r ∈ rs, r.Fair) :
    let d := fresh.run rs
    let queue := fresh.queueRun [] rs
    d.pool.Queued queue ∧
      (∀ budget, (d.gc budget).result =
        .ok ((upTo budget queue).map fun id => ⟨id, d.pool.ownerOf id⟩)) ∧
      (∀ u, (d.reclaimUnit u).result =
        .ok (queue.filter (d.pool.ownerOf · = some u)).length) ∧
      ∀ r : Request μ, r.Fair →
        erasures (d.perform r).2 = (d.takenBy queue r.action).map .erased ∧
          (d.after r).pool.Queued (d.queueAct queue r.action) := by
  intro d queue
  have hall : Queueing d queue := (queueing_build hbuild).run hrs
  have ⟨hd, _, hc, hq⟩ := hall
  exact ⟨hq, fun budget => (gc_of_queued hd hc hq budget).1,
    fun u => (reclaimUnit_of_queued hd hc hq u).1,
    fun r hr => ⟨erasures_perform hd hc hq r, (hall.after hr).queued⟩⟩

/-- Lines become full by giving up, by writes to both units, and by turning placement off; the
second write to unit 1 has erased the lines of the first. -/
theorem first_in_first_out_of_all_retirements :
    ∃ fresh, build ⟨4, 2, 6, 1, by decide⟩ { handles := 2 } (.steady 0 1) = .ok fresh ∧
      let rs : List (Request Host.Window) := [.write (.plain 0 3), .enable,
        .write (.placed 0 19 0), .write (.placed 0 15 1), .write (.placed 0 7 1), .disable]
      let d := fresh.run rs
      let queue := fresh.queueRun [] rs
      (∀ r ∈ rs, r.Fair) ∧ queue = [0, 1, 2, 4, 3] ∧ d.pool.Queued queue ∧
        (d.gc (some 2)).result = .ok [⟨0, none⟩, ⟨1, none⟩] := by
  have hbuild : build ⟨4, 2, 6, 1, by decide⟩ { handles := 2 } (.steady 0 1) = .ok _ := rfl
  refine ⟨_, hbuild, ?_⟩
  intro rs d queue
  have hfair : ∀ r ∈ rs, r.Fair := by simp [rs, Request.Fair]
  obtain ⟨hqueued, hgc, -, -⟩ := first_in_first_out hbuild hfair
  exact ⟨hfair, by decide +kernel, hqueued, (hgc (some 2)).trans (by decide +kernel)⟩

end DataPlacement.Device
