import DataPlacement.Proofs.Allocation.Holders
import DataPlacement.Proofs.Device.Runs

namespace DataPlacement.Device

open Allocation

variable {d : Device} {μ : Type} [Host.Memory μ]

/-- What a device tells of its lines: an erasure, or a write that was accepted. -/
inductive Event where
  | erased (line : LineId)
  | wrote (report : WriteReport)
  deriving DecidableEq

/-- An event line by line. -/
def Event.lineEvents : Event → List LineEvent
  | .erased id => [.erased id]
  | .wrote report => report.events

/-- The erasures that a request is noticed to make, and then its report. -/
def events (d : Device) (r : Request μ) : List Event :=
  ((d.perform r).2.filterMap Notice.erasedLine?).map .erased ++ (d.report? r).toList.map .wrote

/-- The events of a run, oldest first. -/
def history (d : Device) : List (Request μ) → List Event
  | [] => []
  | r :: rs => d.events r ++ (d.after r).history rs

theorem lineEvents_eq_flatMap (d : Device) (r : Request μ) :
    d.lineEvents r = (d.events r).flatMap Event.lineEvents := by
  have herased : ∀ ids : List LineId,
      (ids.map Event.erased).flatMap Event.lineEvents = ids.map LineEvent.erased := by
    intro ids
    rw [List.flatMap_map, List.map_eq_flatMap]
    rfl
  rw [lineEvents, events, List.flatMap_append, herased, erasures]
  cases d.report? r <;> simp [Event.lineEvents]

theorem lineHistory_eq_flatMap (d : Device) (rs : List (Request μ)) :
    d.lineHistory rs = (d.history rs).flatMap Event.lineEvents := by
  induction rs generalizing d with
  | nil => rfl
  | cons r rs ih => rw [lineHistory, history, List.flatMap_append, lineEvents_eq_flatMap, ih]

theorem erased_mem_flatMap {id : LineId} {es : List Event}
    (h : .erased id ∈ es.flatMap Event.lineEvents) : .erased id ∈ es := by
  obtain ⟨e, he, hmem⟩ := List.mem_flatMap.1 h
  cases e with
  | erased i =>
    obtain rfl : id = i := by simpa [Event.lineEvents] using hmem
    exact he
  | wrote report => simp [Event.lineEvents, WriteReport.events] at hmem

theorem erasuresOf_flatMap (id : LineId) (es : List Event) :
    erasuresOf id (es.flatMap Event.lineEvents) = es.count (.erased id) := by
  induction es with
  | nil => rfl
  | cons e es ih =>
    rw [List.flatMap_cons, erasuresOf_append, ih, List.count_cons, Nat.add_comm]
    congr 1
    cases e with
    | erased i => by_cases hi : i = id <;> simp [Event.lineEvents, erasuresOf, hi]
    | wrote report =>
      have hnone : erasuresOf id (Event.wrote report).lineEvents = 0 := report.erasuresOf_events id
      simp [hnone]

/-- Two reports that name a line, with no erasure of it in between, come from one writer. -/
theorem unit_eq_of_respected {h : Holders} {before between after : List Event}
    {r r' : WriteReport} {id : LineId}
    (hes : h.Respected ((before ++ .wrote r :: between ++ .wrote r' :: after).flatMap
      Event.lineEvents))
    (hid : id ∈ r.lines) (hid' : id ∈ r'.lines) (hkept : .erased id ∉ between) :
    r.unit = r'.unit := by
  obtain ⟨early, late, hlines⟩ := List.append_of_mem hid
  obtain ⟨early', late', hlines'⟩ := List.append_of_mem hid'
  have hsplit : (before ++ .wrote r :: between ++ .wrote r' :: after).flatMap Event.lineEvents =
      ((before.flatMap Event.lineEvents ++ early.map (.wrote r.unit)) ++ .wrote r.unit id ::
        (late.map (.wrote r.unit) ++ between.flatMap Event.lineEvents ++
          early'.map (.wrote r'.unit)) ++ [.wrote r'.unit id]) ++
        (late'.map (.wrote r'.unit) ++ after.flatMap Event.lineEvents) := by
    simp [Event.lineEvents, WriteReport.events, hlines, hlines']
  rw [hsplit, Holders.respected_append] at hes
  refine Holders.eq_of_respected hes.1 fun hmem => ?_
  have hbetween : LineEvent.erased id ∈ between.flatMap Event.lineEvents := by
    simpa using hmem
  exact hkept (erased_mem_flatMap hbetween)

/-- In every run from a fresh device, the erasures in the history are those that the lines count in
32 bits, and all reports that name a line with no erasure of it in between have the same unit, or
all of them none. -/
theorem unit_eq_of_same_cycle {g : Geometry} {params : Parameters} {clock : Clock}
    {fresh : Device} (hbuild : build g params clock = .ok fresh) (rs : List (Request μ)) :
    (∀ id < g.lines, ∃ l, (fresh.run rs).pool.lines[id]? = some l ∧
      l.erases = lowBits 32 ((fresh.history rs).count (.erased id))) ∧
    ∀ (before between after : List Event) (r r' : WriteReport) (id : LineId),
      fresh.history rs = before ++ .wrote r :: between ++ .wrote r' :: after →
      id ∈ r.lines → id ∈ r'.lines → .erased id ∉ between → r.unit = r'.unit := by
  have hfresh := sound_build hbuild
  have hsteps := (changes_run hfresh rs).steps
  rw [lineHistory_eq_flatMap] at hsteps
  constructor
  · intro id hid
    have hline : fresh.pool.lines[id]? = some {} := by
      simp [pool_build hbuild, Pool.erased, hid]
    obtain ⟨l, hafter, hevolves⟩ := evolves_of_steps hsteps hfresh.allocation id {} hline
    rw [erasuresOf_flatMap] at hevolves
    exact ⟨l, hafter, hevolves.erases.trans (worn_zero _)⟩
  · intro before between after r r' id hhistory hid hid' hkept
    obtain ⟨hrespected, -⟩ := held_of_steps (h := fun _ => none) hsteps hfresh.allocation
      fun _ _ hholder => by cases hholder
    rw [hhistory] at hrespected
    exact unit_eq_of_respected hrespected hid hid' hkept

/-- Line 1 holds data of unit 0 twice in one cycle, after placement was turned off and on. -/
theorem unit_eq_of_switched_run :
    ∃ fresh, build ⟨4, 2, 6, 1, by decide⟩ { handles := 2 } (.steady 0 1) = .ok fresh ∧
      ∃ r r' : WriteReport,
        fresh.history ([.enable, .write (.placed 0 3 0), .disable, .enable,
            .write (.placed 0 3 0), .write (.placed 0 3 0)] : List (Request Host.Window)) =
          [.wrote ⟨some 0, 0, 1, [0], []⟩] ++ .wrote r :: [] ++ .wrote r' :: [] ∧
        1 ∈ r.lines ∧ 1 ∈ r'.lines ∧ r.unit = r'.unit := by
  have hbuild : build ⟨4, 2, 6, 1, by decide⟩ { handles := 2 } (.steady 0 1) = .ok _ := rfl
  refine ⟨_, hbuild, ⟨some 0, 0, 1, [1], []⟩, ⟨some 0, 0, 1, [1], [1]⟩, ?_, ?_⟩
  · decide +kernel
  · have hid : 1 ∈ [1] := by decide
    refine ⟨hid, hid, ?_⟩
    refine (unit_eq_of_same_cycle hbuild ([.enable, .write (.placed 0 3 0), .disable, .enable,
      .write (.placed 0 3 0), .write (.placed 0 3 0)] : List (Request Host.Window))).2
      [.wrote ⟨some 0, 0, 1, [0], []⟩] [] [] _ _ 1 ?_ hid hid (by decide)
    decide +kernel

end DataPlacement.Device
