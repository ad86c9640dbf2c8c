import DataPlacement.Proofs.Device.Rest
import DataPlacement.Proofs.Pool.Interruption
import DataPlacement.Proofs.Pool.Wear

namespace DataPlacement.Device

open Allocation

variable {d e e' : Device} {u v : UnitId} {before : ReclaimUnit} {W : Option UnitId → Prop}

/-! ### Erased lines -/

/-- A line that the unit owns has another erase count on a later device. -/
def ErasedFor (d e : Device) (u : UnitId) : Prop :=
  ∃ id, d.pool.ownerOf id = some u ∧ e.pool.erasesOf id ≠ d.pool.erasesOf id

/-- The unit is full. -/
def FullAt (d : Device) (u : UnitId) : Prop :=
  ∃ unit, d.configuration.unit? u = some unit ∧ unit.state = .full

/-- Erasing a line once changes its count, also where the count starts over. -/
theorem erasedFor_iff_of_erased {ids : List LineId} (h : d.pool.Erased ids e.pool) :
    d.ErasedFor e u ↔ ∃ id ∈ ids, d.pool.ownerOf id = some u := by
  constructor
  · rintro ⟨id, howner, hcount⟩
    refine ⟨id, ?_, howner⟩
    by_contra hid
    rw [Pool.erasesOf, Pool.erasesOf, h.lines, if_neg hid] at hcount
    exact hcount rfl
  · rintro ⟨id, hid, howner⟩
    obtain ⟨l, hline, -⟩ := Option.bind_eq_some_iff.1 howner
    have hline' : e.pool.lines[id]? = some l.erase := by rw [h.lines, if_pos hid, hline]; rfl
    refine ⟨id, howner, ?_⟩
    rw [Pool.erasesOf_eq hline, Pool.erasesOf_eq hline']
    exact advance_ne (by decide) (by decide)

/-- Nothing is erased on the way from a device to a later one. -/
def Spares (W : Option UnitId → Prop) (d e : Device) : Prop :=
  ∃ es, Advances W d es e ∧ ∀ id, LineEvent.erased id ∉ es

theorem Spares.erasesOf (h : Spares W d e) (hd : d.Sound) (id : LineId) :
    e.pool.erasesOf id = d.pool.erasesOf id := by
  obtain ⟨es, hadvances, hquiet⟩ := h
  cases hline : d.pool.lines[id]? with
  | none =>
    have hline' : e.pool.lines[id]? = none := by
      rw [Array.getElem?_eq_none_iff] at hline ⊢
      rwa [hadvances.keeps.size]
    rw [Pool.erasesOf, Pool.erasesOf, hline, hline']
  | some l =>
    obtain ⟨l', hline', hself⟩ :=
      evolves_of_steps (steps_move_of_traffic hadvances.steps) hd.allocation id l hline
    have hnone : erasuresOf id es = 0 := List.count_eq_zero.2 (hquiet id)
    rw [Pool.erasesOf_eq hline]
    exact (Pool.erasesOf_eq hline').trans (hself.erases.trans (by rw [hnone]; rfl))

theorem Spares.erasedFor_iff (h : Spares W e e') (he : e.Sound) :
    d.ErasedFor e' u ↔ d.ErasedFor e u := by
  simp only [ErasedFor, h.erasesOf he]

theorem Spares.not_erasedFor (h : Spares W d e) (hd : d.Sound) : ¬ d.ErasedFor e u := by
  rw [h.erasedFor_iff hd]
  rintro ⟨id, -, hcount⟩
  exact hcount rfl

theorem spares_plainOnce {block bytes : Nat} (hd : d.Sound) :
    Spares (fun o => o = none) d (d.plainOnce block bytes).state := by
  obtain ⟨cause, honce⟩ | ⟨r, -, -, -, -, honce⟩ := plainOnce_cases block hd bytes
  · rw [honce]
    exact ⟨[], .refl d, by simp⟩
  · rw [honce]
    exact ⟨_, advances_plainFilled hd rfl, by simp⟩

theorem spares_routeOnce {placement : Placement} {block bytes : Nat} (hd : d.Sound) (now : Nat) :
    Spares (fun _ => True) d (d.routeOnce placement block bytes now).state := by
  obtain ⟨cause, notices, honce⟩ | ⟨v, unit, r, notices, htargets, -, hunit, -, honce⟩ :=
    routeOnce_cases block now hd placement bytes
  · rw [honce]
    exact ⟨[], .refl d, by simp⟩
  · rw [honce]
    exact ⟨_, advances_filled now hd htargets.1 trivial hunit, by simp⟩

/-! ### Passes -/

/-- A pass erases the first of its victims, and all of them unless it is refused. -/
theorem exists_pass (d : Device) (budget : Option Nat) (wanted : Candidate → Bool) :
    ∃ done left, d.collector.victims d.pool budget wanted = done ++ left ∧
      d.pool.Erased done (d.pass budget wanted).state.pool ∧
      (left = [] ∧ (d.pass budget wanted).result =
          .ok (done.map fun id => ⟨id, d.pool.ownerOf id⟩) ∨
        left ≠ [] ∧ ∃ cause, (d.pass budget wanted).result = .error cause) := by
  obtain ⟨done, left, hvictims, -, -, herased, hpool, hrefusal⟩ :=
    d.pool.exists_erased (d.collector.victims d.pool budget wanted)
  rw [← Collector.state_collect] at hpool
  refine ⟨done, left, hvictims, hpool, ?_⟩
  change left = [] ∧ (d.collector.collect d.pool budget wanted).result = _ ∨
    left ≠ [] ∧ ∃ cause, (d.collector.collect d.pool budget wanted).result = .error cause
  cases hcause : (d.pool.eraseLines (d.collector.victims d.pool budget wanted)).refusal with
  | none =>
    refine .inl ⟨hrefusal.1 hcause, ?_⟩
    simp only [Collector.collect, hcause, herased, Outcome.done]
  | some cause =>
    refine .inr ⟨fun hleft => ?_, cause, ?_⟩
    · rw [hrefusal.2 hleft] at hcause
      cases hcause
    · simp only [Collector.collect, hcause, Outcome.refused]

/-- Erasures give a unit its lines back, and nothing is left unsaid about its free lines. -/
theorem freeLines_pass (budget : Option Nat) (wanted : Candidate → Bool) (u : UnitId) :
    ∃ given, (d.pass budget wanted).state.pool.freeLines (some u) =
        d.pool.freeLines (some u) ++ given ∧
      (given = [] ↔ ¬ d.ErasedFor (d.pass budget wanted).state u) := by
  obtain ⟨done, left, -, hpool, -⟩ := d.exists_pass budget wanted
  refine ⟨_, hpool.freeLines (some u), ?_⟩
  rw [erasedFor_iff_of_erased hpool]
  simp [List.filter_eq_nil_iff]

/-- What a pass erased, it names together with the owner. -/
theorem erasedFor_pass_iff {budget : Option Nat} {wanted : Candidate → Bool}
    {erased : List Reclaimed} (hok : (d.pass budget wanted).result = .ok erased) :
    d.ErasedFor (d.pass budget wanted).state u ↔ ∃ r ∈ erased, r.owner = some u := by
  obtain ⟨done, left, -, hpool, ⟨-, hresult⟩ | ⟨-, cause, hresult⟩⟩ :=
    d.exists_pass budget wanted
  · obtain rfl := Except.ok.inj (hresult.symm.trans hok)
    rw [erasedFor_iff_of_erased hpool]
    simp
  · rw [hok] at hresult
    cases hresult

/-- A refused pass leaves full those full units that got a line back. -/
theorem restedAt_pass_iff (budget : Option Nat) (wanted : Candidate → Bool) (u : UnitId) :
    (d.pass budget wanted).state.RestedAt u ↔
      d.RestedAt u ∧ ¬ (d.FullAt u ∧ d.ErasedFor (d.pass budget wanted).state u) := by
  obtain ⟨given, hfree, hnone⟩ := freeLines_pass budget wanted u
  constructor
  · intro hrested
    refine ⟨fun unit hunit hfull => ?_, fun ⟨⟨unit, hunit, hfull⟩, herased⟩ => ?_⟩
    · exact (List.append_eq_nil_iff.1 (hfree.symm.trans (hrested unit hunit hfull))).1
    · have hgiven := (List.append_eq_nil_iff.1 (hfree.symm.trans (hrested unit hunit hfull))).2
      exact hnone.1 hgiven herased
  · rintro ⟨hrested, hspared⟩ unit hunit hfull
    have hkept : ¬ d.ErasedFor (d.pass budget wanted).state u :=
      fun herased => hspared ⟨⟨unit, hunit, hfull⟩, herased⟩
    rw [hfree, hnone.2 hkept, List.append_nil]
    exact hrested unit hunit hfull

/-! ### Opening again -/

/-- A unit that is asked to open again does so if it is full and has a free line. Otherwise it stays
as it is, and so does every other unit. -/
theorem unit?_rearm (now : Nat) (hunit : d.configuration.unit? v = some before) :
    let e := (d.onUnits fun c p => c.rearm p u now).state
    (e.configuration.unit? v = some before ∧
        e.pool.freeLines (some v) = d.pool.freeLines (some v) ∧
        (u = v → before.state = .full → d.pool.freeLines (some v) = [])) ∨
      (u = v ∧ before.state = .full ∧
        ∃ id, e.configuration.unit? v = some (before.openOn id now)) := by
  have hrested : u = v → (d.onUnits fun c p => c.rearm p u now).state.RestedAt v :=
    fun huv => restedAt_rearm now (.inl huv.symm)
  simp only [onUnits_eq_mapState] at hrested ⊢
  obtain hsame | ⟨unit, id, rest, hunit', hfull, hfree, hrearm⟩ :=
    d.configuration.rearm_cases d.pool now u
  · rw [hsame] at hrested ⊢
    exact .inl ⟨hunit, rfl, fun huv => hrested huv before hunit⟩
  · rw [hrearm]
    by_cases huv : u = v
    · subst huv
      obtain rfl : unit = before := Option.some.inj (hunit'.symm.trans hunit)
      refine .inr ⟨rfl, hfull, id, ?_⟩
      change (d.configuration.updateUnit u (·.openOn id now)).unit? u = _
      rw [Configuration.unit?_updateUnit, if_pos rfl, hunit]
      rfl
    · refine .inl ⟨?_, ?_, fun heq => absurd heq huv⟩
      · change (d.configuration.updateUnit u (·.openOn id now)).unit? v = _
        rw [Configuration.unit?_updateUnit, if_neg huv, hunit]
      · change (d.pool.taken (some u) id rest).freeLines (some v) = _
        rw [Pool.freeLines_taken _ hfree, if_neg (by simp [Ne.symm huv])]

/-- Of the units that are asked to open again, those open that are full and have a free line. -/
theorem unit?_rearmOwners (now : Nat) (erased : List Reclaimed)
    (hunit : d.configuration.unit? u = some before) :
    let e := (rearmOwners now erased d).1
    (e.configuration.unit? u = some before ∧
        ((∃ r ∈ erased, r.owner = some u) → before.state = .full →
          d.pool.freeLines (some u) = [])) ∨
      ((∃ r ∈ erased, r.owner = some u) ∧ before.state = .full ∧
        ∃ id, e.configuration.unit? u = some (before.openOn id now)) := by
  induction erased generalizing d before with
  | nil =>
    refine .inl ⟨hunit, ?_⟩
    rintro ⟨r, hr, -⟩
    cases hr
  | cons r rest ih =>
    rw [rearmOwners]
    cases howner : r.owner with
    | none => simpa [howner] using ih hunit
    | some v =>
      obtain ⟨hkept, hfree, hself⟩ | ⟨rfl, hfull, id, hopened⟩ := unit?_rearm (u := v) now hunit
      · obtain ⟨hlater, hspent⟩ | ⟨⟨r', hr', howner'⟩, hfull, hlater⟩ := ih hkept
        · refine .inl ⟨hlater, ?_⟩
          rintro ⟨r', hr', howner'⟩ hfull
          obtain rfl | hr' := List.mem_cons.1 hr'
          · exact hself (Option.some.inj (howner.symm.trans howner')) hfull
          · rw [← hfree]
            exact hspent ⟨r', hr', howner'⟩ hfull
        · exact .inr ⟨⟨r', by simp [hr'], howner'⟩, hfull, hlater⟩
      · -- A unit that was opened is not full, so later requests leave it alone.
        obtain ⟨hlater, -⟩ | ⟨-, hagain, -⟩ := ih hopened
        · exact .inr ⟨⟨r, by simp, howner⟩, hfull, id, hlater⟩
        · cases hagain

/-! ### Collections -/

section Collect

variable (hd : d.Sound) {budget : Option Nat} {wanted : Candidate → Bool}
include hd

/-- Opening units again erases nothing. -/
theorem erasedFor_collect_iff (u : UnitId) :
    d.ErasedFor (d.collect budget wanted).state u ↔
      d.ErasedFor (d.pass budget wanted).state u := by
  have hpassed := (d.advances_any_pass budget wanted).sound hd
  cases hresult : (d.pass budget wanted).result with
  | error cause => rw [collect_of_error budget hresult]; rfl
  | ok erased =>
    have hanyone : ∀ r ∈ erased, True := fun _ _ => trivial
    obtain ⟨hrearm, -⟩ := advances_rearmOwners (W := fun _ => True) hpassed.tick
      (d.pass budget wanted).state.clock.now hanyone
    have hspares : Spares (fun _ => True) (d.pass budget wanted).state.tick _ :=
      ⟨[], hrearm, by simp⟩
    rw [collect_of_ok budget hresult]
    exact hspares.erasedFor_iff hpassed.tick

/-- A collection that is not refused opens the full units that got a line back, and leaves the
others as they are. -/
theorem unit?_collect_of_ok {erased : List Reclaimed}
    (hok : (d.pass budget wanted).result = .ok erased)
    (hunit : d.configuration.unit? u = some before) :
    let e := (d.collect budget wanted).state
    (e.configuration.unit? u = some before ∧ ¬ (before.state = .full ∧ d.ErasedFor e u)) ∨
      (before.state = .full ∧ d.ErasedFor e u ∧
        ∃ id, e.configuration.unit? u = some (before.openOn id d.clock.now)) := by
  dsimp only
  rw [erasedFor_collect_iff hd, erasedFor_pass_iff hok, collect_of_ok budget hok]
  have hpassed : (d.pass budget wanted).state.tick.configuration.unit? u = some before := hunit
  obtain ⟨hkept, hspent⟩ | ⟨hmine, hfull, hopened⟩ :=
    unit?_rearmOwners (d.pass budget wanted).state.clock.now erased hpassed
  · refine .inl ⟨hkept, fun ⟨hfull, hmine⟩ => ?_⟩
    obtain ⟨given, hfree, hnone⟩ := freeLines_pass budget wanted u
    have hempty : (d.pass budget wanted).state.pool.freeLines (some u) = [] := hspent hmine hfull
    have hgiven : given = [] := (List.append_eq_nil_iff.1 (hfree.symm.trans hempty)).2
    exact hnone.1 hgiven ((erasedFor_pass_iff hok).2 hmine)
  · exact .inr ⟨hfull, hmine, hopened⟩

/-- After a collection that is not refused, no unit that got a line back is full with a free line,
and no other one that was not. -/
theorem restedAt_collect_of_ok {erased : List Reclaimed}
    (hok : (d.pass budget wanted).result = .ok erased)
    (h : d.RestedAt u ∨ d.ErasedFor (d.collect budget wanted).state u) :
    (d.collect budget wanted).state.RestedAt u := by
  rw [erasedFor_collect_iff hd] at h
  rw [collect_of_ok budget hok]
  apply restedAt_rearmOwners
  by_cases hmine : d.ErasedFor (d.pass budget wanted).state u
  · exact .inr ((erasedFor_pass_iff hok).1 hmine)
  · obtain ⟨given, hfree, hnone⟩ := freeLines_pass budget wanted u
    rw [hnone.2 hmine, List.append_nil] at hfree
    refine .inl fun unit hunit hfull => hfree.trans ?_
    exact h.resolve_right hmine unit hunit hfull

end Collect

end DataPlacement.Device
